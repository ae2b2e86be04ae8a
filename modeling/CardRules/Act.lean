import CardRules.Fault
import CardRules.Journal

/-!
# Actions

An action runs from a state. It succeeds or fails, leaves a state either way (a failure keeps
what was already changed), and reports events. No action can read what was reported, so journals
have no influence on play.
-/

set_option autoImplicit false

namespace CardRules

/-- Who reports an event. -/
inductive Channel where
  | table
  | stack
deriving DecidableEq, Repr, Inhabited

/-- What running an action gives. -/
structure Run (σ α : Type) where
  result : Except Fault α
  state : σ
  events : List (Channel × Event) := []

/-- An action on states of type `σ`. -/
def Act (σ α : Type) : Type := σ → Run σ α

namespace Act

variable {σ τ α β : Type}

/-- The action that only answers. -/
protected def pure (a : α) : Act σ α := fun s => { result := .ok a, state := s }

/-- One action after another; a failure of the first is the failure of both. -/
protected def bind (act : Act σ α) (next : α → Act σ β) : Act σ β := fun s =>
  match act s with
  | ⟨.ok a, s', events⟩ =>
    let rest := next a s'
    { rest with events := events ++ rest.events }
  | ⟨.error fault, s', events⟩ => { result := .error fault, state := s', events }

instance : Monad (Act σ) where
  pure := Act.pure
  bind := Act.bind

/-- The state. -/
def get : Act σ σ := fun s => { result := .ok s, state := s }

/-- Something read off the state. -/
def gets (f : σ → α) : Act σ α := fun s => { result := .ok (f s), state := s }

/-- Another state. -/
def set (s : σ) : Act σ Unit := fun _ => { result := .ok (), state := s }

/-- A change of the state. -/
def modify (f : σ → σ) : Act σ Unit := fun s => { result := .ok (), state := f s }

/-- A failure. -/
def fail (fault : Fault) : Act σ α := fun s => { result := .error fault, state := s }

/-- A result that is known already. -/
def ofExcept (result : Except Fault α) : Act σ α := fun s => { result, state := s }

/-- A value that must be there. -/
def require (fault : Fault) : Option α → Act σ α
  | some a => Act.pure a
  | none => fail fault

/-- An event. -/
def report (channel : Channel) (event : Event) : Act σ Unit := fun s =>
  { result := .ok (), state := s, events := [(channel, event)] }

/-- An action whose failure is a result to go on with. -/
def attempt (act : Act σ α) : Act σ (Except Fault α) := fun s =>
  let run := act s
  { result := .ok run.result, state := run.state, events := run.events }

/-- An action on a part of a state. -/
def within (part : τ → σ) (put : σ → τ → τ) (act : Act σ α) : Act τ α := fun t =>
  let run := act (part t)
  { result := run.result, state := put run.state t, events := run.events }

theorem pure_run (a : α) (s : σ) :
    (pure a : Act σ α) s = { result := .ok a, state := s } := rfl

theorem bind_run_ok {act : Act σ α} {s s' : σ} {a : α} {events : List (Channel × Event)}
    (h : act s = ⟨.ok a, s', events⟩) (next : α → Act σ β) :
    (act >>= next) s = { next a s' with events := events ++ (next a s').events } := by
  simp [bind, Act.bind, h]

theorem bind_run_error {act : Act σ α} {s s' : σ} {fault : Fault}
    {events : List (Channel × Event)} (h : act s = ⟨.error fault, s', events⟩)
    (next : α → Act σ β) : (act >>= next) s = ⟨.error fault, s', events⟩ := by
  simp [bind, Act.bind, h]

end Act

end CardRules
