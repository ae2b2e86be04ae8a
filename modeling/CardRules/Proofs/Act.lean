import CardRules.Act
import Mathlib.Order.Defs.Unbundled

/-!
# Reasoning about actions

Two ways to speak of an action without its events. `outcome` is what the action comes to, result and
state, and is computed along `do` by rewriting: one equation for each building block. `Along R` says
less and needs no computing: whatever happens, also where the action fails, the state only moves
along `R`. It composes for every reflexive and transitive `R`, so that a frame ("this part of the
state is left alone") is proved once for each building block and holds of every action made of them.

`Atomic` and `Succeeds` are the two halves of all-or-nothing: an action that is atomic as far as the
point of no return, and succeeds from there, is atomic (`Atomic.bind_succeeds`). `Safe P` is success
from every state with a property that lasts, and composes like `Along`.
-/

set_option autoImplicit false

namespace CardRules.Act

variable {σ τ α β : Type}

theorem isOk_eq_true_iff {result : Except Fault α} : result.isOk = true ↔ ∃ a, result = .ok a := by
  cases result with
  | error fault => simp [Except.isOk, Except.toBool]
  | ok a => simp [Except.isOk, Except.toBool]

/-! ## What an action comes to -/

/-- What an action comes to from a state, the events left aside. -/
def outcome (act : Act σ α) (s : σ) : Except Fault α × σ := ((act s).result, (act s).state)

theorem outcome_bind (act : Act σ α) (next : α → Act σ β) (s : σ) :
    (act >>= next).outcome s = match act.outcome s with
      | (.ok a, s') => (next a).outcome s'
      | (.error fault, s') => (.error fault, s') := by
  cases h : act s with
  | mk result s' events =>
    cases result with
    | ok a => simp only [outcome, bind_run_ok h, h]
    | error fault => simp only [outcome, bind_run_error h, h]

theorem outcome_bind_ok {act : Act σ α} {s s' : σ} {a : α} (h : act.outcome s = (.ok a, s'))
    (next : α → Act σ β) : (act >>= next).outcome s = (next a).outcome s' := by
  rw [outcome_bind, h]

theorem outcome_bind_error {act : Act σ α} {s s' : σ} {fault : Fault}
    (h : act.outcome s = (.error fault, s')) (next : α → Act σ β) :
    (act >>= next).outcome s = (.error fault, s') := by
  rw [outcome_bind, h]

/-- An action in two parts succeeds exactly if both parts do. -/
theorem outcome_bind_eq_ok {act : Act σ α} {next : α → Act σ β} {s s' : σ} {b : β} :
    (act >>= next).outcome s = (.ok b, s') ↔
      ∃ a t, act.outcome s = (.ok a, t) ∧ (next a).outcome t = (.ok b, s') := by
  rw [outcome_bind]
  constructor
  · intro h
    rcases hact : act.outcome s with ⟨fault | a, t⟩
    · rw [hact] at h
      simp at h
    · rw [hact] at h
      exact ⟨a, t, rfl, h⟩
  · rintro ⟨a, t, hact, hnext⟩
    rw [hact]
    exact hnext

/-- A result put into another form is the same result, and the state is the same. -/
theorem outcome_map (f : α → β) (act : Act σ α) (s : σ) :
    (f <$> act).outcome s = ((act.outcome s).1.map f, (act.outcome s).2) := by
  show (act >>= fun a => pure (f a)).outcome s = _
  rw [outcome_bind]
  rcases act.outcome s with ⟨_ | _, _⟩ <;> rfl

theorem snd_outcome_discard (act : Act σ α) (s : σ) :
    ((discard act).outcome s).2 = (act.outcome s).2 :=
  congrArg Prod.snd (outcome_map (fun _ => ()) act s)

@[simp] theorem outcome_get (s : σ) : (get : Act σ σ).outcome s = (.ok s, s) := rfl

@[simp] theorem outcome_modify (f : σ → σ) (s : σ) : (modify f).outcome s = (.ok (), f s) := rfl

@[simp] theorem outcome_fail (fault : Fault) (s : σ) :
    (fail fault : Act σ α).outcome s = (.error fault, s) := rfl

@[simp] theorem outcome_ofExcept (result : Except Fault α) (s : σ) :
    (ofExcept result).outcome s = (result, s) := rfl

@[simp] theorem outcome_require_some (fault : Fault) (a : α) (s : σ) :
    (require fault (some a)).outcome s = (.ok a, s) := rfl

@[simp] theorem outcome_require_none (fault : Fault) (s : σ) :
    (require fault (none : Option α)).outcome s = (.error fault, s) := rfl

theorem snd_outcome_require (fault : Fault) (a? : Option α) (s : σ) :
    ((require fault a?).outcome s).2 = s := by
  cases a? with
  | none => rfl
  | some a => rfl

/-! What an action starts with has to be there if the action succeeds. -/

theorem outcome_ofExcept_bind_eq_ok {result : Except Fault α} {next : α → Act σ β} {s s' : σ} {b : β} :
    (ofExcept result >>= next).outcome s = (.ok b, s') ↔
      ∃ a, result = .ok a ∧ (next a).outcome s = (.ok b, s') := by
  cases result with
  | error fault =>
    rw [outcome_bind_error (outcome_ofExcept _ _)]
    simp
  | ok a =>
    rw [outcome_bind_ok (outcome_ofExcept _ _)]
    simp

theorem outcome_require_bind_eq_ok {fault : Fault} {a? : Option α} {next : α → Act σ β} {s s' : σ}
    {b : β} :
    (require fault a? >>= next).outcome s = (.ok b, s') ↔
      ∃ a, a? = some a ∧ (next a).outcome s = (.ok b, s') := by
  cases a? with
  | none =>
    rw [outcome_bind_error (outcome_require_none _ _)]
    simp
  | some a =>
    rw [outcome_bind_ok (outcome_require_some _ _ _)]
    simp

theorem outcome_guarded_eq_ok {condition : Prop} [Decidable condition] {fault : Fault}
    {act : Act σ α} {s s' : σ} {a : α} :
    (if condition then act else (fail fault : Act σ Unit) >>= fun _ => act).outcome s = (.ok a, s') ↔
      condition ∧ act.outcome s = (.ok a, s') := by
  by_cases h : condition
  · rw [if_pos h]
    exact ⟨fun hact => ⟨h, hact⟩, fun hact => hact.2⟩
  · rw [if_neg h, outcome_bind_error (outcome_fail _ _)]
    exact ⟨fun hact => by simp at hact, fun hact => absurd hact.1 h⟩

theorem outcome_attempt (act : Act σ α) (s : σ) :
    act.attempt.outcome s = (.ok (act.outcome s).1, (act.outcome s).2) := rfl

theorem outcome_within (part : τ → σ) (put : σ → τ → τ) (act : Act σ α) (t : τ) :
    (act.within part put).outcome t = ((act.outcome (part t)).1, put (act.outcome (part t)).2 t) := rfl

theorem outcome_forM_cons (act : α → Act σ Unit) (a : α) (as : List α) (s : σ) :
    ((a :: as).forM act).outcome s = (act a >>= fun _ => as.forM act).outcome s := rfl

/-- A list of actions runs to its end, or up to the first of them that fails. -/
theorem outcome_forM_cases (act : α → Act σ Unit) (as : List α) (s : σ) :
    (∃ s', (as.forM act).outcome s = (.ok (), s')) ∨
      ∃ done a rest mid fault, as = done ++ a :: rest ∧
        (done.forM act).outcome s = (.ok (), mid) ∧ ((act a).outcome mid).1 = .error fault ∧
        (as.forM act).outcome s = (.error fault, ((act a).outcome mid).2) := by
  induction as generalizing s with
  | nil => exact .inl ⟨s, rfl⟩
  | cons a as ih =>
    rw [outcome_forM_cons]
    rcases hact : (act a).outcome s with ⟨fault | _, s'⟩
    · rw [outcome_bind_error hact]
      exact .inr ⟨[], a, as, s, fault, rfl, rfl, by rw [hact], by rw [hact]⟩
    · rw [outcome_bind_ok hact]
      rcases ih s' with hall | ⟨done, b, rest, mid, fault, rfl, hdone, hfails, hstops⟩
      · exact .inl hall
      · refine .inr ⟨a :: done, b, rest, mid, fault, rfl, ?_, hfails, hstops⟩
        rw [outcome_forM_cons, outcome_bind_ok hact, hdone]

/-! ## First steps

Behind a first look at the state, or a first test, an action is what follows, events included. -/

theorem get_bind_run (next : σ → Act σ α) (s : σ) : (get >>= next) s = next s s := rfl

theorem ofExcept_ok_bind_run (a : α) (next : α → Act σ β) (s : σ) :
    (ofExcept (.ok a) >>= next) s = next a s := rfl

theorem ofExcept_error_bind_run (fault : Fault) (next : α → Act σ β) (s : σ) :
    (ofExcept (.error fault) >>= next) s = { result := .error fault, state := s } := rfl

theorem require_some_bind_run (fault : Fault) (a : α) (next : α → Act σ β) (s : σ) :
    (require fault (some a) >>= next) s = next a s := rfl

/-! ## Frames -/

section Along

variable {R : σ → σ → Prop}

/-- Whatever the action does, also where it fails, the state moves along `R`. -/
def Along (R : σ → σ → Prop) (act : Act σ α) : Prop := ∀ s, R s (act.outcome s).2

theorem Along.modify {f : σ → σ} (h : ∀ s, R s (f s)) : Along R (modify f) := h

/-- An action on a part moves the whole along `R` if `R` is what the part's move amounts to. -/
theorem Along.within {S : τ → τ → Prop} {part : τ → σ} {put : σ → τ → τ} {act : Act σ α}
    (h : Along R act) (hput : ∀ t s, R (part t) s → S t (put s t)) : Along S (act.within part put) :=
  fun t => hput t _ (h (part t))

theorem Along.attempt {act : Act σ α} (h : Along R act) : Along R act.attempt := h

/-- One action after another moves a state along `R` if each of the two does, the second from where
the first has left the state. -/
theorem rel_bind [IsTrans σ R] {act : Act σ α} {next : α → Act σ β} {s : σ}
    (h : R s (act.outcome s).2)
    (hnext : ∀ a s', act.outcome s = (.ok a, s') → R s' ((next a).outcome s').2) :
    R s ((act >>= next).outcome s).2 := by
  rcases hact : act.outcome s with ⟨fault | a, s'⟩
  · rw [outcome_bind_error hact]
    rw [hact] at h
    exact h
  · rw [outcome_bind_ok hact]
    rw [hact] at h
    exact IsTrans.trans _ _ _ h (hnext a s' hact)

theorem Along.bind [IsTrans σ R] {act : Act σ α} {next : α → Act σ β}
    (h : Along R act) (hnext : ∀ a, Along R (next a)) : Along R (act >>= next) :=
  fun s => rel_bind (h s) fun a s' _ => hnext a s'

variable [Std.Refl R]

theorem Along.pure (a : α) : Along R (pure a : Act σ α) := fun s => Std.Refl.refl s

theorem Along.get : Along R (get : Act σ σ) := fun s => Std.Refl.refl s

theorem Along.fail (fault : Fault) : Along R (fail fault : Act σ α) := fun s => Std.Refl.refl s

theorem Along.ofExcept (result : Except Fault α) : Along R (ofExcept result) :=
  fun s => Std.Refl.refl s

theorem Along.require (fault : Fault) (a? : Option α) : Along R (require fault a?) := by
  intro s
  cases a? with
  | none => exact Std.Refl.refl s
  | some a => exact Std.Refl.refl s

theorem Along.report (channel : Channel) (event : Event) : Along R (report channel event) :=
  fun s => Std.Refl.refl s

variable [IsTrans σ R]

theorem Along.map {act : Act σ α} (h : Along R act) (f : α → β) : Along R (f <$> act) :=
  h.bind fun a => .pure (f a)

theorem Along.discard {act : Act σ α} (h : Along R act) : Along R (discard act) := h.map _

/-- A test that may refuse the action. -/
theorem Along.guarded {condition : Prop} [Decidable condition] {fault : Fault} {act : Act σ α}
    (h : Along R act) :
    Along R (if condition then act else (Act.fail fault : Act σ Unit) >>= fun _ => act) := by
  split
  · exact h
  · exact (Along.fail fault).bind fun _ => h

theorem Along.forM {as : List α} {act : α → Act σ Unit} (h : ∀ a ∈ as, Along R (act a)) :
    Along R (as.forM act) := by
  induction as with
  | nil => exact .pure ()
  | cons a as ih =>
    show Along R (act a >>= fun _ => as.forM act)
    exact (h a List.mem_cons_self).bind fun _ => ih fun b hb => h b (List.mem_cons_of_mem a hb)

end Along

/-! ## All or nothing -/

/-- From this state the action succeeds. -/
def Succeeds (act : Act σ α) (s : σ) : Prop := ∃ a s', act.outcome s = (.ok a, s')

/-- From this state the action succeeds or changes nothing. -/
def Atomic (act : Act σ α) (s : σ) : Prop := ∀ fault s', act.outcome s = (.error fault, s') → s' = s

/-- From every state with the property the action succeeds, and the property holds afterwards. -/
def Safe (P : σ → Prop) (act : Act σ α) : Prop :=
  ∀ s, P s → ∃ a s', act.outcome s = (.ok a, s') ∧ P s'

theorem Succeeds.atomic {act : Act σ α} {s : σ} (h : act.Succeeds s) : act.Atomic s := by
  obtain ⟨a, s', hs⟩ := h
  intro fault s'' hf
  rw [hs] at hf
  simp at hf

theorem Succeeds.of_bind {act : Act σ α} {next : α → Act σ β} {s s' : σ} {a : α}
    (h : act.outcome s = (.ok a, s')) (hnext : (next a).Succeeds s') :
    (act >>= next).Succeeds s := by
  obtain ⟨b, s'', hb⟩ := hnext
  exact ⟨b, s'', by rw [outcome_bind_ok h, hb]⟩

theorem not_succeeds {act : Act σ α} {s s' : σ} {fault : Fault}
    (h : act.outcome s = (.error fault, s')) : ¬act.Succeeds s := by
  rintro ⟨a, s'', hs⟩
  rw [h] at hs
  simp at hs

theorem succeeds_bind {act : Act σ α} {next : α → Act σ β} {s : σ} :
    (act >>= next).Succeeds s ↔ ∃ a s', act.outcome s = (.ok a, s') ∧ (next a).Succeeds s' := by
  constructor
  · rintro ⟨b, s'', hb⟩
    obtain ⟨a, s', hact, hnext⟩ := outcome_bind_eq_ok.mp hb
    exact ⟨a, s', hact, b, s'', hnext⟩
  · rintro ⟨a, s', hact, hnext⟩
    exact .of_bind hact hnext

/-- What follows a part that succeeds decides. -/
theorem succeeds_bind_ok {act : Act σ α} {s s' : σ} {a : α} (h : act.outcome s = (.ok a, s'))
    (next : α → Act σ β) : (act >>= next).Succeeds s ↔ (next a).Succeeds s' := by
  unfold Succeeds
  rw [outcome_bind_ok h]

theorem succeeds_map {f : α → β} {act : Act σ α} {s : σ} : (f <$> act).Succeeds s ↔ act.Succeeds s := by
  show (act >>= fun a => pure (f a)).Succeeds s ↔ _
  rw [succeeds_bind]
  constructor
  · rintro ⟨a, s', hact, -⟩
    exact ⟨a, s', hact⟩
  · rintro ⟨a, s', hact⟩
    exact ⟨a, s', hact, f a, s', rfl⟩

theorem Atomic.of_unchanged {act : Act σ α} {s : σ} (h : (act.outcome s).2 = s) : act.Atomic s := by
  intro fault s' hs
  rw [hs] at h
  exact h

/-- What can only fail without having changed anything may be followed by what cannot fail. -/
theorem Atomic.bind_succeeds {act : Act σ α} {next : α → Act σ β} {s : σ} (h : act.Atomic s)
    (hnext : ∀ a s', act.outcome s = (.ok a, s') → (next a).Succeeds s') :
    (act >>= next).Atomic s := by
  intro fault s' hs
  rcases hact : act.outcome s with ⟨f | a, t⟩
  · rw [outcome_bind_error hact] at hs
    obtain ⟨-, rfl⟩ := Prod.mk.inj hs
    exact h f t hact
  · obtain ⟨b, u, hb⟩ := hnext a t hact
    rw [outcome_bind_ok hact, hb] at hs
    simp at hs

/-- A look at the state may be followed by anything that is atomic. -/
theorem Atomic.bind_of_unchanged {act : Act σ α} {next : α → Act σ β} {s : σ}
    (h : (act.outcome s).2 = s) (hnext : ∀ a, act.outcome s = (.ok a, s) → (next a).Atomic s) :
    (act >>= next).Atomic s := by
  intro fault s' hs
  rcases hact : act.outcome s with ⟨f | a, t⟩
  · rw [outcome_bind_error hact] at hs
    obtain ⟨-, rfl⟩ := Prod.mk.inj hs
    rw [hact] at h
    exact h
  · rw [hact] at h
    obtain rfl : t = s := h
    rw [outcome_bind_ok hact] at hs
    exact hnext a hact fault s' hs

/-- An action on a part of the state is atomic where it is so on the part. -/
theorem Atomic.within {part : τ → σ} {put : σ → τ → τ} {act : Act σ α} {t : τ}
    (h : act.Atomic (part t)) (hput : put (part t) t = t) : (act.within part put).Atomic t := by
  intro fault t' ht
  rw [outcome_within] at ht
  rcases hact : act.outcome (part t) with ⟨f | a, s⟩
  · rw [hact] at ht
    obtain ⟨-, rfl⟩ := Prod.mk.inj ht
    rw [h f s hact, hput]
  · rw [hact] at ht
    simp at ht

section Safe

variable {P : σ → Prop}

theorem Safe.succeeds {act : Act σ α} {s : σ} (h : Safe P act) (hs : P s) : act.Succeeds s := by
  obtain ⟨a, s', hout, -⟩ := h s hs
  exact ⟨a, s', hout⟩

theorem Safe.pure (a : α) : Safe P (pure a : Act σ α) := fun s hs => ⟨a, s, rfl, hs⟩

theorem Safe.get : Safe P (get : Act σ σ) := fun s hs => ⟨s, s, rfl, hs⟩

theorem Safe.modify {f : σ → σ} (h : ∀ s, P s → P (f s)) : Safe P (modify f) :=
  fun s hs => ⟨(), f s, rfl, h s hs⟩

theorem Safe.report (channel : Channel) (event : Event) : Safe P (report channel event) :=
  fun s hs => ⟨(), s, rfl, hs⟩

theorem Safe.bind {act : Act σ α} {next : α → Act σ β} (h : Safe P act)
    (hnext : ∀ a, Safe P (next a)) : Safe P (act >>= next) := by
  intro s hs
  obtain ⟨a, t, hact, ht⟩ := h s hs
  obtain ⟨b, u, hb, hu⟩ := hnext a t ht
  exact ⟨b, u, by rw [outcome_bind_ok hact, hb], hu⟩

theorem Safe.discard {act : Act σ α} (h : Safe P act) : Safe P (discard act) :=
  h.bind fun _ => .pure _

theorem Safe.forM {as : List α} {act : α → Act σ Unit} (h : ∀ a ∈ as, Safe P (act a)) :
    Safe P (as.forM act) := by
  induction as with
  | nil => exact .pure ()
  | cons a as ih =>
    show Safe P (act a >>= fun _ => as.forM act)
    exact (h a List.mem_cons_self).bind fun _ => ih fun b hb => h b (List.mem_cons_of_mem a hb)

end Safe

end CardRules.Act
