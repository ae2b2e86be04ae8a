import CardRules.Table
import Mathlib.Data.List.Basic

/-!
# The rest of a turn

A turn is finished by going on step by step until there is no step left (`Table.finishTurn`). Each step that is
left lets the changes run out that last until its end, on every card of the battlefield and as often as the
card lies there, and leaving the last one takes the damage away (`card?_advanceStep`). What a card keeps of its
changes from a step on to the end of the turn can be told from the step (`Step.outlasts`), and that is what
the whole comes to (`Finished`).

So nothing that lasts until the end of turn, and no damage, is carried into another turn, if every turn is
finished before the next one begins (`durations_run_out`).
-/

set_option autoImplicit false

namespace CardRules

namespace Store

variable {α : Type}

/-- Changing the values under some numbers, one after the other. How often a number occurs makes no
difference to a change that does nothing the second time. -/
theorem get?_foldl_update {f : α → α} (hf : ∀ a, f (f a) = f a) (ids : List EntityId)
    (store : Store α) (key : EntityId) :
    (ids.foldl (fun store id => store.update id f) store).get? key =
      if key ∈ ids then (store.get? key).map f else store.get? key := by
  induction ids generalizing store with
  | nil => rfl
  | cons id ids ih =>
    rw [List.foldl_cons, ih, get?_update]
    by_cases hkey : key = id
    · have htwice : f ∘ f = f := funext hf
      rw [if_pos hkey, if_pos (List.mem_cons.mpr (.inl hkey)), Option.map_map, htwice]
      exact ite_self _
    · rw [if_neg hkey]
      simp only [List.mem_cons, hkey, false_or]

end Store

/-! ## Cards -/

/-- Whether a change of a duration outlasts the rest of a turn, from a step on. One that lasts until the end
of combat does if that step is over. -/
def Step.outlasts (step : Step) (duration : Duration) : Bool :=
  duration ≠ .untilEndOfTurn ∧ (duration = .untilEndOfCombat → all.idxOf .endCombat < all.idxOf step)

/-- A card after a step is left. -/
def Card.leaveStep (step : Step) (card : Card) : Card :=
  { card with
    modifiers := card.modifiers.filter fun modifier => step.endsDuration != some modifier.duration
    damage := if step.endsDuration = some .untilEndOfTurn then 0 else card.damage }

/-- A card after the rest of a turn, from a step on. -/
def Card.leaveTurn (step : Step) (card : Card) : Card :=
  { card with
    modifiers := card.modifiers.filter fun modifier => step.outlasts modifier.duration
    damage := 0 }

/-- What outlasts the rest of a turn outlasts the step and then the rest. -/
theorem Step.outlasts_eq {step next : Step} (h : step.next = some next) (duration : Duration) :
    step.outlasts duration = (next.outlasts duration && step.endsDuration != some duration) := by
  cases step <;> cases h <;> cases duration <;> rfl

theorem Step.eq_cleanup {step : Step} (h : step.next = none) : step = .cleanup := by
  cases step with
  | cleanup => rfl
  | _ => cases h

theorem Step.idxOf_next {step next : Step} (h : step.next = some next) :
    all.idxOf next = all.idxOf step + 1 ∧ all.idxOf next < 12 := by
  cases step <;> cases h <;> decide

namespace Card

variable {step next : Step}

theorem leaveStep_of_none (h : step.endsDuration = none) (card : Card) : card.leaveStep step = card := by
  have hkept : ∀ modifier ∈ card.modifiers, (step.endsDuration != some modifier.duration) = true :=
    fun modifier _ => by rw [h]; rfl
  rw [leaveStep, List.filter_eq_self.mpr hkept, h]
  rfl

theorem leaveStep_of_some {elapsed : Duration} (h : step.endsDuration = some elapsed) (card : Card) :
    card.leaveStep step = Table.expireCard elapsed card := by
  have hkept : (fun modifier : Modifier => some elapsed != some modifier.duration) =
      fun modifier => modifier.duration != elapsed := by
    funext modifier
    rw [bne_comm]
    rfl
  unfold leaveStep Table.expireCard expire
  simp only [h, hkept, Option.some.injEq]
  split
  · rfl
  · rfl

theorem leaveStep_leaveStep (step : Step) (card : Card) :
    (card.leaveStep step).leaveStep step = card.leaveStep step := by
  simp only [leaveStep, List.filter_filter, Bool.and_self]
  split
  · rfl
  · rfl

theorem leaveTurn_leaveStep (h : step.next = some next) (card : Card) :
    (card.leaveStep step).leaveTurn next = card.leaveTurn step := by
  simp only [leaveTurn, leaveStep, List.filter_filter, Step.outlasts_eq h]

/-- Leaving the last step is the rest of the turn. -/
theorem leaveTurn_of_last (h : step.next = none) (card : Card) :
    card.leaveTurn step = card.leaveStep step := by
  have hlast : step = .cleanup := Step.eq_cleanup h
  have hkept (duration : Duration) :
      step.outlasts duration = (step.endsDuration != some duration) := by
    rw [hlast]
    cases duration <;> rfl
  rw [leaveTurn, leaveStep]
  simp only [hkept]
  rw [if_pos (by rw [hlast]; rfl)]

end Card

/-! ## Tables -/

namespace Table

variable {table after : Table}

theorem advanceStep_fst (table : Table) : table.advanceStep.1 = table.turn.step.next.isSome := by
  show table.turn.advance.1 = _
  unfold Turn.advance
  cases table.turn.step.next with
  | none => rfl
  | some next => rfl

theorem turn_advanceStep {next : CardRules.Step} (h : table.turn.step.next = some next) :
    table.advanceStep.2.turn = { table.turn with step := next } := by
  show table.turn.advance.2 = _
  rw [Turn.advance, h]

theorem turn_advanceStep_last (h : table.turn.step.next = none) :
    table.advanceStep.2.turn = { table.turn with step := .cleanup } := by
  have hlast : table.turn.step = .cleanup := Step.eq_cleanup h
  show table.turn.advance.2 = _
  rw [Turn.advance, h, ← hlast]

theorem card?_advanceStep (table : Table) (id : CardId) :
    table.advanceStep.2.card? id =
      if id ∈ table.battlefield.cards then (table.card? id).map (Card.leaveStep table.turn.step)
      else table.card? id := by
  cases hends : table.turn.step.endsDuration with
  | none =>
    have hsame : table.advanceStep.2.cards = table.cards := by
      unfold advanceStep
      rw [hends]
    have hid : Card.leaveStep table.turn.step = fun card => card :=
      funext (Card.leaveStep_of_none hends)
    rw [card?, hsame, hid, Option.map_id']
    exact (ite_self _).symm
  | some elapsed =>
    have hcards : table.advanceStep.2.cards = table.battlefield.cards.foldl
        (fun cards id => cards.update id (Card.leaveStep table.turn.step)) table.cards := by
      unfold advanceStep
      rw [hends, funext (Card.leaveStep_of_some hends)]
    rw [card?, hcards]
    exact Store.get?_foldl_update (Card.leaveStep_leaveStep table.turn.step) _ _ _

/-! ## Turns -/

/-- Going on step by step until there is no step left: how often that is asked for, and the table after it. -/
def finishTurn (table : Table) : Nat × Table :=
  if table.advanceStep.1 = true then
    let rest := table.advanceStep.2.finishTurn
    (rest.1 + 1, rest.2)
  else (1, table.advanceStep.2)
termination_by 12 - Step.all.idxOf table.turn.step
decreasing_by
  rename_i h
  rw [advanceStep_fst, Option.isSome_iff_exists] at h
  obtain ⟨next, hnext⟩ := h
  obtain ⟨hsucc, hlast⟩ := Step.idxOf_next hnext
  have hstep : table.advanceStep.2.turn.step = next := by rw [turn_advanceStep hnext]
  rw [hstep]
  omega

/-- What the rest of a turn comes to. -/
structure Finished (before after : Table) (calls : Nat) : Prop where
  calls : calls + Step.all.idxOf before.turn.step = 12
  table : after =
    { before with cards := after.cards, turn := { before.turn with step := .cleanup } }
  cards (id : CardId) : after.card? id =
    if id ∈ before.battlefield.cards then (before.card? id).map (Card.leaveTurn before.turn.step)
    else before.card? id

namespace Finished

theorem last (h : table.turn.step.next = none) : Finished table table.advanceStep.2 1 where
  calls := by rw [Step.eq_cleanup h]; rfl
  table := by
    rw [← turn_advanceStep_last h]
    rfl
  cards id := by rw [card?_advanceStep, funext (Card.leaveTurn_of_last h)]

theorem step {next : CardRules.Step} {calls : Nat} (h : table.turn.step.next = some next)
    (hrest : Finished table.advanceStep.2 after calls) : Finished table after (calls + 1) := by
  have hturn := turn_advanceStep h
  constructor
  · have hcalls := hrest.calls
    rw [hturn, (Step.idxOf_next h).1] at hcalls
    omega
  · have htable := hrest.table
    rw [hturn] at htable
    exact htable
  · intro id
    have hcard := hrest.cards id
    rw [hturn, card?_advanceStep] at hcard
    rw [hcard]
    show (if id ∈ table.battlefield.cards then _ else _) = _
    split
    · rw [Option.map_map]
      exact congrArg (fun f => (table.card? id).map f) (funext (Card.leaveTurn_leaveStep h))
    · rfl

end Finished

theorem finished_finishTurn (table : Table) : Finished table table.finishTurn.2 table.finishTurn.1 := by
  fun_induction finishTurn table with
  | case1 table h _ ih =>
    rw [advanceStep_fst, Option.isSome_iff_exists] at h
    obtain ⟨next, hnext⟩ := h
    exact Finished.step hnext ih
  | case2 table h =>
    rw [advanceStep_fst, Option.not_isSome_iff_eq_none] at h
    exact Finished.last h

/-! ## One turn after the other -/

/-- No card on the battlefield is damaged, or changed until the end of turn. -/
def Rested (table : Table) : Prop :=
  ∀ id ∈ table.battlefield.cards, ∀ card, table.card? id = some card →
    card.damage = 0 ∧ ∀ modifier ∈ card.modifiers, modifier.duration ≠ .untilEndOfTurn

/-- The table after some turns: whatever is done in a turn, it is finished before the next one begins. -/
def playTurns (table : Table) (turns : List (Table → Table)) : Table :=
  turns.foldl (fun table deeds => (deeds table).finishTurn.2.nextTurn) table

theorem Finished.rested {before after : Table} {calls : Nat} (h : Finished before after calls) :
    after.Rested := by
  intro id hid card hcard
  rw [h.table] at hid
  rw [h.cards, if_pos hid] at hcard
  obtain ⟨former, -, rfl⟩ := Option.map_eq_some_iff.mp hcard
  refine ⟨rfl, fun modifier hmodifier => ?_⟩
  have houtlasts := (List.mem_filter.mp hmodifier).2
  exact (of_decide_eq_true houtlasts).1

theorem Rested.nextTurn (h : table.Rested) : table.nextTurn.Rested := by
  unfold Table.nextTurn
  split
  · exact h
  · exact h

/-- At the beginning of every turn but the first nothing is left of the turn before. -/
theorem rested_playTurns (table : Table) {turns : List (Table → Table)} (h : turns ≠ []) :
    (table.playTurns turns).Rested := by
  obtain ⟨former, deeds, rfl⟩ := (List.eq_nil_or_concat' turns).resolve_left h
  rw [playTurns, List.foldl_append, List.foldl_cons, List.foldl_nil]
  exact (finished_finishTurn _).rested.nextTurn

/-- Durations run out over a turn. From every table at every step, going on until there is no step left takes
twelve calls, less one for each step that is already over, and then it is the cleanup of the same player's
turn. Every card on the battlefield has its changes, in order, but those until the end of turn and, unless
combat was over, those until the end of combat, and it is undamaged; apart from that it is as it was, and so
are the other cards, the players and the piles. So no damage and no change until the end of turn comes onto
the battlefield of another turn, whatever is done in the turns, if each of them is finished. -/
theorem durations_run_out (table : Table) :
    ∃ calls after, table.finishTurn = (calls, after) ∧
      calls + Step.all.idxOf table.turn.step = 12 ∧
      after = { table with cards := after.cards, turn := { table.turn with step := .cleanup } } ∧
      (∀ id, after.card? id =
        if id ∈ table.battlefield.cards then (table.card? id).map fun card => { card with
          modifiers := card.modifiers.filter fun modifier => modifier.duration ≠ .untilEndOfTurn ∧
            (modifier.duration = .untilEndOfCombat →
              Step.all.idxOf .endCombat < Step.all.idxOf table.turn.step)
          damage := 0 }
        else table.card? id) ∧
      ∀ turns ≠ [], (table.playTurns turns).Rested := by
  have hfinished := finished_finishTurn table
  exact ⟨_, _, rfl, hfinished.calls, hfinished.table, hfinished.cards, fun turns =>
    rested_playTurns table⟩

/-- A tapped card, twice on the battlefield, with a change of every sort and damage, and a changed card that is
nowhere. -/
def battleworn : Table :=
  { (Table.seat ["A", "B"] 20).setStep .combatDamage with
    cards := { entries := [
      (⟨4⟩, { Card.blank ⟨4⟩ "Bear" ⟨2⟩ with
        tapped := true, damage := 3
        modifiers := [⟨1, 1, .untilEndOfTurn⟩, ⟨2, 0, .permanent⟩, ⟨3, 3, .untilEndOfCombat⟩] }),
      (⟨5⟩, { Card.blank ⟨5⟩ "Ghost" ⟨1⟩ with modifiers := [⟨1, 1, .untilEndOfTurn⟩] })] }
    battlefield := { zone := .battlefield, owner := ⟨3⟩, cards := [⟨4⟩, ⟨4⟩] } }

theorem durations_run_out_battleworn :
    ∃ after, battleworn.finishTurn = (5, after) ∧
      (after.card? ⟨4⟩).map (fun card => (card.tapped, card.damage, card.modifiers)) =
        some (true, 0, [⟨2, 0, .permanent⟩]) ∧
      after.card? ⟨5⟩ = battleworn.card? ⟨5⟩ ∧ (battleworn.playTurns [id, id]).Rested := by
  obtain ⟨calls, after, hfinish, hcalls, -, hcards, hturns⟩ := durations_run_out battleworn
  have hstep : Step.all.idxOf battleworn.turn.step = 7 := by decide
  obtain rfl : calls = 5 := by omega
  refine ⟨after, hfinish, ?_, ?_, hturns [id, id] (by simp)⟩
  · rw [hcards]
    decide
  · rw [hcards]
    decide

end Table

end CardRules
