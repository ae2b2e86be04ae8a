import CardRules.Proofs.Stack.Origin

/-!
# Sorcery speed

A spell that is neither an instant nor has flash, and an ability with this timing, may be put on the
stack only while that is empty, in a main phase. The two are let in at different doors: the stack asks
both for emptiness and the step where a spell is cast, and leaves the step to the engine where an
ability is used.

What is asked for once, as an item comes, stays visible in its place: it came on an empty stack, so it
is at the bottom as long as it is there, and there is no other of its sort.
-/

set_option autoImplicit false

namespace CardRules

/-- Whether an object may be put on the stack only in a main phase, with nothing there. -/
def StackObject.isSorcerySpeed : StackObject → Bool
  | spell s => s.isSorcerySpeed
  | ability a => a.timing.sorcerySpeed

/-- Whether an operation is a move of a player or of the turn. What is not pushes an object onto the
stack, which no timing restricts. -/
def Operation.isPlay : Operation → Bool
  | push _ _ _ _ | pushTriggered _ _ _ => false
  | _ => true

namespace Call

variable {call : Call} {stack : Stack} {item : StackItem}

theorem Puts.open_of_sorcerySpeed (h : call.Puts stack item) (hplay : call.operation.isPlay = true)
    (hsorcery : item.object.isSorcerySpeed = true) :
    stack.items = [] ∧ call.table.turn.step.isMain = true := by
  cases h with
  | pushed asked =>
    rw [asked] at hplay
    simp [Operation.isPlay] at hplay
  | triggered asked =>
    rw [asked] at hplay
    simp [Operation.isPlay] at hplay
  | @cast spell _ _ _ _ _ _ _ timing =>
    have hsorcery : spell.isSorcerySpeed = true := hsorcery
    cases timing with
    | inl free => simp [hsorcery] at free
    | inr main => exact main
  | @activated _ _ _ _ ability _ _ _ _ _ timing =>
    have hsorcery : ability.timing.sorcerySpeed = true := hsorcery
    cases timing with
    | inl free => simp [hsorcery] at free
    | inr main => exact main

end Call

namespace Stack

section

variable {start : Stack} (hempty : start.items = []) {calls : List Call}
  (hplay : ∀ call ∈ calls, call.operation.isPlay = true)

include hempty hplay

/-- An item at sorcery speed came on an empty stack, in a main phase, and was the bottom one since. -/
theorem origin_of_sorcerySpeed {below above : List StackItem} {item : StackItem}
    (hsplit : (start.play calls).items = below ++ item :: above)
    (hsorcery : item.object.isSorcerySpeed = true) :
    below = [] ∧ ∃ earlier call rest, calls = earlier ++ call :: rest ∧
      (start.play earlier).items = [] ∧ call.table.turn.step.isMain = true ∧
      call.Puts (start.play earlier) item.unmarked ∧
      ∀ later, later <+: rest →
        [item.unmarked] <+: (start.play (earlier ++ call :: later)).unmarked := by
  obtain ⟨earlier, call, rest, rfl, hbelow, hputs, hstays⟩ :=
    origin_play hempty calls (isPrefix_of_items hsplit)
  obtain ⟨hopen, hmain⟩ := hputs.open_of_sorcerySpeed (hplay call (by simp)) hsorcery
  have hnone : below = [] := by
    rw [unmarked, hopen] at hbelow
    simpa using hbelow.symm
  subst hnone
  exact ⟨rfl, earlier, call, rest, rfl, hopen, hmain, hputs, hstays⟩

/-- Sorcery speed over runs. Whatever spells are cast and abilities used, whoever passes, whatever
resolves, is countered or becomes active, from an empty stack: an item at sorcery speed is the bottom
one. It was put on the empty stack in a main phase and has been at the bottom since, and there is no
other. -/
theorem sorcery_speed_at_bottom :
    (∀ below item above, (start.play calls).items = below ++ item :: above →
      item.object.isSorcerySpeed = true →
        below = [] ∧ ∃ earlier call rest, calls = earlier ++ call :: rest ∧
          (start.play earlier).items = [] ∧ call.table.turn.step.isMain = true ∧
          call.Puts (start.play earlier) item.unmarked ∧
          ∀ later, later <+: rest →
            [item.unmarked] <+: (start.play (earlier ++ call :: later)).unmarked) ∧
      ((start.play calls).items.filter (·.object.isSorcerySpeed)).length ≤ 1 := by
  constructor
  · intro below item above hsplit hsorcery
    exact origin_of_sorcerySpeed hempty hplay hsplit hsorcery
  · cases hitems : (start.play calls).items with
    | nil => simp
    | cons bottom above =>
      -- whatever is above the bottom is not the bottom
      have hnone : above.filter (·.object.isSorcerySpeed) = [] := by
        rw [List.filter_eq_nil_iff]
        intro item hitem hsorcery
        obtain ⟨front, back, rfl⟩ := List.append_of_mem hitem
        have hsplit : (start.play calls).items = (bottom :: front) ++ item :: back := hitems
        obtain ⟨hbelow, -⟩ := origin_of_sorcerySpeed hempty hplay hsplit hsorcery
        simp at hbelow
      rw [List.filter_cons, hnone]
      split
      · simp
      · simp

end

/-- A sorcery that costs nothing. -/
def ritual : Spell := { (default : Spell) with name := "Ritual", types := [.sorcery] }

/-- An instant that costs nothing. -/
def whim : Spell := { (default : Spell) with name := "Whim", types := [.instant] }

/-- The sorcery is cast in a main phase, the instant on top of it, and a second sorcery is tried. -/
def twoRituals : List Call :=
  [ritual, whim, ritual].map fun spell => {
    operation := .cast spell ⟨1⟩ [] none false
    table := { Table.seat ["A", "B"] 20 with turn := { step := .main1, active := ⟨1⟩ } }
    engine := {} }

/-- The first sorcery is at the bottom, and the second one did not get there. -/
theorem sorcery_speed_at_bottom_twoRituals :
    let start : Stack := { seats := [⟨1⟩, ⟨2⟩], active := ⟨1⟩, holder := ⟨1⟩ }
    (start.play twoRituals).items.map (·.object.name) = ["Ritual", "Whim"] ∧
      (∃ earlier call rest, twoRituals = earlier ++ call :: rest ∧
        (start.play earlier).items = [] ∧ call.table.turn.step.isMain = true) ∧
      ((start.play twoRituals).items.filter (·.object.isSorcerySpeed)).length ≤ 1 := by
  intro start
  have hplay : ∀ call ∈ twoRituals, call.operation.isPlay = true := by decide
  have hitems : (start.play twoRituals).items =
      [] ++ { id := ⟨1⟩, object := .spell ritual, controller := ⟨1⟩, targets := [] } ::
        [{ id := ⟨2⟩, object := .spell whim, controller := ⟨1⟩, targets := [] }] := by decide
  have hempty : start.items = [] := rfl
  obtain ⟨hbottom, hone⟩ := sorcery_speed_at_bottom hempty hplay
  obtain ⟨-, earlier, call, rest, hcalls, hopen, hmain, -⟩ := hbottom _ _ _ hitems rfl
  exact ⟨by decide, ⟨earlier, call, rest, hcalls, hopen, hmain⟩, hone⟩

end Stack

end CardRules
