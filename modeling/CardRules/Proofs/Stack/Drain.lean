import CardRules.Proofs.Stack.Discipline
import CardRules.Proofs.Stack.Round
import Mathlib.Order.Bounds.Defs

/-!
# Passing drains the stack

If nobody does anything but pass, one item leaves per round. Time is counted in passes. The round in
progress lasts as many passes as there are players who have not passed yet, and each later one as
many as there are players, whatever the items do when they resolve: `Stack.roundEnd`. A loop of
passes ends for that reason.

The run is a sequence of scenes of which only the stack is handed on (`Stack.Passing`). The table and
the engine may be any others at each pass, so in particular those that the passes themselves lead to.
-/

set_option autoImplicit false

namespace CardRules

namespace Scene

/-- What comes of a pass by whoever holds priority. -/
def passOn (scene : Scene) : Except Fault PassOutcome × Scene :=
  (pass scene.stack.holder).outcome scene

/-- The game after some passes, each by whoever holds priority then. -/
def afterPasses (scene : Scene) (count : Nat) : Scene := (fun scene => scene.passOn.2)^[count] scene

end Scene

namespace Stack

open Scene (passOn)

variable {seats : List PlayerId}

/-- In each scene the holder of priority passes, and the next one goes on with the stack that this
leaves. -/
def Passing (scenes : Nat → Scene) : Prop :=
  ∀ m, (scenes (m + 1)).stack = (scenes m).passOn.2.stack

/-- The number of the pass that ends the round in progress (`i = 0`) or the `i`-th round after it,
where passes are counted from here, the next one being number 1. -/
def roundEnd (stack : Stack) (i : Nat) : Nat :=
  (stack.seats.length - stack.passed.length) + stack.seats.length * i

/-! ## One pass -/

namespace InRound

variable {scene : Scene}

theorem length_eq {stack : Stack} {waiting : List PlayerId} (h : InRound seats waiting stack) :
    stack.passed.length + 1 + waiting.length = seats.length := by
  have hlength := congrArg List.length h.order
  rw [fromActive, List.length_rotate, h.seats_eq, List.length_append, List.length_cons] at hlength
  omega

theorem passOn_waiting {next : PlayerId} {rest : List PlayerId}
    (h : InRound seats (next :: rest) scene.stack) (hseats : seats.Nodup) :
    scene.passOn = (.ok (.passed next), { scene with
      stack := { scene.stack with
        passed := scene.stack.passed ++ [scene.stack.holder], holder := next } }) := by
  have hwaiting := mt (h.allPassed_notePass_iff hseats).mp (List.cons_ne_nil next rest)
  rw [passOn, Scene.outcome_pass scene (h.seats_eq ▸ h.holder_mem), if_neg hwaiting,
    h.notePass_eq hseats, h.next_holder hseats]

theorem passOn_last (h : InRound seats [] scene.stack) (hseats : seats.Nodup) :
    scene.passOn = if scene.stack.items.isEmpty then
        (.ok .stackEmpty, { scene with stack := scene.stack.reset })
      else ((Scene.resolveTop.outcome scene).1.map .resolved, (Scene.resolveTop.outcome scene).2) := by
  rw [passOn, Scene.outcome_pass scene (h.seats_eq ▸ h.holder_mem),
    if_pos ((h.allPassed_notePass_iff hseats).mpr rfl)]

end InRound

/-! ## The state of the run -/

/-- Since the round at the start of the run began there were so many passes and so many whole
rounds, and each round took one of the items. -/
structure Drained (seats : List PlayerId) (ids : List ItemId) (passes rounds : Nat) (stack : Stack) :
    Prop where
  round : ∃ waiting, InRound seats waiting stack
  passes_eq : passes = seats.length * rounds + stack.passed.length
  left : stack.ids = ids.take (ids.length - rounds)

namespace Drained

variable {ids : List ItemId} {passes rounds : Nat} {scene : Scene}

theorem passed_lt {stack : Stack} (h : Drained seats ids passes rounds stack) :
    stack.passed.length < seats.length := by
  obtain ⟨waiting, hround⟩ := h.round
  have hlength := hround.length_eq
  omega

theorem length_items {stack : Stack} (h : Drained seats ids passes rounds stack) :
    stack.items.length = ids.length - rounds := by
  have hlength := congrArg List.length h.left
  rw [Stack.ids, List.length_map, List.length_take] at hlength
  omega

theorem isEmpty_iff {stack : Stack} (h : Drained seats ids passes rounds stack) :
    stack.items.isEmpty = true ↔ ids.length ≤ rounds := by
  rw [List.isEmpty_iff_length_eq_zero, h.length_items]
  omega

/-- The end of a round takes the top item, if there is one, and nobody has passed after it. -/
theorem round_over (h : Drained seats ids passes rounds scene.stack)
    (hround : InRound seats [] scene.stack) (hseats : seats.Nodup) :
    Drained seats ids (passes + 1) (rounds + 1) scene.passOn.2.stack := by
  have hpassed := hround.length_eq
  have hcount := h.passes_eq
  have hrounds : seats.length * (rounds + 1) = seats.length * rounds + seats.length := Nat.mul_succ _ _
  have hreset {stack : Stack} (hseated : stack.seats = seats) (hactive : stack.active ∈ seats)
      (hleft : stack.ids = ids.take (ids.length - (rounds + 1))) :
      Drained seats ids (passes + 1) (rounds + 1) stack.reset := by
    refine ⟨inRound_reset hseated hactive, ?_, hleft⟩
    show passes + 1 = seats.length * (rounds + 1) + 0
    rw [List.length_nil] at hpassed
    omega
  rw [hround.passOn_last hseats]
  split
  · rename_i hempty
    refine hreset hround.seats_eq hround.active_mem ?_
    have hover := h.isEmpty_iff.mp hempty
    rw [h.left, Nat.sub_eq_zero_of_le hover, Nat.sub_eq_zero_of_le (Nat.le_succ_of_le hover)]
  · rename_i hitems
    rcases Scene.resolveTop_cases scene with ⟨hnone, -⟩ | ⟨rest, top, items, hshape, hkept, hstack⟩
    · exact absurd (List.isEmpty_iff.mpr hnone) hitems
    · dsimp only
      rw [hstack]
      refine hreset hround.seats_eq hround.active_mem ?_
      -- the marks that the resolution may have left do not change the numbers
      show items.map (·.id) = _
      have hleft := h.left
      rw [Stack.ids, hshape, List.map_append, List.map_singleton] at hleft
      have hsome := mt h.isEmpty_iff.mpr hitems
      have hdropped := congrArg List.dropLast hleft
      rw [List.dropLast_concat, List.dropLast_eq_take, List.take_take, List.length_take] at hdropped
      rw [hkept.ids, hdropped]
      congr 1
      omega

/-- Every pass hands priority on or ends a round. -/
theorem pass (h : Drained seats ids passes rounds scene.stack) (hseats : seats.Nodup) :
    ∃ rounds', Drained seats ids (passes + 1) rounds' scene.passOn.2.stack := by
  obtain ⟨waiting, hround⟩ := h.round
  cases waiting with
  | nil => exact ⟨rounds + 1, h.round_over hround hseats⟩
  | cons next rest =>
    refine ⟨rounds, ?_⟩
    rw [hround.passOn_waiting hseats]
    refine ⟨⟨rest, hround.handOn⟩, ?_, h.left⟩
    show passes + 1 = seats.length * rounds + (scene.stack.passed ++ [scene.stack.holder]).length
    rw [h.passes_eq, List.length_append, List.length_singleton, Nat.add_assoc]

theorem answer_last (h : Drained seats ids passes rounds scene.stack) (hseats : seats.Nodup)
    (hlast : scene.stack.passed.length + 1 = seats.length) :
    scene.passOn.1 = if scene.stack.items.isEmpty then .ok .stackEmpty
      else (Scene.resolveTop.outcome scene).1.map .resolved := by
  obtain ⟨waiting, hround⟩ := h.round
  have hlength := hround.length_eq
  obtain rfl : waiting = [] := List.length_eq_zero_iff.mp (by omega)
  rw [hround.passOn_last hseats]
  split
  · rfl
  · rfl

theorem answer_waiting (h : Drained seats ids passes rounds scene.stack) (hseats : seats.Nodup)
    (hnotLast : scene.stack.passed.length + 1 ≠ seats.length) :
    ∃ next, scene.passOn.1 = .ok (.passed next) := by
  obtain ⟨waiting, hround⟩ := h.round
  cases waiting with
  | nil => exact absurd hround.length_eq hnotLast
  | cons next rest => exact ⟨next, by rw [hround.passOn_waiting hseats]⟩

end Drained

/-- At every point of a run of passes the state is known, but for the effects of what resolved. -/
theorem drained_passing {waiting : List PlayerId} {scenes : Nat → Scene} (hseats : seats.Nodup)
    (hround : InRound seats waiting (scenes 0).stack) (hpassing : Passing scenes) (m : Nat) :
    ∃ rounds, Drained seats (scenes 0).stack.ids ((scenes 0).stack.passed.length + m) rounds
      (scenes m).stack := by
  induction m with
  | zero =>
    refine ⟨0, ⟨waiting, hround⟩, ?_, ?_⟩
    · rw [Nat.mul_zero, Nat.zero_add, Nat.add_zero]
    · rw [Nat.sub_zero, List.take_length]
  | succ m ih =>
    obtain ⟨rounds, hdrained⟩ := ih
    rw [hpassing m]
    exact hdrained.pass hseats

/-! ## When a round ends -/

section RoundEnd

variable {first : Stack} {ids : List ItemId} {m rounds : Nat}

theorem roundEnd_pos (hfirst : first.seats = seats) (hpassed : first.passed.length < seats.length)
    (i : Nat) : 0 < first.roundEnd i := by
  rw [roundEnd, hfirst]
  omega

theorem roundEnd_le_roundEnd (stack : Stack) {i j : Nat} (h : i ≤ j) :
    stack.roundEnd i ≤ stack.roundEnd j :=
  Nat.add_le_add_left (Nat.mul_le_mul_left stack.seats.length h) _

/-- Too few passes to end the round `i` are those after which no more than `i` rounds have ended. -/
theorem lt_roundEnd_iff {stack : Stack} (hfirst : first.seats = seats)
    (hpassed : first.passed.length < seats.length)
    (h : Drained seats ids (first.passed.length + m) rounds stack) (i : Nat) :
    m < first.roundEnd i ↔ rounds ≤ i := by
  have hcount := h.passes_eq
  have hstill := h.passed_lt
  rw [roundEnd, hfirst]
  constructor
  · intro hlt
    by_contra hmore
    have := Nat.mul_le_mul_left seats.length (Nat.lt_of_not_le hmore)
    rw [Nat.mul_succ] at this
    omega
  · intro hle
    have := Nat.mul_le_mul_left seats.length hle
    omega

/-- The next pass ends the round `i` exactly if so many rounds have ended and all players but the
holder have passed. -/
theorem succ_eq_roundEnd_iff {stack : Stack} (hfirst : first.seats = seats)
    (hpassed : first.passed.length < seats.length)
    (h : Drained seats ids (first.passed.length + m) rounds stack) (i : Nat) :
    m + 1 = first.roundEnd i ↔ rounds = i ∧ stack.passed.length + 1 = seats.length := by
  have hcount := h.passes_eq
  have hstill := h.passed_lt
  have hbefore := lt_roundEnd_iff hfirst hpassed h i
  rw [roundEnd, hfirst] at hbefore ⊢
  constructor
  · intro heq
    have hle : rounds ≤ i := hbefore.mp (by omega)
    obtain hlt | rfl := Nat.lt_or_eq_of_le hle
    · have := Nat.mul_le_mul_left seats.length hlt
      rw [Nat.mul_succ] at this
      omega
    · exact ⟨rfl, by omega⟩
  · rintro ⟨rfl, hlast⟩
    omega

/-- The stack is found empty on exactly the passes that end a round after the last item. -/
theorem answer_eq_stackEmpty_iff {scene : Scene} (hseats : seats.Nodup) (hfirst : first.seats = seats)
    (hpassed : first.passed.length < seats.length)
    (h : Drained seats ids (first.passed.length + m) rounds scene.stack) :
    scene.passOn.1 = .ok .stackEmpty ↔ ids.length ≤ rounds ∧ m + 1 = first.roundEnd rounds := by
  rw [succ_eq_roundEnd_iff hfirst hpassed h, ← h.isEmpty_iff]
  by_cases hlast : scene.stack.passed.length + 1 = seats.length
  · rw [h.answer_last hseats hlast]
    by_cases hempty : scene.stack.items.isEmpty = true
    · rw [if_pos hempty]
      exact ⟨fun _ => ⟨hempty, rfl, hlast⟩, fun _ => rfl⟩
    · rw [if_neg hempty]
      refine ⟨fun hanswer => ?_, fun hand => absurd hand.1 hempty⟩
      cases hresult : (Scene.resolveTop.outcome scene).1 with
      | error fault => rw [hresult] at hanswer; simp [Except.map] at hanswer
      | ok resolution => rw [hresult] at hanswer; simp [Except.map] at hanswer
  · obtain ⟨next, hanswer⟩ := h.answer_waiting hseats hlast
    rw [hanswer]
    exact ⟨fun heq => by simp at heq, fun hand => absurd hand.2.2 hlast⟩

end RoundEnd

/-- Passing drains the stack. Whatever calls have been made on a stack of distinct players, let from
then on nobody do anything but pass while holding priority. Then what is left of the items is always
a lower part of them; an item that has `i` others above it leaves on exactly the pass that ends the
round `i`, and that pass answers what the resolution does, an error included; every other pass but
one on an empty stack hands priority on; and the first answer that the stack is empty comes on
exactly the pass that ends the round after the last item. No table and no engine, hence no effect of
an item, makes a difference to that. -/
theorem passing_drains {active : PlayerId} {start : Stack} (hseats : seats.Nodup)
    (hstart : seat seats active = .ok start) (calls : List Call) {scenes : Nat → Scene}
    (hfirst : (scenes 0).stack = start.play calls) (hpassing : Passing scenes) :
    (scenes 0).stack.seats = seats ∧ (scenes 0).stack.passed.length < seats.length ∧
      (∀ m, (scenes m).stack.ids <+: (scenes 0).stack.ids) ∧
      (∀ i < (scenes 0).stack.items.length, ∀ m,
        (scenes 0).stack.items.length - 1 - i < (scenes m).stack.items.length ↔
          m < (scenes 0).stack.roundEnd i) ∧
      (∀ i < (scenes 0).stack.items.length, ∀ m, m + 1 = (scenes 0).stack.roundEnd i →
        (scenes m).passOn.1 = (Scene.resolveTop.outcome (scenes m)).1.map .resolved) ∧
      (∀ m, (∀ i, m + 1 ≠ (scenes 0).stack.roundEnd i) →
        ∃ next, (scenes m).passOn.1 = .ok (.passed next)) ∧
      IsLeast {number | ∃ m, number = m + 1 ∧ (scenes m).passOn.1 = .ok .stackEmpty}
        ((scenes 0).stack.roundEnd (scenes 0).stack.items.length) := by
  obtain ⟨⟨waiting, hround⟩, -⟩ := inRound_play hseats hstart calls
  rw [← hfirst] at hround
  have hdrained := drained_passing hseats hround hpassing
  generalize (scenes 0).stack = first at hround hdrained ⊢
  have hitems : first.ids.length = first.items.length := List.length_map _
  have hpassed : first.passed.length < seats.length := by
    have := hround.length_eq
    omega
  refine ⟨hround.seats_eq, hpassed, fun m => ?_, fun i hi m => ?_, fun i hi m hm => ?_,
    fun m hm => ?_, ?_, ?_⟩
  · obtain ⟨rounds, hstate⟩ := hdrained m
    rw [hstate.left]
    exact List.take_prefix _ _
  · obtain ⟨rounds, hstate⟩ := hdrained m
    rw [lt_roundEnd_iff hround.seats_eq hpassed hstate, hstate.length_items]
    omega
  · obtain ⟨rounds, hstate⟩ := hdrained m
    obtain ⟨rfl, hlast⟩ := (succ_eq_roundEnd_iff hround.seats_eq hpassed hstate i).mp hm
    have hsome : ¬(scenes m).stack.items.isEmpty = true := by
      rw [hstate.isEmpty_iff]
      omega
    rw [hstate.answer_last hseats hlast, if_neg hsome]
  · obtain ⟨rounds, hstate⟩ := hdrained m
    refine hstate.answer_waiting hseats fun hlast => hm rounds ?_
    exact (succ_eq_roundEnd_iff hround.seats_eq hpassed hstate rounds).mpr ⟨rfl, hlast⟩
  · -- the pass that ends the round after the last item
    have hpos := roundEnd_pos hround.seats_eq hpassed first.items.length
    obtain ⟨m, hm⟩ := Nat.exists_eq_add_one_of_ne_zero (Nat.ne_of_gt hpos)
    obtain ⟨rounds, hstate⟩ := hdrained m
    obtain ⟨rfl, -⟩ := (succ_eq_roundEnd_iff hround.seats_eq hpassed hstate _).mp hm.symm
    exact ⟨m, hm, (answer_eq_stackEmpty_iff hseats hround.seats_eq hpassed hstate).mpr
      ⟨hitems.le, hm.symm⟩⟩
  · rintro number ⟨m, rfl, hanswer⟩
    obtain ⟨rounds, hstate⟩ := hdrained m
    obtain ⟨hempty, hend⟩ :=
      (answer_eq_stackEmpty_iff hseats hround.seats_eq hpassed hstate).mp hanswer
    rw [hend]
    exact roundEnd_le_roundEnd first (hitems ▸ hempty)

/-- Two spells, the upper of which tries something that is not implemented, and the pass of the
second of three players. -/
def twoSpells : List Call :=
  [.push (.spell { (default : Spell) with effects := [.make .gainLife 1] }) ⟨1⟩ [] none,
    .push (.spell { (default : Spell) with effects := [.make .exile 0] }) ⟨1⟩ [] none,
    .pass ⟨2⟩].map fun operation => { operation, table := .seat ["A", "B", "C"] 20, engine := {} }

/-- Two passes of the other players fail with the upper spell, three more resolve the lower one, and
the third after that finds the stack empty. -/
theorem passing_drains_failing :
    let scene : Scene := { table := .seat ["A", "B", "C"] 20, engine := {}
                           stack := threeSeats.play twoSpells }
    (scene.afterPasses 1).passOn.1 = .error (.unimplemented .exile) ∧
      (scene.afterPasses 2).stack.ids = [⟨1⟩] ∧
      (∀ m, 0 < (scene.afterPasses m).stack.items.length ↔ m < 5) ∧
      IsLeast {number | ∃ m, number = m + 1 ∧ (scene.afterPasses m).passOn.1 = .ok .stackEmpty} 8 := by
  intro scene
  have hstart : seat [⟨1⟩, ⟨2⟩, ⟨3⟩] ⟨2⟩ = .ok threeSeats := rfl
  have hfirst : (scene.afterPasses 0).stack = threeSeats.play twoSpells := rfl
  have hpassing : Passing scene.afterPasses := fun m => by
    rw [Scene.afterPasses, Function.iterate_succ_apply', Scene.afterPasses]
  obtain ⟨-, -, -, hleaves, -, -, hempty⟩ :=
    passing_drains (by decide) hstart twoSpells hfirst hpassing
  exact ⟨rfl, rfl, hleaves 1 (by decide), hempty⟩

end Stack

end CardRules
