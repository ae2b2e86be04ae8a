import CardRules.Proofs.Stack.Step
import Mathlib.Data.List.Rotate

/-!
# The priority round

A set of players who passed, a cursor and a cyclic order say the same thing three times over: going
round the table from the active player, one meets those who passed, then the holder of priority,
then those who still wait. `Stack.InRound` is this statement; every call keeps it, also one that
fails and one made in the middle of a round by somebody else.
-/

set_option autoImplicit false

namespace CardRules

namespace Stack

variable {seats : List PlayerId} {stack : Stack}

/-- The players in table order, the active player first. -/
def fromActive (stack : Stack) : List PlayerId :=
  stack.seats.rotate (stack.seats.idxOf stack.active)

/-- The players met going round the table from the active player (included) to the holder of
priority (excluded). -/
def metBeforeHolder (stack : Stack) : List PlayerId :=
  stack.fromActive.takeWhile (· != stack.holder)

/-- Going round the table from the active player, one meets those who passed, the holder of
priority, and those who still wait. -/
structure InRound (seats : List PlayerId) (waiting : List PlayerId) (stack : Stack) : Prop where
  seats_eq : stack.seats = seats
  active_mem : stack.active ∈ seats
  order : stack.fromActive = stack.passed ++ stack.holder :: waiting

/-! ## The cyclic order -/

/-- In a cyclic order the seat after a player is the next one, modulo the number of seats. -/
theorem nextSeat_eq {player : PlayerId} (h : player ∈ seats) :
    Table.nextSeat seats player = seats[(seats.idxOf player + 1) % seats.length]? := by
  have hlt : seats.idxOf player < seats.length := List.idxOf_lt_length_iff.mpr h
  unfold Table.nextSeat
  rw [if_pos (List.contains_iff_mem.mpr h)]
  show (seats[seats.idxOf player + 1]? <|> seats.head?) = _
  rcases Nat.lt_or_ge (seats.idxOf player + 1) seats.length with hnext | hlast
  · rw [Nat.mod_eq_of_lt hnext, List.getElem?_eq_getElem hnext]
    rfl
  · have hlength : seats.idxOf player + 1 = seats.length := Nat.le_antisymm hlt hlast
    rw [hlength, Nat.mod_self, List.getElem?_eq_none (Nat.le_refl _), List.head?_eq_getElem?]
    rfl

/-- Where the order is cut makes no difference to who comes after whom. -/
theorem nextSeat_of_rotate {k : Nat} {front back : List PlayerId} {player next : PlayerId}
    (hseats : seats.Nodup) (h : seats.rotate k = front ++ player :: next :: back) :
    Table.nextSeat seats player = some next := by
  have hlength : front.length + 1 < seats.length := by
    rw [← List.length_rotate seats k, h, List.length_append, List.length_cons, List.length_cons]
    omega
  have hplayer : seats[(front.length + k) % seats.length]? = some player := by
    rw [← List.getElem?_rotate (Nat.lt_of_succ_lt hlength), h, List.getElem?_append_right
      (Nat.le_refl _), Nat.sub_self]
    rfl
  have hnext : seats[(front.length + 1 + k) % seats.length]? = some next := by
    rw [← List.getElem?_rotate hlength, h, List.getElem?_append_right (Nat.le_add_right _ _),
      Nat.add_sub_cancel_left]
    rfl
  have hmem : player ∈ seats := List.mem_of_getElem? hplayer
  -- a player sits in one place only
  have hidx : seats.idxOf player = (front.length + k) % seats.length := by
    obtain ⟨hlt, hget⟩ := List.getElem?_eq_some_iff.mp hplayer
    rw [← hget]
    exact hseats.idxOf_getElem _ hlt
  rw [nextSeat_eq hmem, hidx, Nat.mod_add_mod, Nat.add_right_comm, hnext]

/-! ## Reading a round -/

theorem fromActive_of_mem (h : stack.active ∈ stack.seats) :
    ∃ others, stack.fromActive = stack.active :: others := by
  have hlt := List.idxOf_lt_length_iff.mpr h
  refine List.head?_eq_some_iff.mp ?_
  rw [fromActive, List.head?_rotate hlt, List.getElem?_idxOf h]

namespace InRound

variable {waiting : List PlayerId}

theorem nodup (h : InRound seats waiting stack) (hseats : seats.Nodup) :
    (stack.passed ++ stack.holder :: waiting).Nodup := by
  rw [← h.order, fromActive, List.nodup_rotate, h.seats_eq]
  exact hseats

theorem mem_seats_iff (h : InRound seats waiting stack) {player : PlayerId} :
    player ∈ seats ↔ player ∈ stack.passed ∨ player = stack.holder ∨ player ∈ waiting := by
  rw [← h.seats_eq, ← List.mem_rotate (n := stack.seats.idxOf stack.active), ← fromActive, h.order,
    List.mem_append, List.mem_cons]

theorem holder_mem (h : InRound seats waiting stack) : stack.holder ∈ seats :=
  h.mem_seats_iff.mpr (.inr (.inl rfl))

theorem holder_not_passed (h : InRound seats waiting stack) (hseats : seats.Nodup) :
    stack.holder ∉ stack.passed := fun hmem =>
  (List.nodup_append.mp (h.nodup hseats)).2.2 _ hmem _ List.mem_cons_self rfl

theorem not_passed_of_waiting (h : InRound seats waiting stack) (hseats : seats.Nodup)
    {player : PlayerId} (hwaiting : player ∈ waiting) : player ∉ stack.passed := fun hmem =>
  (List.nodup_append.mp (h.nodup hseats)).2.2 _ hmem _ (List.mem_cons_of_mem _ hwaiting) rfl

theorem passed_eq (h : InRound seats waiting stack) (hseats : seats.Nodup) :
    stack.passed = stack.metBeforeHolder := by
  have hbefore : ∀ player ∈ stack.passed, (player != stack.holder) = true := by
    intro player hmem
    rw [bne_iff_ne]
    rintro rfl
    exact h.holder_not_passed hseats hmem
  rw [metBeforeHolder, h.order, List.takeWhile_append_of_pos hbefore,
    List.takeWhile_cons_of_neg (by simp), List.append_nil]

/-- Nobody waits exactly if everybody but the holder has passed. -/
theorem waiting_eq_nil_iff (h : InRound seats waiting stack) (hseats : seats.Nodup) :
    waiting = [] ↔ ∀ player ∈ seats, player ≠ stack.holder → player ∈ stack.passed := by
  constructor
  · rintro rfl player hmem hother
    rcases h.mem_seats_iff.mp hmem with hpassed | hholder | hwaiting
    · exact hpassed
    · exact absurd hholder hother
    · exact absurd hwaiting List.not_mem_nil
  · intro hall
    cases waiting with
    | nil => rfl
    | cons player waiting =>
      have hwaiting : player ∈ player :: waiting := List.mem_cons_self
      have hother : player ≠ stack.holder := by
        rintro rfl
        exact (List.nodup_cons.mp (List.nodup_append.mp (h.nodup hseats)).2.1).1 hwaiting
      have hmem : player ∈ seats := h.mem_seats_iff.mpr (.inr (.inr hwaiting))
      exact absurd (hall player hmem hother) (h.not_passed_of_waiting hseats hwaiting)

theorem notePass_eq (h : InRound seats waiting stack) (hseats : seats.Nodup) :
    stack.notePass stack.holder = { stack with passed := stack.passed ++ [stack.holder] } := by
  have hnot : stack.hasPassed stack.holder = false := by
    rw [hasPassed, List.contains_eq_mem]
    exact decide_eq_false (h.holder_not_passed hseats)
  rw [notePass, hnot]
  rfl

/-- A pass of the holder completes the round exactly if nobody waits. -/
theorem allPassed_notePass_iff (h : InRound seats waiting stack) (hseats : seats.Nodup) :
    (stack.notePass stack.holder).allPassed = true ↔ waiting = [] := by
  rw [h.waiting_eq_nil_iff hseats, h.notePass_eq hseats, allPassed, h.seats_eq, List.all_eq_true]
  refine forall₂_congr fun player _ => ?_
  rw [hasPassed, List.contains_iff_mem, List.mem_append, List.mem_singleton]
  constructor
  · intro hpassed hother
    exact hpassed.resolve_right hother
  · intro hpassed
    by_cases hholder : player = stack.holder
    · exact .inr hholder
    · exact .inl (hpassed hholder)

/-- Whoever waits first is next in table order. -/
theorem nextSeat_holder {next : PlayerId} {rest : List PlayerId}
    (h : InRound seats (next :: rest) stack) (hseats : seats.Nodup) :
    Table.nextSeat seats stack.holder = some next := by
  have horder := h.order
  rw [fromActive, h.seats_eq] at horder
  exact nextSeat_of_rotate hseats horder

theorem next_holder {next : PlayerId} {rest : List PlayerId}
    (h : InRound seats (next :: rest) stack) (hseats : seats.Nodup) :
    stack.next stack.holder = next := by
  rw [Stack.next, h.seats_eq, h.nextSeat_holder hseats]
  rfl

/-- The first of those who wait gets priority, and the others still wait. -/
theorem handOn {next : PlayerId} {rest : List PlayerId} (h : InRound seats (next :: rest) stack) :
    InRound seats rest
      { stack with passed := stack.passed ++ [stack.holder], holder := next } := by
  refine ⟨h.seats_eq, h.active_mem, ?_⟩
  show stack.fromActive = (stack.passed ++ [stack.holder]) ++ next :: rest
  rw [h.order, List.append_assoc]
  rfl

end InRound

/-! ## What a call does to the round -/

theorem inRound_reset (hseats : stack.seats = seats) (hactive : stack.active ∈ seats) :
    ∃ waiting, InRound seats waiting stack.reset := by
  obtain ⟨others, hothers⟩ := fromActive_of_mem (hseats ▸ hactive)
  exact ⟨others, hseats, hactive, hothers⟩

/-- Every step keeps the round, and the passes are those that the deed leaves. -/
theorem InRound.step {waiting : List PlayerId} {operation : Operation} {deed : Deed} {after : Stack}
    (h : InRound seats waiting stack) (hseats : seats.Nodup)
    (hstep : Step stack operation deed after) :
    (∃ waiting', InRound seats waiting' after) ∧ after.passed = deed.passesAfter stack.passed := by
  cases hstep with
  | nothing kept stays => exact ⟨⟨waiting, h.seats_eq, h.active_mem, h.order⟩, rfl⟩
  | pushed kept number fresh stays => exact ⟨inRound_reset h.seats_eq h.active_mem, rfl⟩
  | resolved shape kept leaves => exact ⟨inRound_reset h.seats_eq h.active_mem, rfl⟩
  | roundOver empty stays => exact ⟨inRound_reset h.seats_eq h.active_mem, rfl⟩
  | madeActive seated stays => exact ⟨inRound_reset h.seats_eq (h.seats_eq ▸ seated), rfl⟩
  | handedOn seated notAll stays =>
    cases waiting with
    | nil =>
      rw [(h.allPassed_notePass_iff hseats).mpr rfl] at notAll
      exact absurd notAll (by simp)
    | cons next rest =>
      rw [h.notePass_eq hseats, h.next_holder hseats]
      exact ⟨⟨rest, h.handOn⟩, rfl⟩

theorem inRound_seat {active : PlayerId} (hstart : seat seats active = .ok stack) :
    ∃ waiting, InRound seats waiting stack := by
  obtain ⟨hmem, rfl⟩ := seat_eq_ok_iff.mp hstart
  exact inRound_reset (show ({ seats, active, holder := active } : Stack).seats = seats from rfl)
    hmem

/-- Every state that calls can lead to is in a round, and those who passed are those who passed
since the last reset according to what was done. -/
theorem inRound_play {active : PlayerId} {start : Stack} (hseats : seats.Nodup)
    (hstart : seat seats active = .ok start) (calls : List Call) :
    (∃ waiting, InRound seats waiting (start.play calls)) ∧
      (start.play calls).passed = Deed.passes (start.deeds calls) := by
  induction calls using List.reverseRecOn with
  | nil =>
    refine ⟨inRound_seat hstart, ?_⟩
    obtain ⟨-, rfl⟩ := seat_eq_ok_iff.mp hstart
    rfl
  | append_singleton calls call ih =>
    obtain ⟨⟨waiting, hround⟩, hpassed⟩ := ih
    rw [play_append_singleton, deeds_append_singleton, Deed.passes_append_singleton, ← hpassed]
    exact hround.step hseats (call.step (start.play calls))

/-! ## Passing in a round -/

/-- In a round, the pass of the holder is the end of it exactly if everybody else has passed: then
the top item resolves, or on an empty stack the round starts over. Otherwise the next player in
table order gets priority. -/
theorem InRound.outcome_pass {waiting : List PlayerId} {scene : Scene}
    (h : InRound seats waiting scene.stack) (hseats : seats.Nodup) :
    if ∀ player ∈ seats, player ≠ scene.stack.holder → player ∈ scene.stack.passed then
      (Scene.pass scene.stack.holder).outcome scene =
        if scene.stack.items = [] then (.ok .stackEmpty, { scene with stack := scene.stack.reset })
        else ((Scene.resolveTop.outcome scene).1.map .resolved, (Scene.resolveTop.outcome scene).2)
    else ∃ next, seats[(seats.idxOf scene.stack.holder + 1) % seats.length]? = some next ∧
      (Scene.pass scene.stack.holder).outcome scene = (.ok (.passed next), { scene with
        stack := { scene.stack with
          passed := scene.stack.passed ++ [scene.stack.holder], holder := next } }) := by
  have hholder : scene.stack.holder ∈ scene.stack.seats := h.seats_eq ▸ h.holder_mem
  have hpass := Scene.outcome_pass scene hholder
  split
  · rename_i hall
    have hnone := (h.waiting_eq_nil_iff hseats).mpr hall
    rw [if_pos ((h.allPassed_notePass_iff hseats).mpr hnone)] at hpass
    rw [hpass]
    by_cases hitems : scene.stack.items = []
    · rw [if_pos hitems, if_pos (List.isEmpty_iff.mpr hitems)]
    · rw [if_neg hitems, if_neg (mt List.isEmpty_iff.mp hitems)]
  · rename_i hnotAll
    have hsome : waiting ≠ [] := mt (h.waiting_eq_nil_iff hseats).mp hnotAll
    obtain ⟨next, rest, rfl⟩ := List.exists_cons_of_ne_nil hsome
    refine ⟨next, ?_, ?_⟩
    · rw [← nextSeat_eq h.holder_mem, h.nextSeat_holder hseats]
    · rw [hpass, if_neg (mt (h.allPassed_notePass_iff hseats).mp hsome), h.notePass_eq hseats,
        h.next_holder hseats]

/-- Priority rounds. Whatever calls are made on a stack of distinct players, those who passed are
the players met going round the table from the active player to the holder of priority, and they
are those who passed since the last reset. Hence a pass of the holder, at any table and with any
engine, resolves the top item or finds the stack empty exactly when every other player has passed
since the last reset, and otherwise hands priority to the next player in table order. -/
theorem priority_rounds {active : PlayerId} {start : Stack} (hseats : seats.Nodup)
    (hstart : seat seats active = .ok start) (calls : List Call) :
    (start.play calls).seats = seats ∧
      (start.play calls).passed = (start.play calls).metBeforeHolder ∧
      (start.play calls).holder ∈ seats ∧
      (start.play calls).hasPassed (start.play calls).holder = false ∧
      (start.play calls).passed = Deed.passes (start.deeds calls) ∧
      ∀ scene : Scene, scene.stack = start.play calls →
        if ∀ player ∈ seats, player ≠ scene.stack.holder →
            player ∈ Deed.passes (start.deeds calls) then
          (Scene.pass scene.stack.holder).outcome scene =
            if scene.stack.items = [] then
              (.ok .stackEmpty, { scene with stack := scene.stack.reset })
            else
              ((Scene.resolveTop.outcome scene).1.map .resolved, (Scene.resolveTop.outcome scene).2)
        else ∃ next, seats[(seats.idxOf scene.stack.holder + 1) % seats.length]? = some next ∧
          (Scene.pass scene.stack.holder).outcome scene = (.ok (.passed next), { scene with
            stack := { scene.stack with
              passed := scene.stack.passed ++ [scene.stack.holder], holder := next } }) := by
  obtain ⟨⟨waiting, hround⟩, hpassed⟩ := inRound_play hseats hstart calls
  refine ⟨hround.seats_eq, hround.passed_eq hseats, hround.holder_mem, ?_, hpassed, ?_⟩
  · rw [hasPassed, List.contains_eq_mem]
    exact decide_eq_false (hround.holder_not_passed hseats)
  · intro scene hscene
    rw [← hscene] at hround hpassed
    rw [← hpassed]
    exact hround.outcome_pass hseats

/-- Three players, the second one active. -/
def threeSeats : Stack := { seats := [⟨1⟩, ⟨2⟩, ⟨3⟩], active := ⟨2⟩, holder := ⟨2⟩ }

/-- A pass, then a new item halfway through the round, then two passes. -/
def interruptedRound : List Call :=
  [.pass ⟨2⟩, .push default ⟨3⟩ [] none, .pass ⟨2⟩, .pass ⟨3⟩].map fun operation =>
    { operation, table := .seat [] 0, engine := {} }

/-- The first pass is forgotten, and the third player's pass leaves the first one with priority. -/
theorem priority_rounds_interrupted :
    (threeSeats.play interruptedRound).passed = [⟨2⟩, ⟨3⟩] ∧
      (threeSeats.play interruptedRound).metBeforeHolder = [⟨2⟩, ⟨3⟩] ∧
      Deed.passes (threeSeats.deeds interruptedRound) = [⟨2⟩, ⟨3⟩] ∧
      (Scene.pass ⟨1⟩).outcome
          { table := .seat [] 0, engine := {}, stack := threeSeats.play interruptedRound } =
        ((Scene.resolveTop.outcome
            { table := .seat [] 0, engine := {}, stack := threeSeats.play interruptedRound }).1.map
          .resolved,
        (Scene.resolveTop.outcome
          { table := .seat [] 0, engine := {}, stack := threeSeats.play interruptedRound }).2) := by
  have hstart : seat [⟨1⟩, ⟨2⟩, ⟨3⟩] ⟨2⟩ = .ok threeSeats := rfl
  obtain ⟨-, hmet, -, -, hpassed, hpass⟩ := priority_rounds (by decide) hstart interruptedRound
  have hstate : (threeSeats.play interruptedRound).passed = [⟨2⟩, ⟨3⟩] := by decide
  have hend := hpass { table := .seat [] 0, engine := {}, stack := threeSeats.play interruptedRound } rfl
  rw [← hpassed, if_pos (by decide)] at hend
  refine ⟨hstate, hmet ▸ hstate, hpassed ▸ hstate, hend.trans ?_⟩
  exact if_neg (by decide)

end Stack

end CardRules
