import CardRules.Proofs.Stack.Step
import Mathlib.Data.List.Range
import Mathlib.Data.List.Perm.Basic

/-!
# The discipline of the stack

Items are numbered in the order they come, and the last to come is the first to leave. The
invariant `Stack.Numbered` ties the stack to its history: the numbers on it increase towards the
top, stay below the next one, and together with the numbers of the items that left are all the
numbers ever given, each once.

Numbers are words, so all of this holds as long as the next number does not overflow.
-/

set_option autoImplicit false

namespace CardRules

namespace Stack

/-- The numbers of the items, bottom first. -/
def ids (stack : Stack) : List ItemId := stack.items.map (·.id)

/-- The items that an operation lets stay: all of them, or all but the top one. -/
def staying (stack : Stack) (operation : Operation) : List StackItem :=
  if stack.resolves operation then stack.items.dropLast else stack.items

/-- The stack is numbered as its history tells. -/
structure Numbered (deeds : List Deed) (stack : Stack) : Prop where
  increasing : stack.ids.Pairwise fun lower upper => lower.number < upper.number
  below : ∀ id ∈ stack.ids, id.number < stack.nextItem.number
  next : stack.nextItem.number.toNat = (Deed.arrivals deeds).length + 1
  dense : (Deed.arrivals deeds).map (·.number.toNat) = List.range' 1 (Deed.arrivals deeds).length
  once : (Deed.arrivals deeds).Perm (Deed.departures deeds ++ stack.ids)

namespace Numbered

variable {deeds : List Deed} {deed : Deed} {stack after : Stack}

theorem distinct (h : Numbered deeds stack) : stack.ids.Nodup := by
  refine h.increasing.imp fun {lower upper} hlt heq => ?_
  rw [heq] at hlt
  exact UInt32.lt_irrefl upper.number hlt

/-- An item is found under its number, and it alone. -/
theorem get?_eq_some_iff (h : Numbered deeds stack) {id : ItemId} {item : StackItem} :
    stack.get? id = some item ↔ item ∈ stack.items ∧ item.id = id :=
  StackItem.find?_id_eq_some_iff h.distinct

/-- A step after which the same numbers are on the stack. -/
theorem of_ids_eq (h : Numbered deeds stack) (hids : after.ids = stack.ids)
    (hnext : after.nextItem = stack.nextItem) (harrival : deed.pushed? = none)
    (hdeparture : deed.resolved? = none) : Numbered (deeds ++ [deed]) after := by
  have harrivals : Deed.arrivals (deeds ++ [deed]) = Deed.arrivals deeds := by
    rw [Deed.arrivals, List.filterMap_append, List.filterMap_cons_none harrival, List.filterMap_nil,
      List.append_nil, Deed.arrivals]
  have hdepartures : Deed.departures (deeds ++ [deed]) = Deed.departures deeds := by
    rw [Deed.departures, List.filterMap_append, List.filterMap_cons_none hdeparture,
      List.filterMap_nil, List.append_nil, Deed.departures]
  constructor
  · exact hids ▸ h.increasing
  · exact hids ▸ hnext ▸ h.below
  · rw [harrivals, hnext, h.next]
  · rw [harrivals, h.dense]
  · rw [harrivals, hdepartures, hids]
    exact h.once

/-- The next number is the largest so far. -/
theorem pushed (h : Numbered deeds stack) (hids : after.ids = stack.ids ++ [stack.nextItem])
    (hnext : after.nextItem = stack.nextItem.next)
    (hsmall : (Deed.arrivals deeds).length + 2 < UInt32.size) :
    Numbered (deeds ++ [.pushed stack.nextItem]) after := by
  have harrivals : Deed.arrivals (deeds ++ [.pushed stack.nextItem]) =
      Deed.arrivals deeds ++ [stack.nextItem] := by
    rw [Deed.arrivals, List.filterMap_append, Deed.arrivals]
    rfl
  have hdepartures : Deed.departures (deeds ++ [.pushed stack.nextItem]) =
      Deed.departures deeds := by
    rw [Deed.departures, List.filterMap_append]
    exact List.append_nil _
  -- the one place where the bound is needed
  have hnumber : after.nextItem.number.toNat = stack.nextItem.number.toNat + 1 := by
    rw [hnext, ItemId.next, UInt32.toNat_add, h.next]
    exact Nat.mod_eq_of_lt hsmall
  have hlt : stack.nextItem.number < after.nextItem.number := by
    rw [UInt32.lt_iff_toNat_lt, hnumber]
    exact Nat.lt_succ_self _
  constructor
  · rw [hids, List.pairwise_append]
    refine ⟨h.increasing, List.pairwise_singleton _ _, fun id hid last hlast => ?_⟩
    rw [List.mem_singleton.mp hlast]
    exact h.below id hid
  · intro id hid
    rw [hids, List.mem_append, List.mem_singleton] at hid
    rcases hid with hid | rfl
    · exact UInt32.lt_trans (h.below id hid) hlt
    · exact hlt
  · rw [harrivals, hnumber, h.next, List.length_append]
    rfl
  · rw [harrivals, List.map_append, h.dense, List.length_append, List.length_singleton,
      List.range'_concat, List.map_singleton, h.next, Nat.one_mul, Nat.add_comm]
  · rw [harrivals, hdepartures, hids, ← List.append_assoc]
    exact h.once.append_right [stack.nextItem]

/-- The largest number on the stack is the first to leave. -/
theorem resolved (h : Numbered deeds stack) {top : ItemId} (hids : stack.ids = after.ids ++ [top])
    (hnext : after.nextItem = stack.nextItem) : Numbered (deeds ++ [.resolved top]) after := by
  have harrivals : Deed.arrivals (deeds ++ [.resolved top]) = Deed.arrivals deeds := by
    rw [Deed.arrivals, List.filterMap_append]
    exact List.append_nil _
  have hdepartures : Deed.departures (deeds ++ [.resolved top]) =
      Deed.departures deeds ++ [top] := by
    rw [Deed.departures, List.filterMap_append, Deed.departures]
    rfl
  have hincreasing := h.increasing
  rw [hids, List.pairwise_append] at hincreasing
  constructor
  · exact hincreasing.1
  · intro id hid
    rw [hnext]
    exact h.below id (hids ▸ List.mem_append_left [top] hid)
  · rw [harrivals, hnext, h.next]
  · rw [harrivals, h.dense]
  · rw [harrivals, hdepartures, List.append_assoc]
    refine h.once.trans (List.Perm.append_left _ ?_)
    rw [hids]
    exact List.perm_append_comm

/-- Every step keeps the numbering, as long as the next number does not overflow. -/
theorem step {operation : Operation} (h : Numbered deeds stack)
    (hstep : Step stack operation deed after)
    (hsmall : (Deed.arrivals (deeds ++ [deed])).length + 1 < UInt32.size) :
    Numbered (deeds ++ [deed]) after := by
  cases hstep with
  | nothing kept stays => exact h.of_ids_eq kept.ids rfl rfl rfl
  | handedOn seated waiting stays => exact h.of_ids_eq rfl rfl rfl rfl
  | roundOver empty stays => exact h.of_ids_eq rfl rfl rfl rfl
  | madeActive seated stays => exact h.of_ids_eq rfl rfl rfl rfl
  | @pushed items item kept number fresh stays =>
    rw [Deed.arrivals, List.filterMap_append, List.length_append] at hsmall
    rw [number]
    refine h.pushed ?_ rfl hsmall
    show (items ++ [item]).map (·.id) = stack.ids ++ [stack.nextItem]
    rw [List.map_append, kept.ids, List.map_singleton, number, ids]
  | @resolved rest items top shape kept leaves =>
    refine h.resolved ?_ rfl
    show stack.items.map (·.id) = items.map (·.id) ++ [top.id]
    rw [shape, List.map_append, kept.ids, List.map_singleton]

end Numbered

theorem numbered_seat {seats : List PlayerId} {active : PlayerId} {start : Stack}
    (hstart : seat seats active = .ok start) : Numbered [] start := by
  obtain ⟨-, rfl⟩ := seat_eq_ok_iff.mp hstart
  exact ⟨.nil, fun id hid => absurd hid List.not_mem_nil, rfl, rfl, .nil⟩

/-- Every state that calls can lead to is numbered as what was done tells. -/
theorem numbered_play {seats : List PlayerId} {active : PlayerId} {start : Stack}
    (hstart : seat seats active = .ok start) (calls : List Call)
    (hsmall : (Deed.arrivals (start.deeds calls)).length + 1 < UInt32.size) :
    Numbered (start.deeds calls) (start.play calls) := by
  induction calls using List.reverseRecOn with
  | nil => exact numbered_seat hstart
  | append_singleton calls call ih =>
    rw [deeds_append_singleton] at hsmall ⊢
    rw [play_append_singleton]
    have hprefix : (Deed.arrivals (start.deeds calls)).length + 1 < UInt32.size := by
      rw [Deed.arrivals, List.filterMap_append, List.length_append] at hsmall
      exact Nat.lt_of_le_of_lt (Nat.succ_le_succ (Nat.le_add_right _ _)) hsmall
    exact (ih hprefix).step (call.step (start.play calls)) hsmall

end Stack

namespace Call

/-- A deed tells of a new item exactly if the answer does. -/
theorem deed_pushed? (call : Call) (stack : Stack) :
    (call.deed stack).pushed? = (call.answer stack).toOption.bind Answer.number? := by
  have hdeparture : (call.departure stack).pushed? = none := by
    unfold departure
    split
    · split
      · rfl
      · rfl
    · rfl
  rcases hanswer : call.answer stack with fault | answer
  · rw [deed_of_error hanswer, hdeparture]
    rfl
  · show _ = answer.number?
    cases hnumber : answer.number? with
    | some id =>
      obtain rfl := Answer.eq_item_of_number? hnumber
      rw [deed_of_item hanswer]
      rfl
    | none =>
      unfold deed
      rw [hanswer]
      split
      · rename_i id hitem
        obtain rfl := Except.ok.inj hitem
        simp [Answer.number?] at hnumber
      · rfl
      · rfl
      · rfl
      · exact hdeparture

end Call

namespace Stack

/-- The items after a step are those that stay, with marks, and under a new one if one came. -/
theorem Step.items_after {stack after : Stack} {operation : Operation} {deed : Deed}
    (hstep : Step stack operation deed after) (hdistinct : stack.ids.Nodup) :
    ∃ kept new, StackItem.Marks (stack.staying operation) kept ∧ after.items = kept ++ new ∧
      new.map (·.id) = deed.pushed?.toList ∧
      ∀ item ∈ new, item.id = stack.nextItem ∧ item.countered = false := by
  have hall {items : List StackItem} (kept : StackItem.Kept stack.items items)
      (stays : stack.resolves operation = false) :
      StackItem.Marks (stack.staying operation) items := by
    rw [staying, stays]
    exact kept.marks hdistinct
  cases hstep with
  | @nothing items kept stays =>
    exact ⟨items, [], hall kept stays, (List.append_nil _).symm, rfl, by simp⟩
  | @pushed items item kept number fresh stays =>
    refine ⟨items, [item], hall kept stays, rfl, rfl, fun other hother => ?_⟩
    rw [List.mem_singleton.mp hother]
    exact ⟨number, fresh⟩
  | @resolved rest items top shape kept leaves =>
    refine ⟨items, [], ?_, (List.append_nil _).symm, rfl, by simp⟩
    rw [staying, leaves, if_pos rfl, shape, List.dropLast_concat]
    rw [ids, shape, List.map_append] at hdistinct
    exact kept.marks (List.nodup_append.mp hdistinct).1
  | handedOn seated waiting stays =>
    exact ⟨_, [], hall (.refl _) stays, (List.append_nil _).symm, rfl, by simp⟩
  | roundOver empty stays =>
    exact ⟨_, [], hall (.refl _) stays, (List.append_nil _).symm, rfl, by simp⟩
  | madeActive seated stays =>
    exact ⟨_, [], hall (.refl _) stays, (List.append_nil _).symm, rfl, by simp⟩

/-- Stack discipline. Whatever calls are made, as long as the next number does not overflow: the
numbers on the stack increase from bottom to top and stay below the next one, and a number leads to
the one item that carries it. The numbers given are 1, 2, 3 and so on; each of them is either on
the stack or has left it, once. The next call, whatever it is and whether it succeeds or fails,
lets every item stay but the top one if the call is a resolution; those that stay only have spells
among them marked as countered; and an item comes on top exactly if the call answers its number. -/
theorem stack_discipline {seats : List PlayerId} {active : PlayerId} {start : Stack}
    (hstart : seat seats active = .ok start) (calls : List Call)
    (hsmall : (Deed.arrivals (start.deeds calls)).length + 1 < UInt32.size) :
    (start.play calls).items.Pairwise (fun lower upper => lower.id.number < upper.id.number) ∧
      (∀ item ∈ (start.play calls).items,
        item.id.number < (start.play calls).nextItem.number) ∧
      (∀ id item, (start.play calls).get? id = some item ↔
        item ∈ (start.play calls).items ∧ item.id = id) ∧
      (Deed.arrivals (start.deeds calls)).map (·.number.toNat) =
        List.range' 1 (Deed.arrivals (start.deeds calls)).length ∧
      (Deed.arrivals (start.deeds calls)).Perm
        (Deed.departures (start.deeds calls) ++ (start.play calls).items.map (·.id)) ∧
      ∀ call : Call, ∃ kept new,
        StackItem.Marks ((start.play calls).staying call.operation) kept ∧
        (call.after (start.play calls)).items = kept ++ new ∧
        new.map (·.id) =
          ((call.answer (start.play calls)).toOption.bind Answer.number?).toList ∧
        ∀ item ∈ new, item.id = (start.play calls).nextItem ∧ item.countered = false := by
  have hnumbered := numbered_play hstart calls hsmall
  have hincreasing := hnumbered.increasing
  rw [ids, List.pairwise_map] at hincreasing
  refine ⟨hincreasing, ?_, fun id item => hnumbered.get?_eq_some_iff,
    hnumbered.dense, hnumbered.once, fun call => ?_⟩
  · intro item hitem
    exact hnumbered.below item.id (List.mem_map_of_mem hitem)
  · rw [← call.deed_pushed?]
    exact (call.step (start.play calls)).items_after hnumbered.distinct

/-- Two spells and an ability between them; a spell is countered, the ability cannot be; one item
resolves. -/
def threePushes : List Call :=
  [.push (.spell default) ⟨1⟩ [] none, .push (.ability default) ⟨2⟩ [] none,
    .push (.spell default) ⟨1⟩ [] none, .counter ⟨1⟩ ⟨2⟩, .counter ⟨2⟩ ⟨1⟩, .resolveTop].map
    fun operation => { operation, table := .seat [] 0, engine := {} }

/-- The last spell has left, the first one is marked, and the ability is as it was. -/
theorem stack_discipline_countered :
    let start : Stack := { seats := [⟨1⟩, ⟨2⟩], active := ⟨1⟩, holder := ⟨1⟩ }
    Deed.arrivals (start.deeds threePushes) = [⟨1⟩, ⟨2⟩, ⟨3⟩] ∧
      Deed.departures (start.deeds threePushes) = [⟨3⟩] ∧
      (start.play threePushes).items.map (fun item => (item.id.number, item.countered)) =
        [(1, true), (2, false)] ∧
      (start.play threePushes).items.Pairwise (fun lower upper => lower.id.number < upper.id.number) ∧
      ∃ kept new,
        StackItem.Marks ((start.play threePushes).items.dropLast) kept ∧
        (Call.after { operation := .resolveTop, table := .seat [] 0, engine := {} }
          (start.play threePushes)).items = kept ++ new := by
  intro start
  have hsmall : (Deed.arrivals (start.deeds threePushes)).length + 1 < UInt32.size := by decide
  have hstart : seat [⟨1⟩, ⟨2⟩] ⟨1⟩ = .ok start := rfl
  obtain ⟨hincreasing, -, -, -, -, hnext⟩ := stack_discipline hstart threePushes hsmall
  obtain ⟨kept, new, hmarks, hitems, -, -⟩ :=
    hnext { operation := .resolveTop, table := .seat [] 0, engine := {} }
  exact ⟨by decide, by decide, by decide, hincreasing, kept, new, hmarks, hitems⟩

end Stack

end CardRules
