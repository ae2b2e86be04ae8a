import CardRules.Stack.Play

/-!
# Runs of calls

What can be asked of a stack, as data: `Operation` lists the moves of players and of the driver of
the turn. Each is carried out with a table and an engine at hand, and these may change in any way
between one call and the next; a `Call` therefore brings its own. `Stack.play` is the stack after a
list of calls, succeeding or failing.

A `Deed` is what a call has done, read off from outside: from what was asked, from the answer, and
from whether an item is missing afterwards. Nothing in it looks at the passes that the stack itself
keeps, so a history of deeds is a second account of the round to hold the stack against.
-/

set_option autoImplicit false

namespace CardRules

/-- What can be asked of a stack. -/
inductive Operation where
  | push (object : StackObject) (controller : PlayerId) (targets : List Choice) (x : Option UInt32)
  | pushTriggered (ability : Ability) (controller : PlayerId) (targets : List Choice)
  | pass (player : PlayerId)
  | resolveTop
  | counter (item : ItemId) (player : PlayerId)
  | cast (spell : Spell) (player : PlayerId) (targets : List Choice) (x : Option UInt32)
      (lenient : Bool)
  | activate (id : AbilityId) (player : PlayerId) (targets : List Choice) (decision : Decision)
  | setActive (player : PlayerId)

/-- What an operation answers. -/
inductive Answer where
  /-- The number of a new item on the stack. -/
  | item (id : ItemId)
  | passed (outcome : PassOutcome)
  | resolution (resolution : Resolution)
  | done
deriving DecidableEq, Repr

/-- The number of the new item, if the answer is one. -/
def Answer.number? : Answer → Option ItemId
  | item id => some id
  | _ => none

theorem Answer.eq_item_of_number? {answer : Answer} {id : ItemId}
    (h : answer.number? = some id) : answer = .item id := by
  cases answer with
  | item id' => rw [Option.some.inj h]
  | _ => simp [number?] at h

namespace Operation

/-- The operation as a move in a whole game. -/
def perform : Operation → Scene.Move Answer
  | push object controller targets x => .item <$> Scene.push object controller targets x
  | pushTriggered ability controller targets =>
    .item <$> Scene.pushTriggered ability controller targets
  | pass player => .passed <$> Scene.pass player
  | resolveTop => .resolution <$> Scene.resolveTop
  | counter item player => (fun _ => .done) <$> Scene.counter item player
  | cast spell player targets x lenient => .item <$> Scene.cast spell player targets x lenient
  | activate id player targets decision =>
    (fun id? => id?.elim .done .item) <$> Scene.activate id player targets decision
  | setActive player => (fun _ => .done) <$> Scene.setActive player

end Operation

/-- An operation with the table and the engine it is carried out with. -/
structure Call where
  operation : Operation
  table : Table
  engine : Engine

/-- What a call has done to a stack. -/
inductive Deed where
  /-- Nothing that the order of items or the round would show. -/
  | nothing
  /-- A new item came on top. -/
  | pushed (item : ItemId)
  /-- The top item left. -/
  | resolved (item : ItemId)
  /-- A player passed and another one has priority. -/
  | handedOn (player : PlayerId)
  /-- Everybody passed on an empty stack. -/
  | roundOver
  /-- Another player became active. -/
  | madeActive (player : PlayerId)
deriving DecidableEq, Repr

namespace Call

variable (call : Call) (stack : Stack)

/-- The scene a call is carried out in. -/
def scene : Scene := { table := call.table, engine := call.engine, stack }

/-- The call carried out on a stack. -/
def run : Run Scene Answer := call.operation.perform (call.scene stack)

/-- What the call answers. -/
def answer : Except Fault Answer := (call.run stack).result

/-- The stack after the call. -/
def after : Stack := (call.run stack).state.stack

/-- The item that has left the stack, if one has: then it was the top item that resolved. -/
def departure : Deed :=
  match stack.top? with
  | some top => if (call.after stack).items.length < stack.items.length then .resolved top.id
      else .nothing
  | none => .nothing

/-- What the call has done. -/
def deed : Deed :=
  match call.answer stack, call.operation with
  | .ok (.item id), _ => .pushed id
  | .ok (.passed (.passed _)), .pass player => .handedOn player
  | .ok (.passed .stackEmpty), .pass _ => .roundOver
  | .ok _, .setActive player => .madeActive player
  | _, _ => call.departure stack

end Call

namespace Stack

theorem seat_eq_ok_iff {seats : List PlayerId} {active : PlayerId} {start : Stack} :
    seat seats active = .ok start ↔
      active ∈ seats ∧ start = { seats, active, holder := active } := by
  unfold seat
  by_cases hmem : seats.contains active = true
  · rw [if_pos hmem, Except.ok.injEq, eq_comm]
    exact ⟨fun h => ⟨List.contains_iff_mem.mp hmem, h⟩, fun h => h.2⟩
  · rw [if_neg hmem]
    exact ⟨fun h => by simp at h, fun h => absurd (List.contains_iff_mem.mpr h.1) hmem⟩

/-- The stack after some calls. -/
def play (stack : Stack) (calls : List Call) : Stack :=
  calls.foldl (fun stack call => call.after stack) stack

/-- What some calls have done, one after the other. -/
def deeds (stack : Stack) : List Call → List Deed
  | [] => []
  | call :: calls => call.deed stack :: (call.after stack).deeds calls

theorem play_append_singleton (stack : Stack) (calls : List Call) (call : Call) :
    stack.play (calls ++ [call]) = call.after (stack.play calls) := by
  rw [play, List.foldl_append]
  rfl

theorem deeds_append_singleton (stack : Stack) (calls : List Call) (call : Call) :
    stack.deeds (calls ++ [call]) = stack.deeds calls ++ [call.deed (stack.play calls)] := by
  induction calls generalizing stack with
  | nil => rfl
  | cons first calls ih =>
    rw [List.cons_append, deeds, ih]
    rfl

end Stack

namespace Deed

/-- Who has passed after a deed, if some have passed before: a new item, a resolution, the end of a
round and a new active player each forget the passes before. -/
def passesAfter (passed : List PlayerId) : Deed → List PlayerId
  | nothing => passed
  | handedOn player => passed ++ [player]
  | pushed _ | resolved _ | roundOver | madeActive _ => []

/-- The players who passed since the last reset, according to a history of deeds. -/
def passes : List Deed → List PlayerId := List.foldl passesAfter []

theorem passes_append_singleton (deeds : List Deed) (deed : Deed) :
    passes (deeds ++ [deed]) = deed.passesAfter (passes deeds) := by
  rw [passes, List.foldl_append]
  rfl

/-- The number of a new item, if there is one. -/
def pushed? : Deed → Option ItemId
  | pushed item => some item
  | _ => none

/-- The number of the item that left, if one did. -/
def resolved? : Deed → Option ItemId
  | resolved item => some item
  | _ => none

/-- The numbers of the items that came, in order. -/
def arrivals (deeds : List Deed) : List ItemId := deeds.filterMap pushed?

/-- The numbers of the items that left, in order. -/
def departures (deeds : List Deed) : List ItemId := deeds.filterMap resolved?

end Deed

end CardRules
