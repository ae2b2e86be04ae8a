import CardRules.Stack.Item
import CardRules.Table

/-!
# The stack and priority

Items wait on the stack, top last. One player holds priority; the players who passed since the
last reset are remembered. A reset forgets the passes and hands priority to the active player.
-/

set_option autoImplicit false

namespace CardRules

/-- The stack and the state of the priority round. -/
structure Stack where
  /-- The items, bottom first. -/
  items : List StackItem := []
  /-- The players in table order. -/
  seats : List PlayerId
  active : PlayerId
  holder : PlayerId
  /-- The players who passed since the last reset. -/
  passed : List PlayerId := []
  nextItem : ItemId := .first
deriving DecidableEq, Repr

namespace Stack

/-- An empty stack; the active player, who must be seated, gets priority. -/
def seat (seats : List PlayerId) (active : PlayerId) : Except Fault Stack :=
  if seats.contains active then .ok { seats, active, holder := active }
  else .error (.violation (.unknownPlayer active))

/-- An empty stack for the players of a table. -/
def ofTable (table : Table) : Except Fault Stack := seat table.seats table.turn.active

/-- The item on top. -/
def top? (stack : Stack) : Option StackItem := stack.items.getLast?

/-- An item by number. -/
def get? (stack : Stack) (id : ItemId) : Option StackItem :=
  stack.items.find? fun item => item.id == id

/-- Whether a player has passed since the last reset. -/
def hasPassed (stack : Stack) (player : PlayerId) : Bool := stack.passed.contains player

/-- The stack at the start of a priority round. -/
def reset (stack : Stack) : Stack := { stack with passed := [], holder := stack.active }

/-- The stack with a new object on top, at the start of a priority round. -/
def push (stack : Stack) (object : StackObject) (controller : PlayerId) (targets : List Choice)
    (x : Option UInt32) : ItemId × Stack :=
  let item : StackItem := { id := stack.nextItem, object, controller, targets, x }
  (stack.nextItem,
    reset { stack with items := stack.items ++ [item], nextItem := stack.nextItem.next })

/-- The stack without its top item. -/
def pop (stack : Stack) : Stack := { stack with items := stack.items.dropLast }

/-- The stack after a player has been noted as having passed. -/
def notePass (stack : Stack) (player : PlayerId) : Stack :=
  { stack with passed := if stack.hasPassed player then stack.passed else stack.passed ++ [player] }

/-- Whether every player has passed since the last reset. -/
def allPassed (stack : Stack) : Bool := stack.seats.all stack.hasPassed

/-- The player after another one in table order. -/
def next (stack : Stack) (player : PlayerId) : PlayerId :=
  (Table.nextSeat stack.seats player).getD player

/-- Checks that a player is seated. -/
def checkSeated (stack : Stack) (player : PlayerId) : Except Fault Unit :=
  if stack.seats.contains player then .ok () else .error (.violation (.unknownPlayer player))

/-- Checks that a player is seated and holds priority. -/
def checkPriority (stack : Stack) (player : PlayerId) : Except Fault Unit := do
  stack.checkSeated player
  if player = stack.holder then .ok () else .error (.violation (.outOfTurn player stack.holder))

/-- The stack with a new active player, at the start of a priority round. -/
def setActive (stack : Stack) (player : PlayerId) : Except Fault Stack := do
  stack.checkSeated player
  pure (reset { stack with active := player })

/-- Whether a player may cast a spell now: with priority, and for a spell at sorcery speed with an
empty stack in a main phase. Whose turn it is does not matter. -/
def canCast (stack : Stack) (table : Table) (spell : Spell) (player : PlayerId) : Bool :=
  stack.holder == player &&
    (!spell.isSorcerySpeed || (stack.items.isEmpty && table.turn.step.isMain))

end Stack

end CardRules
