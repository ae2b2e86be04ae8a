import CardRules.Act
import CardRules.Registry
import CardRules.Target.Legality

/-!
# The engine

The engine knows the abilities in play, how untargetability is read, and the triggers of cards
that left the battlefield. It works in an arena: a view (the table, and the stack where it is in
view) together with the engine itself.
-/

set_option autoImplicit false

namespace CardRules

/-- An ability that triggered when its source left the battlefield, with the controller that the
source had. It waits for targets and its place on the stack. -/
structure PendingTrigger where
  ability : Ability
  controller : PlayerId
deriving DecidableEq, Repr, Inhabited

/-- The abilities in play and the triggers that wait, oldest first. -/
structure Engine where
  registry : Registry := {}
  rules : Untargetability := .ignored
  pending : List PendingTrigger := []
deriving DecidableEq, Repr, Inhabited

/-- The triggers that wait, and the engine without them. -/
def Engine.takePending (engine : Engine) : List PendingTrigger × Engine :=
  (engine.pending, { engine with pending := [] })

/-- What abilities and effects work on. -/
structure Arena extends View where
  engine : Engine
deriving DecidableEq, Repr

namespace Arena

/-- An action in an arena. -/
abbrev Move (α : Type) : Type := Act Arena α

/-- An action on the table of an arena. -/
def onTable {α : Type} (act : Act Table α) : Move α :=
  act.within (·.table) fun table arena => { arena with table }

/-- Reports an event of the table. -/
def report (event : Event) : Move Unit := Act.report .table event

/-- Changes the registry. -/
def changeRegistry (f : Registry → Registry) : Move Unit :=
  Act.modify fun arena =>
    { arena with engine := { arena.engine with registry := f arena.engine.registry } }

/-- Queues a trigger. -/
def queue (trigger : PendingTrigger) : Move Unit := do
  report (.ofCategory .normal "engine"
    (trigger.ability.name ++ " triggered (" ++ trigger.ability.id.text ++ ")"))
  Act.modify fun arena =>
    { arena with engine := { arena.engine with pending := arena.engine.pending ++ [trigger] } }

/-- Whether an ability of a card that left the battlefield triggers: one that waits for leaving
does, one that waits for dying does if the card is a creature. -/
def leaveTriggers (creature : Bool) (ability : Ability) : Bool :=
  match ability.trigger with
  | some .leavesTheBattlefield => true
  | some .dies => creature
  | _ => false

/-- Forgets the abilities of a card that left the battlefield and queues those that trigger, for
the controller it had. Answers the others. -/
def leave (card : CardId) (controller : PlayerId) : Move (List Ability) := do
  let arena ← Act.get
  let removed := arena.engine.registry.ofSource card
  changeRegistry (·.dropSource card)
  unless removed.isEmpty do
    report (.verbose ("unregistered " ++ toString removed.length ++ " ability(s) of " ++ card.text))
  let creature := (arena.table.card? card).any fun c => c.isType .creature
  (removed.filter (leaveTriggers creature)).forM fun ability => queue { ability, controller }
  pure (removed.filter fun ability => !leaveTriggers creature ability)

end Arena

end CardRules
