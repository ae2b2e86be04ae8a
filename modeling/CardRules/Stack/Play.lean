import CardRules.Engine.Activation
import CardRules.Stack

/-!
# Play on the stack

The actions of players: pass, cast, activate, counter. When every player has passed in a row the
top item resolves, or on an empty stack the round is over. A resolution takes exactly the top item
off, whatever becomes of it, and priority returns to the active player.

A scene is all there is: the table, the engine and the stack. Mana abilities take effect without
a look at the stack.
-/

set_option autoImplicit false

namespace CardRules

/-- What became of an item that left the stack. -/
inductive Resolution where
  | resolved (item : ItemId)
  | countered (item : ItemId)
  /-- Every chosen target had become illegal. -/
  | fizzled (item : ItemId)
deriving DecidableEq, Repr

/-- What passing priority led to. -/
inductive PassOutcome where
  | passed (next : PlayerId)
  | resolved (resolution : Resolution)
  /-- Everybody passed on an empty stack. -/
  | stackEmpty
deriving DecidableEq, Repr

/-- A whole game: the table, the engine and the stack. -/
structure Scene where
  table : Table
  engine : Engine
  stack : Stack
deriving DecidableEq, Repr

namespace Scene

/-- An action in a whole game. -/
abbrev Move (α : Type) : Type := Act Scene α

/-- The arena of a scene with the stack in view. -/
def arena (scene : Scene) : Arena :=
  { table := scene.table, items := scene.stack.items, engine := scene.engine }

/-- The arena of a scene with the stack out of view. -/
def bareArena (scene : Scene) (lenient : Bool) : Arena :=
  { table := scene.table, engine := scene.engine, lenient }

/-- An action in the arena of a scene. -/
def inArena {α : Type} (act : Arena.Move α) : Move α :=
  act.within arena fun arena scene =>
    { table := arena.table, engine := arena.engine, stack := { scene.stack with items := arena.items } }

/-- An action in the arena of a scene with the stack out of view. -/
def inBareArena {α : Type} (act : Arena.Move α) (lenient : Bool) : Move α :=
  act.within (·.bareArena lenient) fun arena scene =>
    { scene with table := arena.table, engine := arena.engine }

/-- An action on the table of a scene. -/
def onTable {α : Type} (act : Act Table α) : Move α :=
  act.within (·.table) fun table scene => { scene with table }

/-- Changes the stack. -/
def changeStack (f : Stack → Stack) : Move Unit :=
  Act.modify fun scene => { scene with stack := f scene.stack }

/-- Reports an event of the stack. -/
def report (event : Event) : Move Unit := Act.report .stack event

/-- Puts an object on the stack. -/
def push (object : StackObject) (controller : PlayerId) (targets : List Choice)
    (x : Option UInt32) : Move ItemId := do
  let stack := (← Act.get).stack
  let (id, pushed) := stack.push object controller targets x
  report (.ofCategory .normal "stack"
    (controller.text ++ " put " ++ object.name ++ " on the stack as " ++ id.text))
  changeStack fun _ => pushed
  pure id

/-- Puts a triggered ability on the stack; nobody needs priority for that. -/
def pushTriggered (ability : Ability) (controller : PlayerId) (targets : List Choice) :
    Move ItemId :=
  push (.ability ability) controller targets none

/-- The colors of an object as a source: of its cost for a spell, of its card for an ability. -/
def objectColors (table : Table) : StackObject → List Color
  | .spell spell => spell.manaCost.colors
  | .ability ability => table.colorsOf ability.source

/-- Resolves an item that has left the stack. -/
def resolveItem (item : StackItem) : Move Resolution := do
  if item.countered then
    report (.normal (item.object.name ++ " was countered"))
    pure (.countered item.id)
  else
    let arena := (← Act.get).arena
    let colors := objectColors arena.table item.object
    if arena.allIllegal arena.engine.rules item.object.targets item.targets item.controller colors
    then
      report (.normal (item.object.name ++ " fizzled: no legal targets remain"))
      pure (.fizzled item.id)
    else
      inArena (Arena.applyEffects item.object.effects
        { controller := item.controller, source := item.object.source, targets := item.targets
          x := item.x, oracleText := item.object.oracleText })
      report (.normal (item.object.name ++ " resolved"))
      pure (.resolved item.id)

/-- Takes the top item off the stack and resolves it. -/
def resolveTop : Move Resolution := do
  match (← Act.get).stack.top? with
  | none => Act.fail (.violation .emptyStack)
  | some item =>
    changeStack Stack.pop
    let outcome ← Act.attempt (resolveItem item)
    changeStack Stack.reset
    Act.ofExcept outcome

/-- The holder of priority passes. -/
def pass (player : PlayerId) : Move PassOutcome := do
  Act.ofExcept ((← Act.get).stack.checkPriority player)
  changeStack (·.notePass player)
  report (.verbose (player.text ++ " passed priority"))
  let stack := (← Act.get).stack
  if stack.allPassed then
    if stack.items.isEmpty then
      changeStack Stack.reset
      pure .stackEmpty
    else
      let resolution ← resolveTop
      pure (.resolved resolution)
  else
    let next := stack.next player
    changeStack fun stack => { stack with holder := next }
    pure (.passed next)

/-- A new active player starts a priority round. -/
def setActive (player : PlayerId) : Move Unit := do
  let stack ← Act.ofExcept ((← Act.get).stack.setActive player)
  changeStack fun _ => stack

/-- A player counters a spell on the stack: it stays there and does nothing when it resolves. -/
def counter (item : ItemId) (player : PlayerId) : Move Unit := do
  let stack := (← Act.get).stack
  Act.ofExcept (stack.checkSeated player)
  let items ← Act.ofExcept (StackItem.counter stack.items item)
  changeStack fun stack => { stack with items }
  report (.verbose (player.text ++ " countered " ++ item.text))

/-- Whether a player may use an ability now. -/
def canActivate (scene : Scene) (ability : Ability) (player : PlayerId) : Bool :=
  let stack := scene.stack
  (ability.isMana ||
    (stack.holder == player && (!ability.timing.sorcerySpeed || stack.items.isEmpty))) &&
    scene.arena.canActivate scene.engine.rules ability player

/-- Casts a spell: checks the timing and the targets, pays the mana, puts it on the stack. In a
lenient game the mana is taken to be there, and the payment itself may fail. -/
def cast (spell : Spell) (player : PlayerId) (targets : List Choice) (x : Option UInt32)
    (lenient : Bool) : Move ItemId := do
  let scene ← Act.get
  Act.ofExcept (scene.stack.checkPriority player)
  unless scene.stack.canCast scene.table spell player do
    Act.fail (.violation .spellTiming)
  Act.ofExcept (scene.arena.validateTargets scene.engine.rules spell.targets targets player
    spell.manaCost.colors)
  let mana ← Act.require (.denied .cannotPayCost) (spell.manaCost.withX (x.getD 0))
  let cost := Cost.ofMana mana
  unless lenient || scene.table.canPay player cost do
    Act.fail (.payment (.spell cost spell.name))
  onTable (Table.pay player cost)
  push (.spell spell) player targets x

/-- Uses a registered ability. A mana ability takes effect at once and leaves the stack alone; any
other needs priority and goes on the stack. -/
def activate (id : AbilityId) (player : PlayerId) (targets : List Choice) (decision : Decision) :
    Move (Option ItemId) := do
  let scene ← Act.get
  Act.ofExcept (scene.stack.checkSeated player)
  let ability ← Act.require (.unknownAbility id) (scene.engine.registry.get? id)
  if ability.isMana then
    discard (inBareArena (Arena.activate id player targets decision) false)
    pure none
  else
    Act.ofExcept (scene.stack.checkPriority player)
    if ability.timing.sorcerySpeed && !scene.stack.items.isEmpty then
      Act.fail (.denied .sorcerySpeed)
    match ← inArena (Arena.activate id player targets decision) with
    | .pending object => some <$> push object player targets decision.x
    | .manaResolved => pure none

end Scene

end CardRules
