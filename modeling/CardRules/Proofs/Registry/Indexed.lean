import CardRules.Act
import CardRules.Registry
import Mathlib.Data.List.Basic

/-!
# The registry with two indexes

`Registry` keeps the abilities in one list. To find them fast they are kept twice: by number, and for
each card as the list of the numbers of its abilities. Every operation then has to change both indexes,
one statement after the other, and may stop between two abilities of a batch. `Indexed` is the registry
kept in this way; `Operation` lists what can be asked of either of the two, so that they can be run
side by side.

The order in which a hash map lists its values means nothing, so what waits for a trigger is sorted.
-/

set_option autoImplicit false

namespace CardRules

instance : Hashable EntityId := ⟨fun id => hash id.number⟩

instance : Hashable AbilityId := ⟨fun id => hash id.number⟩

namespace Registry

/-- The registered abilities by number, and the numbers of the abilities of each card, oldest first. -/
structure Indexed where
  byId : Std.HashMap AbilityId Ability := {}
  bySource : Std.HashMap CardId (List AbilityId) := {}

/-- The abilities, among some, that wait for a trigger, by number; with a source, only those of that
card. -/
def waitingAmong (abilities : List Ability) (trigger : Trigger) (source : Option CardId) :
    List Ability :=
  (abilities.filter fun ability =>
    ability.trigger == some trigger && source.all fun id => ability.source == id).mergeSort
      fun a b => a.id.number ≤ b.id.number

namespace Indexed

/-- The abilities of a card. -/
def ofSource (index : Indexed) (source : CardId) : List Ability :=
  (index.bySource.getD source []).filterMap fun id => index.byId[id]?

/-- All abilities, in the order in which the map by number happens to list them. -/
def values (index : Indexed) : List Ability := index.byId.toList.map (·.2)

/-- The abilities that wait for a trigger, by number; with a source, only those of that card. -/
def waitingFor (index : Indexed) (trigger : Trigger) (source : Option CardId) : List Ability :=
  waitingAmong index.values trigger source

/-- Registers an ability, which needs a number that is not taken. -/
def register (ability : Ability) : Act Indexed AbilityId := do
  if ability.id = .nil then
    Act.fail (.badAbility (.unnumbered ability.name))
  if (← Act.get).byId.contains ability.id then
    Act.fail (.badAbility (.duplicate ability.id))
  Act.modify fun index =>
    { index with
      bySource := index.bySource.alter ability.source fun ids => some (ids.getD [] ++ [ability.id]) }
  Act.modify fun index => { index with byId := index.byId.insert ability.id ability }
  pure ability.id

/-- Registers abilities in turn, up to the first that is refused. -/
def registerAll : List Ability → Act Indexed (List AbilityId)
  | [] => pure []
  | ability :: abilities => do
    let id ← register ability
    let ids ← registerAll abilities
    pure (id :: ids)

/-- Takes the abilities of some numbers out of the map by number. -/
def takeAll : List AbilityId → Act Indexed (List Ability)
  | [] => pure []
  | id :: ids => do
    let taken := (← Act.get).byId[id]?
    Act.modify fun index => { index with byId := index.byId.erase id }
    let others ← takeAll ids
    pure (taken.toList ++ others)

/-- Forgets the abilities of a card and answers which they were. -/
def unregister (source : CardId) : Act Indexed (List Ability) := do
  let ids := (← Act.get).bySource.getD source []
  Act.modify fun index => { index with bySource := index.bySource.erase source }
  takeAll ids

/-- Counts a use of an ability. -/
def recordUse (id : AbilityId) : Act Indexed Unit := do
  let _ ← Act.require (.unknownAbility id) (← Act.get).byId[id]?
  Act.modify fun index => { index with byId := index.byId.modify id Ability.recordUse }

/-- Starts a turn. -/
def resetTurnUsage : Act Indexed Unit :=
  Act.modify fun index => { index with byId := index.byId.map fun _ => Ability.resetTurnUsage }

end Indexed

/-! ## Operations -/

/-- What can be asked of a registry. -/
inductive Operation where
  | register (ability : Ability)
  | registerAll (abilities : List Ability)
  | unregister (source : CardId)
  | recordUse (id : AbilityId)
  | resetTurnUsage

/-- What an operation answers. -/
inductive Answer where
  | registered (ids : List AbilityId)
  | forgotten (abilities : List Ability)
  | done
deriving DecidableEq, Repr

namespace Operation

/-- The operation on the list of abilities. -/
def perform : Operation → Act Registry Answer
  | register ability => do
    let registry ← Act.ofExcept ((← Act.get).register ability)
    Act.set registry
    pure (.registered [ability.id])
  | registerAll abilities => do
    let (fault?, registry) := (← Act.get).registerAll abilities
    Act.set registry
    match fault? with
    | some fault => Act.fail fault
    | none => pure (.registered (abilities.map (·.id)))
  | unregister source => do
    let registry ← Act.get
    Act.set (registry.dropSource source)
    pure (.forgotten (registry.ofSource source))
  | recordUse id => do
    let registry ← Act.get
    let _ ← Act.require (.unknownAbility id) (registry.get? id)
    Act.set (registry.update id Ability.recordUse)
    pure .done
  | resetTurnUsage => do
    Act.modify Registry.resetTurnUsage
    pure .done

/-- The operation on the two indexes. -/
def performIndexed : Operation → Act Indexed Answer
  | register ability => (fun id => .registered [id]) <$> Indexed.register ability
  | registerAll abilities => .registered <$> Indexed.registerAll abilities
  | unregister source => .forgotten <$> Indexed.unregister source
  | recordUse id => (fun _ => .done) <$> Indexed.recordUse id
  | resetTurnUsage => (fun _ => .done) <$> Indexed.resetTurnUsage

end Operation

/-- The registry after some operations, failing ones among them. -/
def afterAll (operations : List Operation) : Registry :=
  operations.foldl (fun registry operation => (operation.perform registry).state) {}

/-- The indexes after some operations, failing ones among them. -/
def Indexed.afterAll (operations : List Operation) : Indexed :=
  operations.foldl (fun index operation => (operation.performIndexed index).state) {}

end Registry

end CardRules
