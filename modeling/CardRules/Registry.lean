import CardRules.Fault

/-!
# The registry of abilities

The abilities in play, in the order in which they were registered. Each is found by its number
(`get?`) and, together with the others of its card, by its source (`ofSource`).
-/

set_option autoImplicit false

namespace CardRules

/-- Registered abilities, oldest first. -/
structure Registry where
  abilities : List Ability := []
deriving DecidableEq, Repr, Inhabited

namespace Registry

/-- An ability by number. -/
def get? (registry : Registry) (id : AbilityId) : Option Ability :=
  registry.abilities.find? fun ability => ability.id == id

/-- Whether a number is taken. -/
def contains (registry : Registry) (id : AbilityId) : Bool := (registry.get? id).isSome

/-- The abilities of a card, in the order in which they were registered. -/
def ofSource (registry : Registry) (source : CardId) : List Ability :=
  registry.abilities.filter fun ability => ability.source == source

/-- The registry with one more ability, which needs a number that is not taken. -/
def register (registry : Registry) (ability : Ability) : Except Fault Registry :=
  if ability.id = .nil then .error (.badAbility (.unnumbered ability.name))
  else if registry.contains ability.id then .error (.badAbility (.duplicate ability.id))
  else .ok { abilities := registry.abilities ++ [ability] }

/-- The registry with more abilities, registered in turn up to the first that is refused. -/
def registerAll (registry : Registry) : List Ability → Option Fault × Registry
  | [] => (none, registry)
  | ability :: abilities =>
    match registry.register ability with
    | .ok registry => registry.registerAll abilities
    | .error fault => (some fault, registry)

/-- The registry without the abilities of a card. -/
def dropSource (registry : Registry) (source : CardId) : Registry :=
  { abilities := registry.abilities.filter fun ability => ability.source != source }

/-- The registry with one ability changed. -/
def update (registry : Registry) (id : AbilityId) (f : Ability → Ability) : Registry :=
  { abilities := registry.abilities.map fun ability =>
      if ability.id == id then f ability else ability }

/-- The abilities that wait for a trigger, by number; with a source, only those of that card. -/
def waitingFor (registry : Registry) (trigger : Trigger) (source : Option CardId) : List Ability :=
  (registry.abilities.filter fun ability =>
    ability.trigger == some trigger && source.all fun id => ability.source == id).mergeSort
      fun a b => a.id.number ≤ b.id.number

/-- The registry at the start of a turn. -/
def resetTurnUsage (registry : Registry) : Registry :=
  { abilities := registry.abilities.map Ability.resetTurnUsage }

end Registry

end CardRules
