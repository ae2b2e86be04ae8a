import CardRules.Cost
import CardRules.Effect

/-!
# Abilities

What one sentence of rules text becomes: a kind, a cost, effects in order, and limits on when and
how often it may be used.
-/

set_option autoImplicit false

namespace CardRules

/-- The kind of an ability. -/
inductive AbilityKind where
  /-- Produces mana at once, without the stack. -/
  | mana
  /-- "Cost: effect." -/
  | activated
  /-- "When, whenever, at." -/
  | triggered
  /-- Always on. -/
  | static
  /-- Changes how something happens. -/
  | replacement
  /-- The instructions of an instant or sorcery. -/
  | spell
deriving DecidableEq, Repr, Inhabited

namespace AbilityKind

/-- Every kind of ability, in the order in which sentences are tried. -/
def all : List AbilityKind := [mana, activated, triggered, static, replacement, spell]

/-- The name of a kind of ability. -/
def name : AbilityKind → String
  | mana => "Mana"
  | activated => "Activated"
  | triggered => "Triggered"
  | static => "Static"
  | replacement => "Replacement"
  | spell => "Spell"

/-- Whether a player can choose to use abilities of this kind. -/
def isActivatable : AbilityKind → Bool
  | mana | activated => true
  | _ => false

end AbilityKind

/-- What a triggered ability waits for. -/
inductive Trigger where
  | entersTheBattlefield
  | dies
  | beginningOfUpkeep
  | attacks
  | leavesTheBattlefield
deriving DecidableEq, Repr, Inhabited

namespace Trigger

/-- Every trigger. -/
def all : List Trigger :=
  [entersTheBattlefield, dies, beginningOfUpkeep, attacks, leavesTheBattlefield]

/-- The name of a trigger. -/
def name : Trigger → String
  | entersTheBattlefield => "EntersTheBattlefield"
  | dies => "Dies"
  | beginningOfUpkeep => "BeginningOfUpkeep"
  | attacks => "Attacks"
  | leavesTheBattlefield => "LeavesTheBattlefield"

end Trigger

/-- When an ability may be used. -/
structure Timing where
  /-- Only in a main phase with an empty stack. -/
  sorcerySpeed : Bool := false
  combatOnly : Bool := false
  /-- Only while its controller is the active player. -/
  yourTurnOnly : Bool := false
deriving DecidableEq, Repr, Inhabited

/-- Whether an ability may be used at any time. -/
def Timing.isUnrestricted (timing : Timing) : Bool :=
  !timing.sorcerySpeed && !timing.combatOnly && !timing.yourTurnOnly

/-- How often an ability may be used. -/
structure UsageLimit where
  perTurn : Option UInt32 := none
  perGame : Option UInt32 := none
deriving DecidableEq, Repr, Inhabited

/-- A limit on the use of an ability. -/
inductive UsagePeriod where
  | turn
  | game
deriving DecidableEq, Repr, Inhabited

/-- A limit as messages write it. -/
def UsagePeriod.text : UsagePeriod → String
  | turn => "per-turn"
  | game => "per-game"

/-- An ability of a card. -/
structure Ability where
  id : AbilityId
  name : String
  kind : AbilityKind
  /-- The card the ability belongs to. -/
  source : CardId
  cost : Cost
  effects : List Effect
  trigger : Option Trigger := none
  timing : Timing := {}
  usageLimit : UsageLimit := {}
  usesThisTurn : UInt32 := 0
  usesThisGame : UInt32 := 0
  /-- The sentence the ability was read from. -/
  oracleText : String := ""
  /-- Whether the ability was read from text. -/
  parsed : Bool := false
deriving DecidableEq, Repr, Inhabited

/-- The target requirements of some effects, in order. -/
def Effect.targetsOf (effects : List Effect) : List Target := effects.flatMap (·.targets)

namespace Ability

/-- All target requirements, in the order of the effects. -/
def targets (ability : Ability) : List Target := Effect.targetsOf ability.effects

/-- Whether some target has to be chosen. -/
def requiresTargets (ability : Ability) : Bool := ability.effects.any (·.requiresTargets)

/-- Whether the ability produces mana without the stack. -/
def isMana (ability : Ability) : Bool := ability.kind == .mana

/-- Whether X occurs in the cost or as an amount. -/
def hasVariableAmount (ability : Ability) : Bool :=
  ability.cost.mana.hasX || ability.effects.any (·.isVariable)

/-- The limit that further use would exceed, the limit per turn first. -/
def usageExhausted (ability : Ability) : Option UsagePeriod :=
  if ability.usageLimit.perTurn.any fun limit => limit ≤ ability.usesThisTurn then some .turn
  else if ability.usageLimit.perGame.any fun limit => limit ≤ ability.usesThisGame then some .game
  else none

/-- The ability after one more use. -/
def recordUse (ability : Ability) : Ability :=
  { ability with
    usesThisTurn := ability.usesThisTurn + 1
    usesThisGame := ability.usesThisGame + 1 }

/-- The ability at the start of a turn. -/
def resetTurnUsage (ability : Ability) : Ability := { ability with usesThisTurn := 0 }

/-- An ability in one line: kind, name, trigger, cost and descriptions. -/
def text (ability : Ability) : String :=
  let trigger := match ability.trigger with
    | some trigger => " on " ++ trigger.name
    | none => ""
  let cost := if ability.cost.isFree then "" else " (cost: " ++ ability.cost.text ++ ")"
  "[" ++ ability.kind.name ++ "] " ++ ability.name ++ trigger ++ cost ++ ": " ++
    "; ".intercalate (ability.effects.map (·.description))

end Ability

end CardRules
