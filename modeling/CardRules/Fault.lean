import CardRules.Ability
import CardRules.Mana.Pool

/-!
# Faults

Everything that can go wrong, as causes: a denied activation, a breach of the priority protocol,
an illegal target, a cost that cannot be paid, and the rest. `message` gives the wording, in one
place for each type of cause.
-/

set_option autoImplicit false

namespace CardRules

/-- Why an ability may not be used now. -/
inductive Denial where
  | notActivatable (kind : AbilityKind)
  | sorcerySpeed
  | combatOnly
  | notYourTurn
  | usageExhausted (period : UsagePeriod)
  | sourceTapped
  | cannotPayCost
  | noLegalTargets
  | notController
deriving DecidableEq, Repr

/-- The wording of a denial. -/
def Denial.message : Denial → String
  | notActivatable kind => kind.name ++ " abilities cannot be activated"
  | sorcerySpeed => "sorcery-speed ability outside a main phase"
  | combatOnly => "ability can only be activated during combat"
  | notYourTurn => "ability can only be activated during its controller's turn"
  | usageExhausted period => "usage limit reached (" ++ period.text ++ ")"
  | sourceTapped => "source is already tapped"
  | cannotPayCost => "controller cannot pay the cost"
  | noLegalTargets => "no legal targets available"
  | notController => "controller does not control the source"

/-- A breach of the priority protocol. -/
inductive Violation where
  | outOfTurn (player holder : PlayerId)
  | counterNonSpell (item : ItemId)
  | itemNotFound (item : ItemId)
  | emptyStack
  | spellTiming
  | unknownPlayer (player : PlayerId)
deriving DecidableEq, Repr

/-- The wording of a breach. -/
def Violation.message : Violation → String
  | outOfTurn player holder =>
    "player " ++ player.text ++ " acted out of turn (priority is held by " ++ holder.text ++ ")"
  | counterNonSpell item => "stack item " ++ item.text ++ " is not a spell and cannot be countered"
  | itemNotFound item => "stack item " ++ item.text ++ " is not on the stack"
  | emptyStack => "cannot resolve an empty stack"
  | spellTiming => "spell cannot be cast at this time"
  | unknownPlayer player => "player " ++ player.text ++ " is not seated at this table"

/-- Why a chosen target is not accepted. -/
inductive Objection where
  | wrongKind (choice : Choice) (kind : TargetKind)
  | shroud (choice : Choice)
  | hexproof (choice : Choice)
  | protection (choice : Choice)
  | restriction (choice : Choice) (restriction : Restriction)
  | missing (choice : Choice)
  | tooMany (slots : Nat)
  | notSpell (choice : Choice)
  | undamageable (item : ItemId)
deriving DecidableEq, Repr

/-- The wording of an objection. -/
def Objection.message : Objection → String
  | wrongKind choice kind => choice.text ++ " is not a legal " ++ kind.text
  | shroud choice => choice.text ++ " has shroud"
  | hexproof choice => choice.text ++ " has hexproof"
  | protection choice => choice.text ++ " has protection from the source"
  | restriction choice r => choice.text ++ " fails restriction '" ++ r.text ++ "'"
  | missing choice => choice.text ++ " does not exist"
  | tooMany slots => "only " ++ toString slots ++ " target(s) can be chosen"
  | notSpell choice => choice.text ++ " is not a spell"
  | undamageable item => item.text ++ " cannot be dealt damage"

/-- What is lacking for a payment. -/
inductive Shortfall where
  | life (player : String) (price left : Int32)
  | mana (cost : ManaCost) (pool : ManaPool)
  | hand (count size : Nat)
  | spell (cost : Cost) (name : String)
deriving DecidableEq, Repr

/-- The wording of a shortfall. -/
def Shortfall.message : Shortfall → String
  | life player price left =>
    player ++ " cannot pay " ++ toString price.toInt ++ " life with " ++ toString left.toInt ++
      " life remaining"
  | mana cost pool => "cannot pay " ++ cost.text ++ " from a pool of " ++ pool.text
  | hand count size =>
    "cannot discard " ++ toString count ++ " card(s) from a hand of " ++ toString size
  | spell cost name => "cannot pay " ++ cost.text ++ " for " ++ name

/-- Why a value is no ability, or cannot be registered. -/
inductive AbilityFlaw where
  | nilId (name : String)
  | noEffects (name : String)
  | unnumbered (name : String)
  | duplicate (id : AbilityId)
deriving DecidableEq, Repr

/-- The wording of a flaw of an ability. -/
def AbilityFlaw.message : AbilityFlaw → String
  | nilId name => "ability '" ++ name ++ "' has a nil id"
  | noEffects name => "ability '" ++ name ++ "' has no effects"
  | unnumbered name => "'" ++ name ++ "' has no id"
  | duplicate id => id.text ++ " is already registered"

/-- Why a text describes no card. -/
inductive CardFlaw where
  | badSize (value : String)
  | noName
  | noTypes (name : String)
deriving DecidableEq, Repr

/-- The wording of a flaw of a card description. -/
def CardFlaw.message : CardFlaw → String
  | badSize value => "bad PT line '" ++ value ++ "'"
  | noName => "missing Name line"
  | noTypes name => name ++ " has no card types"

/-- Anything that can go wrong. -/
inductive Fault where
  | denied (denial : Denial)
  | invalidTarget (index : Nat) (objection : Objection)
  | insufficientTargets (required supplied : Nat)
  | payment (shortfall : Shortfall)
  | violation (violation : Violation)
  | unimplemented (kind : EffectKind)
  | unknownEntity (id : EntityId)
  | unknownAbility (id : AbilityId)
  | badAbility (flaw : AbilityFlaw)
  | badCard (flaw : CardFlaw)
  /-- The starting life of a configuration is not positive. -/
  | badLife (life : Int32)
  /-- A text is not the written form of the value it should be. -/
  | malformed
deriving DecidableEq, Repr

namespace Fault

/-- The wording of a fault. -/
def message : Fault → String
  | denied denial => "Activation denied: " ++ denial.message
  | invalidTarget index objection =>
    "Invalid target #" ++ toString index ++ ": " ++ objection.message
  | insufficientTargets required supplied =>
    "Insufficient targets: " ++ toString required ++ " required, " ++ toString supplied ++
      " supplied"
  | payment shortfall => "Cost payment failed: " ++ shortfall.message
  | violation breach => "Protocol violation: " ++ breach.message
  | unimplemented kind => "Unimplemented effect: " ++ kind.name
  | unknownEntity id => "Entity not found: " ++ id.text
  | unknownAbility id => "Ability not found: " ++ id.text
  | badAbility flaw => "Invalid ability: " ++ flaw.message
  | badCard flaw => "Invalid card format: " ++ flaw.message
  | badLife life =>
    "Configuration error: starting_life must be positive, got " ++ toString life.toInt
  | malformed => "Serialization error"

/-- Whether a fault only means that an ability may not be used now. -/
def isDenial : Fault → Bool
  | denied _ => true
  | _ => false

/-- Whether a fault is a breach of the priority protocol. -/
def isViolation : Fault → Bool
  | violation _ => true
  | _ => false

end Fault

/-- An ability with the given parts; it needs a number and at least one effect. -/
def Ability.make (id : AbilityId) (name : String) (kind : AbilityKind) (source : CardId)
    (cost : Cost) (effects : List Effect) : Except Fault Ability :=
  if id = .nil then .error (.badAbility (.nilId name))
  else if effects.isEmpty then .error (.badAbility (.noEffects name))
  else .ok { id, name, kind, source, cost, effects }

end CardRules
