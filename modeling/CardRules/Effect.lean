import CardRules.Amount
import CardRules.Duration
import CardRules.Effect.Pump
import CardRules.Target
import CardRules.Text.Search

/-!
# Effects

One change that an ability or a spell makes: its kind, an amount whose meaning depends on the
kind, a duration, the targets it asks for and a description. The description is written anew from
the other fields (`text`) whenever one of them is set.
-/

set_option autoImplicit false

namespace CardRules

/-- The kind of change an effect makes. `modal` is a choice whose modes were not understood. -/
inductive EffectKind where
  | dealDamage
  | drawCards
  | gainLife
  | loseLife
  | addMana
  | pump
  | destroy
  | counterSpell
  | tap
  | untap
  | mill
  | exile
  | returnToHand
  | createToken
  | grantKeyword
  | entersTapped
  | modal
deriving DecidableEq, Repr, Inhabited

namespace EffectKind

/-- Every kind of effect. -/
def all : List EffectKind :=
  [dealDamage, drawCards, gainLife, loseLife, addMana, pump, destroy, counterSpell, tap, untap,
    mill, exile, returnToHand, createToken, grantKeyword, entersTapped, modal]

/-- The name of a kind of effect. -/
def name : EffectKind → String
  | dealDamage => "DealDamage"
  | drawCards => "DrawCards"
  | gainLife => "GainLife"
  | loseLife => "LoseLife"
  | addMana => "AddMana"
  | pump => "Pump"
  | destroy => "Destroy"
  | counterSpell => "CounterSpell"
  | tap => "Tap"
  | untap => "Untap"
  | mill => "Mill"
  | exile => "Exile"
  | returnToHand => "ReturnToHand"
  | createToken => "CreateToken"
  | grantKeyword => "GrantKeyword"
  | entersTapped => "EntersTapped"
  | modal => "Modal"

end EffectKind

/-- One change that an ability or a spell makes. -/
structure Effect where
  kind : EffectKind
  /-- The amount; `Amount.x` stands for X, and a pump packs power and toughness. -/
  magnitude : Int32
  duration : Duration := .instant
  /-- The target requirements, in the order in which targets are chosen. -/
  targets : List Target := []
  description : String := ""
deriving DecidableEq, Repr, Inhabited

namespace Effect

/-- Whether the amount is X. -/
def isVariable (effect : Effect) : Bool := effect.magnitude == Amount.x

/-- The amount once X is chosen; an X that was not chosen is zero. -/
def amount (effect : Effect) (x : Option UInt32) : Int32 :=
  if effect.isVariable then
    match x with
    | some n => Int32.ofNat (min n.toNat 2147483647)
    | none => 0
  else effect.magnitude

/-- The power and toughness changes of a pump. -/
def pumpValues (effect : Effect) : Int32 × Int32 := Pump.unpack effect.magnitude

/-- Whether some target has to be chosen. -/
def requiresTargets (effect : Effect) : Bool := effect.targets.any (·.required)

/-- The description that the fields of an effect give. -/
def text (effect : Effect) : String :=
  let amount := Amount.text effect.magnitude
  let target := match effect.targets with
    | [] => ""
    | target :: _ => " to " ++ target.text
  match effect.kind with
  | .dealDamage => "deal " ++ amount ++ " damage" ++ target
  | .drawCards => "draw " ++ amount ++ " card(s)"
  | .gainLife => "gain " ++ amount ++ " life"
  | .loseLife => "lose " ++ amount ++ " life"
  | .addMana => "add " ++ amount ++ " mana"
  | .mill => "mill " ++ amount ++ " card(s)"
  | .pump =>
    let (power, toughness) := effect.pumpValues
    Text.signed power.toInt ++ "/" ++ Text.signed toughness.toInt ++ target ++
      " (" ++ effect.duration.name ++ ")"
  | kind => kind.name ++ target

/-- The effect with its description written anew. -/
def describe (effect : Effect) : Effect := { effect with description := effect.text }

/-- An effect without targets. -/
def make (kind : EffectKind) (magnitude : Int32) : Effect :=
  Effect.describe { kind := kind, magnitude := magnitude }

/-- The effect with one more target requirement. -/
def withTarget (effect : Effect) (target : Target) : Effect :=
  Effect.describe { effect with targets := effect.targets ++ [target] }

/-- The effect with one more target requirement, if there is one. -/
def withTarget? (effect : Effect) : Option Target → Effect
  | some target => effect.withTarget target
  | none => effect

/-- The effect with another duration. -/
def withDuration (effect : Effect) (duration : Duration) : Effect :=
  Effect.describe { effect with duration := duration }

/-- The effect with a description of its own. -/
def described (effect : Effect) (description : String) : Effect :=
  { effect with description := description }

/-- A change of power and toughness, if the pair can be packed. -/
def pump? (power toughness : Int32) (duration : Duration) : Option Effect :=
  (Pump.pack? power toughness).map fun packed => (make .pump packed).withDuration duration

/-- What the description of an effect that grants a keyword starts with. -/
def grantMark : String := "grant "

/-- An effect that grants a keyword for good. -/
def grant (keyword : Keyword) : Effect :=
  ((make .grantKeyword 1).withDuration .permanent).described (grantMark ++ keyword.text)

/-- The keyword an effect grants, read from its description. -/
def grantedKeyword? (effect : Effect) : Option Keyword :=
  if effect.kind = .grantKeyword then
    (Text.after? grantMark.toList effect.description.toList).bind Keyword.ofText?
  else none

end Effect

end CardRules
