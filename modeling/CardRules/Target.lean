import CardRules.CardType
import CardRules.Identity
import CardRules.Keyword

/-!
# Target requirements

What an effect asks to be targeted: a category, how many objects, whether they must be chosen, and
restrictions on each of them. Beside it the choice itself, which names a player, a permanent or a
spell on the stack.
-/

set_option autoImplicit false

namespace CardRules

/-- The category a target must belong to; `any` is a creature, a player or a planeswalker. -/
inductive TargetKind where
  | any
  | creature
  | player
  | opponent
  | permanent
  | spell
  | artifact
  | enchantment
  | land
  | planeswalker
  | creatureOrPlayer
deriving DecidableEq, Repr, Inhabited

namespace TargetKind

/-- Every category. -/
def all : List TargetKind :=
  [any, creature, player, opponent, permanent, spell, artifact, enchantment, land, planeswalker,
    creatureOrPlayer]

/-- The name of a category, in one word. -/
def name : TargetKind → String
  | any => "Any"
  | creature => "Creature"
  | player => "Player"
  | opponent => "Opponent"
  | permanent => "Permanent"
  | spell => "Spell"
  | artifact => "Artifact"
  | enchantment => "Enchantment"
  | land => "Land"
  | planeswalker => "Planeswalker"
  | creatureOrPlayer => "CreatureOrPlayer"

/-- A category as descriptions write it. -/
def text : TargetKind → String
  | any => "any target"
  | creature => "creature"
  | player => "player"
  | opponent => "opponent"
  | permanent => "permanent"
  | spell => "spell"
  | artifact => "artifact"
  | enchantment => "enchantment"
  | land => "land"
  | planeswalker => "planeswalker"
  | creatureOrPlayer => "creature or player"

/-- The nouns of rules text that name a category. -/
def nouns : TargetKind → List String
  | any => ["any"]
  | creatureOrPlayer => ["creature or player", "player or creature"]
  | kind => [kind.text, kind.text ++ "s"]

/-- The category a noun names, blanks at its ends and case disregarded. -/
def ofNoun? (s : List Char) : Option TargetKind :=
  all.find? fun kind => kind.nouns.any fun noun => Text.sameLetters noun.toList (Text.trim s)

end TargetKind

/-- How a number is compared with a bound. -/
inductive Comparison where
  | equal
  | lessOrEqual
  | greaterOrEqual
  | less
  | greater
deriving DecidableEq, Repr, Inhabited

namespace Comparison

/-- Every comparison. -/
def all : List Comparison := [equal, lessOrEqual, greaterOrEqual, less, greater]

/-- The name of a comparison. -/
def name : Comparison → String
  | equal => "Equal"
  | lessOrEqual => "LessOrEqual"
  | greaterOrEqual => "GreaterOrEqual"
  | less => "Less"
  | greater => "Greater"

/-- Whether a number stands in this relation to a bound. -/
def holds (comparison : Comparison) (n bound : Int) : Bool :=
  match comparison with
  | equal => n == bound
  | lessOrEqual => n ≤ bound
  | greaterOrEqual => bound ≤ n
  | less => n < bound
  | greater => bound < n

end Comparison

/-- Who must control a target. -/
inductive Control where
  | you
  | opponent
deriving DecidableEq, Repr, Inhabited

namespace Control

/-- Both relations. -/
def all : List Control := [you, opponent]

/-- The name of a relation. -/
def name : Control → String
  | you => "You"
  | opponent => "Opponent"

end Control

/-- What a restriction asks of an object. `card` is one particular permanent, and `other` stands
for wording without a meaning here, which every object satisfies. -/
inductive Trait where
  | cardType (type : CardType)
  | subtype (name : String)
  | keyword (keyword : Keyword)
  | power (comparison : Comparison) (bound : Int32)
  | toughness (comparison : Comparison) (bound : Int32)
  | manaValue (comparison : Comparison) (bound : Int32)
  | controller (control : Control)
  | color (color : Color)
  | tapped
  | untapped
  | card (card : CardId)
  | other (text : String)
deriving DecidableEq, Repr, Inhabited

/-- A trait as descriptions write it. -/
def Trait.text : Trait → String
  | .cardType t => t.name
  | .subtype s => s
  | .keyword k => "with " ++ k.text
  | .power c n => s!"power {c.name} {n.toInt}"
  | .toughness c n => s!"toughness {c.name} {n.toInt}"
  | .manaValue c n => s!"mana value {c.name} {n.toInt}"
  | .controller .you => "you control"
  | .controller .opponent => "an opponent controls"
  | .color c => c.name
  | .tapped => "tapped"
  | .untapped => "untapped"
  | .card id => id.text
  | .other s => s

/-- A trait that a target must have, or must not have. -/
structure Restriction where
  trait : Trait
  negated : Bool := false
deriving DecidableEq, Repr, Inhabited

/-- A restriction as descriptions write it. -/
def Restriction.text (restriction : Restriction) : String :=
  match restriction with
  | ⟨.card id, true⟩ => "other than " ++ id.text
  | ⟨trait, true⟩ => "non-" ++ trait.text
  | ⟨trait, false⟩ => trait.text

/-- A target requirement of an effect. -/
structure Target where
  kind : TargetKind
  /-- Whether the effect needs this target to be chosen. -/
  required : Bool := true
  /-- How many objects are chosen for this requirement. -/
  count : UInt8 := 1
  restrictions : List Restriction := []
deriving DecidableEq, Repr, Inhabited

namespace Target

/-- The requirement with one more restriction. -/
def restrict (target : Target) (restriction : Restriction) : Target :=
  { target with restrictions := target.restrictions ++ [restriction] }

/-- A requirement as descriptions write it. -/
def text (target : Target) : String :=
  let category := if target.kind = .any then "any target" else "target " ++ target.kind.text
  if target.restrictions.isEmpty then category
  else category ++ " [" ++ ", ".intercalate (target.restrictions.map Restriction.text) ++ "]"

end Target

/-- The number of targets that some requirements ask for. -/
def Target.totalCount (targets : List Target) : Nat :=
  targets.foldr (fun target n => target.count.toNat + n) 0

/-- The number of targets that the required ones among some requirements ask for. -/
def Target.requiredCount (targets : List Target) : Nat :=
  totalCount (targets.filter (·.required))

/-- A chosen target. -/
inductive Choice where
  | player (id : PlayerId)
  | permanent (id : CardId)
  | spell (id : ItemId)
deriving DecidableEq, Repr, Inhabited

/-- A chosen target as messages write it. -/
def Choice.text : Choice → String
  | .player id => "player " ++ id.text
  | .permanent id => "permanent " ++ id.text
  | .spell id => id.text

end CardRules
