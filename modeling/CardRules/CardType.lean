import CardRules.Text.Case

/-!
# Card types and subtypes

The types of the type line, and subtypes, which are compared without regard to ASCII case: "elf"
in rules text is the type line's "Elf".
-/

set_option autoImplicit false

namespace CardRules

/-- A type of the type line. -/
inductive CardType where
  | creature
  | instant
  | sorcery
  | enchantment
  | artifact
  | land
  | planeswalker
deriving DecidableEq, Repr, Inhabited

namespace CardType

/-- Every card type. -/
def all : List CardType :=
  [creature, instant, sorcery, enchantment, artifact, land, planeswalker]

/-- The name of a type, in the singular. -/
def name : CardType → String
  | creature => "Creature"
  | instant => "Instant"
  | sorcery => "Sorcery"
  | enchantment => "Enchantment"
  | artifact => "Artifact"
  | land => "Land"
  | planeswalker => "Planeswalker"

/-- The name of a type in the plural. -/
def plural : CardType → String
  | sorcery => "Sorceries"
  | t => t.name ++ "s"

/-- The type a word names, in either number, case disregarded. -/
def ofWord? (word : List Char) : Option CardType :=
  all.find? fun t => Text.sameLetters t.name.toList word || Text.sameLetters t.plural.toList word

/-- Whether cards of this type stay on the battlefield. -/
def isPermanent : CardType → Bool
  | instant | sorcery => false
  | _ => true

end CardType

/-- A subtype as it is written. -/
structure Subtype where
  text : String
deriving DecidableEq, Repr, Inhabited

/-- Whether a word names this subtype. -/
def Subtype.isNamed (subtype : Subtype) (word : String) : Bool :=
  Text.sameLetters subtype.text.toList word.toList

end CardRules
