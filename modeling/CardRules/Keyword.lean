import CardRules.Color
import CardRules.Text.Blank

/-!
# Keyword abilities

The keywords that are known by name, protection from a color, and any other keyword as it is
written on the card. `text` writes a keyword as a card does, and `ofText?` reads it back, case
disregarded.
-/

set_option autoImplicit false

namespace CardRules

/-- A keyword ability. -/
inductive Keyword where
  | flying
  | firstStrike
  | doubleStrike
  | deathtouch
  | haste
  | hexproof
  | indestructible
  | lifelink
  | menace
  | reach
  | trample
  | vigilance
  | defender
  | flash
  | shroud
  | protectionFrom (color : Color)
  | other (text : String)
deriving DecidableEq, Repr, Inhabited

namespace Keyword

/-- The keywords that stand alone. -/
def plain : List Keyword :=
  [flying, firstStrike, doubleStrike, deathtouch, haste, hexproof, indestructible, lifelink,
    menace, reach, trample, vigilance, defender, flash, shroud]

/-- The keywords that are recognized by what is written. -/
def known : List Keyword := plain ++ Color.all.map protectionFrom

/-- The name of a keyword's kind, in one word. -/
def name : Keyword → String
  | flying => "Flying"
  | firstStrike => "FirstStrike"
  | doubleStrike => "DoubleStrike"
  | deathtouch => "Deathtouch"
  | haste => "Haste"
  | hexproof => "Hexproof"
  | indestructible => "Indestructible"
  | lifelink => "Lifelink"
  | menace => "Menace"
  | reach => "Reach"
  | trample => "Trample"
  | vigilance => "Vigilance"
  | defender => "Defender"
  | flash => "Flash"
  | shroud => "Shroud"
  | protectionFrom _ => "ProtectionFrom"
  | other _ => "Other"

/-- A keyword as it is written on a card. -/
def text : Keyword → String
  | firstStrike => "First strike"
  | doubleStrike => "Double strike"
  | protectionFrom color => "Protection from " ++ color.name
  | other text => text
  | keyword => keyword.name

/-- The keyword a text names, blanks at its ends and case disregarded. -/
def ofText? (s : List Char) : Option Keyword :=
  known.find? fun k => Text.sameLetters k.text.toList (Text.trim s)

end Keyword

end CardRules
