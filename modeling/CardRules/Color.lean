import CardRules.Text.Case

/-!
# Colors

The five colors and colorless, in the order in which mana is listed and generic costs are paid.
-/

set_option autoImplicit false

namespace CardRules

/-- A color of mana. -/
inductive Color where
  | white
  | blue
  | black
  | red
  | green
  | colorless
deriving DecidableEq, Repr, Inhabited

namespace Color

/-- The five colors, in their fixed order. -/
def five : List Color := [white, blue, black, red, green]

/-- The five colors, then colorless. -/
def all : List Color := [white, blue, black, red, green, colorless]

/-- The name of a color. -/
def name : Color → String
  | white => "White"
  | blue => "Blue"
  | black => "Black"
  | red => "Red"
  | green => "Green"
  | colorless => "Colorless"

/-- The letter of a color in mana symbols. -/
def symbol : Color → Char
  | white => 'W'
  | blue => 'U'
  | black => 'B'
  | red => 'R'
  | green => 'G'
  | colorless => 'C'

/-- The color of a symbol letter, in either case. -/
def ofSymbol? (c : Char) : Option Color := all.find? fun k => k.symbol == c.toUpper

/-- The color a word names, case disregarded. -/
def ofWord? (word : List Char) : Option Color :=
  all.find? fun k => Text.sameLetters k.name.toList word

theorem mem_all (k : Color) : k ∈ all := by cases k <;> decide

theorem ofSymbol?_symbol (k : Color) : ofSymbol? k.symbol = some k := by cases k <;> decide

end Color

end CardRules
