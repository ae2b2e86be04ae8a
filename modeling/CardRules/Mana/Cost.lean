import CardRules.Capped
import CardRules.Color
import CardRules.Mana.Symbol
import CardRules.Text.Blank
import CardRules.Text.Numeral

/-!
# Mana costs

A mana cost counts its generic mana, its mana of each color and its X symbols. Amounts are bytes
and adding to them stops at 255. The value of X is chosen later (`withX`).

A cost is written as a row of symbols (`text`). `ofText` reads that form and the compact one of
card files ("2RR", "1 U B").
-/

set_option autoImplicit false

namespace CardRules

/-- A mana cost; `x` counts its X symbols. -/
structure ManaCost where
  generic : UInt8 := 0
  white : UInt8 := 0
  blue : UInt8 := 0
  black : UInt8 := 0
  red : UInt8 := 0
  green : UInt8 := 0
  colorless : UInt8 := 0
  x : UInt8 := 0
deriving DecidableEq, Repr, Inhabited

namespace ManaCost

/-- The mana of one color. -/
def amountOf (cost : ManaCost) : Color → UInt8
  | .white => cost.white
  | .blue => cost.blue
  | .black => cost.black
  | .red => cost.red
  | .green => cost.green
  | .colorless => cost.colorless

/-- The cost with more mana of one color. -/
def addColor (cost : ManaCost) (color : Color) (amount : UInt8) : ManaCost :=
  let slot := Capped.addByte (cost.amountOf color) amount
  match color with
  | .white => { cost with white := slot }
  | .blue => { cost with blue := slot }
  | .black => { cost with black := slot }
  | .red => { cost with red := slot }
  | .green => { cost with green := slot }
  | .colorless => { cost with colorless := slot }

/-- The cost with one more symbol, given by what stands between its braces: a number adds generic
mana, X counts, a color letter adds one mana of that color, and any other symbol adds nothing. -/
def addSymbol (cost : ManaCost) (symbol : List Char) : ManaCost :=
  let symbol := Text.trim symbol
  match Text.byte? symbol with
  | some n => { cost with generic := Capped.addByte cost.generic n }
  | none =>
    if Text.sameLetters symbol ['x'] then { cost with x := cost.x + 1 }
    else match symbol with
      | [c] => match Color.ofSymbol? c with
        | some color => cost.addColor color 1
        | none => cost
      | _ => cost

/-- The cost with one more letter of the compact notation. -/
def addLetter (cost : ManaCost) (c : Char) : ManaCost :=
  if c = 'X' ∨ c = 'x' then { cost with x := cost.x + 1 }
  else match Color.ofSymbol? c with
    | some color => cost.addColor color 1
    | none => cost

/-- Reads the compact notation: the digits together are the generic mana (nothing if they exceed
255), every other character stands for itself. -/
def ofCompact (s : List Char) : ManaCost :=
  { s.foldl addLetter {} with generic := (Text.byte? (s.filter Char.isDigit)).getD 0 }

/-- Reads a cost in symbols if the text has a brace, in compact notation otherwise. -/
def ofText (s : List Char) : ManaCost :=
  if s.contains '{' then (symbolParts s).foldl addSymbol {} else ofCompact s

/-- The mana value: all mana together, X counted as zero, at most 255. -/
def manaValue (cost : ManaCost) : UInt8 :=
  Color.all.foldl (fun sum color => Capped.addByte sum (cost.amountOf color)) cost.generic

/-- Whether the cost has an X symbol. -/
def hasX (cost : ManaCost) : Bool := 0 < cost.x

/-- Whether nothing has to be paid. -/
def isFree (cost : ManaCost) : Bool := cost.manaValue == 0 && !cost.hasX

/-- The cost with the value of X folded into its generic mana, if that fits. -/
def withX (cost : ManaCost) (value : UInt32) : Option ManaCost :=
  let generic := cost.generic.toNat + value.toNat * cost.x.toNat
  if generic ≤ 255 then some { cost with generic := UInt8.ofNat generic, x := 0 } else none

/-- The cost with X counted as zero. -/
def withoutX (cost : ManaCost) : ManaCost := { cost with x := 0 }

/-- The five colors that occur in the cost, in order. -/
def colors (cost : ManaCost) : List Color := Color.five.filter fun k => 0 < cost.amountOf k

/-- The symbols of a cost: X symbols, the generic amount (zero only where nothing else is
written), then one letter for each colored mana. -/
def symbols (cost : ManaCost) : List (List Char) :=
  List.replicate cost.x.toNat ['X'] ++
    (if 0 < cost.generic || cost.isFree then [Text.digits cost.generic.toNat] else []) ++
    Color.all.flatMap fun k => List.replicate (cost.amountOf k).toNat [k.symbol]

/-- The cost in symbols. -/
def text (cost : ManaCost) : String := String.ofList (braced cost.symbols)

end ManaCost

end CardRules
