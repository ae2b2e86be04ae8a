import CardRules.Mana.Cost
import CardRules.Text.Search

/-!
# Produced mana

How much mana of which colors an "add" effect makes, read from the text after its cost. "Any
color" and a choice between symbols give mana of the color chosen, or of the first color on offer
if the choice is missing or not on offer. Otherwise every symbol gives what it shows.
-/

set_option autoImplicit false

namespace CardRules.Mana

/-- The color of a symbol, given by what stands between its braces. -/
def symbolColor? : List Char → Option Color
  | [c] => Color.ofSymbol? c
  | _ => none

/-- What a symbol produces: one mana of its color, or a number of colorless mana. -/
def symbolYield? (symbol : List Char) : Option (Color × UInt8) :=
  match symbolColor? symbol with
  | some color => some (color, 1)
  | none => (Text.byte? symbol).map fun n => (.colorless, n)

/-- A list of amounts with one more amount, added to the entry of its color. -/
def addYield (yields : List (Color × UInt8)) (yield : Color × UInt8) : List (Color × UInt8) :=
  if yields.any (·.1 == yield.1) then
    yields.map fun entry =>
      if entry.1 == yield.1 then (entry.1, Capped.addByte entry.2 yield.2) else entry
  else yields ++ [yield]

/-- The text after the last colon, or the whole text if there is none. -/
def afterCost (s : List Char) : List Char := ((s.splitOn ':').getLast?).getD s

/-- The mana an "add" effect of some amount produces, given its text and the color chosen. -/
def produced (text : String) (amount : Int32) (choice : Option Color) : List (Color × UInt8) :=
  let amount := UInt8.ofNat (min 255 amount.toInt.toNat)
  let text := afterCost text.toList
  let has (phrase : String) := Text.occurs phrase.toList (Text.lower text)
  let symbols := symbolsIn text
  let options := symbols.filterMap symbolColor?
  if has "any color" || has "any one color" then [(choice.getD .white, amount)]
  else match has " or ", options with
    | true, first :: _ =>
      [((choice.filter fun color => options.contains color).getD first, max amount 1)]
    | _, _ =>
      let yields := (symbols.filterMap symbolYield?).foldl addYield []
      if yields.isEmpty then [(.colorless, amount)] else yields

/-- There is always some yield, if only of colorless mana. -/
theorem produced_ne_nil (text : String) (amount : Int32) (choice : Option Color) :
    produced text amount choice ≠ [] := by
  unfold produced
  dsimp only
  split
  · exact List.cons_ne_nil _ _
  · split
    · exact List.cons_ne_nil _ _
    · split
      · exact List.cons_ne_nil _ _
      · rename_i hyields
        exact mt List.isEmpty_iff.mpr hyields

end CardRules.Mana
