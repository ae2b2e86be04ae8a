import CardRules.Text.Blank
import CardRules.Text.Case
import CardRules.Text.Numeral

/-!
# Amounts in rules text

An amount is written in digits, as a number word ("a" and "an" mean one) or as X, whose value is
chosen later and which is kept as the number -1.
-/

set_option autoImplicit false

namespace CardRules.Amount

/-- The number that stands for X. -/
def x : Int32 := -1

/-- The number words. -/
def words : List (String × Int32) :=
  [("a", 1), ("an", 1), ("one", 1), ("two", 2), ("three", 3), ("four", 4), ("five", 5),
    ("six", 6), ("seven", 7), ("eight", 8), ("nine", 9), ("ten", 10), ("eleven", 11),
    ("twelve", 12), ("thirteen", 13), ("fourteen", 14), ("fifteen", 15), ("sixteen", 16),
    ("seventeen", 17), ("eighteen", 18), ("nineteen", 19), ("twenty", 20), ("zero", 0)]

/-- The number a word names. -/
def ofWord? (s : List Char) : Option Int32 :=
  (words.find? fun (word, _) => Text.sameLetters word.toList (Text.trim s)).map (·.2)

/-- The amount a text names. -/
def ofText? (s : List Char) : Option Int32 :=
  let s := Text.trim s
  if Text.sameLetters s ['x'] then some x else Text.int? s <|> ofWord? s

/-- One half of a power and toughness change, such as "+2" or "-1"; X is not accepted. -/
def ofSigned? (s : List Char) : Option Int32 :=
  match Text.trim s with
  | '-' :: digits => (Text.int? digits).map fun n => -n
  | '+' :: digits => Text.int? digits
  | digits => Text.int? digits

/-- An amount as messages write it. -/
def text (n : Int32) : String := if n = x then "X" else toString n.toInt

end CardRules.Amount
