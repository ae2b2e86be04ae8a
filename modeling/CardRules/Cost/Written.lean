import CardRules.Amount
import CardRules.Cost

/-!
# Written costs

The cost of an activated ability is what stands before its colon: fragments separated by commas.
A fragment is a row of symbols, one of three worded costs, or something else that is kept word
for word.
-/

set_option autoImplicit false

namespace CardRules

/-- What a fragment of a cost means. -/
inductive CostPart where
  | symbols (symbols : List (List Char))
  | sacrifice
  | discard (count : UInt8)
  | life (amount : Int32)
deriving DecidableEq, Repr

namespace CostPart

/-- A space or a tab. -/
def isGap (c : Char) : Bool := c == ' ' || c == '\t'

/-- The rest of a text after a word and at least one gap. -/
def afterWord? (word : String) (s : List Char) : Option (List Char) := do
  let rest ← Text.dropFront? word.toList s
  if (rest.takeWhile isGap).isEmpty then none else some (rest.dropWhile isGap)

/-- Whether a text is one of these phrases, gaps at its end and case disregarded. -/
def isOneOf (phrases : List String) (s : List Char) : Bool :=
  phrases.any fun phrase => (Text.dropFront? phrase.toList s).any fun rest => rest.all isGap

/-- The ways in which a permanent's own text names it. -/
def selfNames : List String :=
  ["this permanent", "this creature", "this artifact", "this land", "this enchantment"]

/-- Reads "sacrifice this permanent". -/
def sacrifice? (s : List Char) : Option CostPart := do
  let rest ← afterWord? "sacrifice" s
  if isOneOf selfNames rest then some sacrifice else none

/-- The number of cards that a word or numeral names, from 0 to 255. -/
def count? (word : List Char) : Option UInt8 := do
  let n ← Text.int? word <|> Amount.ofWord? word
  if 0 ≤ n.toInt ∧ n.toInt ≤ 255 then some (UInt8.ofNat n.toInt.toNat) else none

/-- Reads "discard two cards". -/
def discard? (s : List Char) : Option CostPart := do
  let rest ← afterWord? "discard" s
  let n ← count? (rest.takeWhile Char.isAlphanum)
  let rest := rest.dropWhile Char.isAlphanum
  if (rest.takeWhile isGap).isEmpty then none
  else if isOneOf ["cards", "card"] (rest.dropWhile isGap) then some (discard n) else none

/-- Reads "pay 2 life". -/
def life? (s : List Char) : Option CostPart := do
  let rest ← afterWord? "pay" s
  let n ← Text.int? (rest.takeWhile Char.isDigit)
  let rest := rest.dropWhile Char.isDigit
  if (rest.takeWhile isGap).isEmpty then none
  else if isOneOf ["life"] (rest.dropWhile isGap) then some (life n) else none

/-- What a fragment means, if anything. -/
def ofText? (s : List Char) : Option CostPart :=
  (symbolRun? s).map symbols <|> sacrifice? s <|> discard? s <|> life? s

end CostPart

namespace Cost

/-- The cost with one more symbol. -/
def addSymbol (cost : Cost) (symbol : List Char) : Cost :=
  if Text.sameLetters symbol ['t'] then { cost with tap := true }
  else if Text.sameLetters symbol ['q'] then { cost with other := cost.other ++ ["\x7bQ\x7d"] }
  else { cost with mana := cost.mana.addSymbol symbol }

/-- The cost with one more fragment. -/
def addFragment (cost : Cost) (fragment : List Char) : Cost :=
  match CostPart.ofText? fragment with
  | some (.symbols symbols) => symbols.foldl addSymbol cost
  | some .sacrifice => { cost with sacrifice := true }
  | some (.discard n) => { cost with discard := Capped.addByte cost.discard n }
  | some (.life n) => { cost with life := cost.life + n }
  | none => { cost with other := cost.other ++ [String.ofList fragment] }

/-- The fragments of a text, without blanks at their ends. -/
def split (s : List Char) : List (List Char) := (s.splitOn ',').map Text.trim

/-- Reads a cost. Every text is one: what has no meaning is kept word for word. -/
def ofText (s : List Char) : Cost :=
  ((split s).filter (!·.isEmpty)).foldl addFragment {}

/-- The first words of costs that have no meaning here. -/
def verbs : List String :=
  ["sacrifice ", "discard ", "pay ", "exile ", "remove ", "tap ", "return "]

/-- Whether a text could stand before the colon of an ability: each of its fragments has a meaning
or starts as a cost does. -/
def isWritten (s : List Char) : Bool :=
  !(Text.trim s).isEmpty && (split (Text.trim s)).all fun fragment =>
    (CostPart.ofText? fragment).isSome ||
      verbs.any fun verb => (Text.dropFront? verb.toList fragment).isSome

end Cost

end CardRules
