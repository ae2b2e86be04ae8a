import CardRules.Amount
import CardRules.Target
import CardRules.Text.Search

/-!
# Written targets

The target a clause names ("target tapped creature", "up to two target lands"), with its category
taken from the first noun. Restrictions are not read here.
-/

set_option autoImplicit false

namespace CardRules.Target

/-- The count of an optional target, from 0 to 255, and the text after it. -/
def upTo? (s : List Char) : Option (UInt8 × List Char) := do
  let (word, rest) ← Text.cut? [' '] s
  let n ← Amount.ofText? word
  if 0 ≤ n.toInt ∧ n.toInt ≤ 255 then some (UInt8.ofNat n.toInt.toNat, rest) else none

/-- A word without commas and periods at its end. -/
def bareWord (word : List Char) : List Char := Text.dropBack (fun c => c == ',' || c == '.') word

/-- The category of the first noun in a text. -/
def firstNoun? (s : List Char) : Option TargetKind :=
  (Text.words s).findSome? fun word => TargetKind.ofNoun? (bareWord word)

/-- What follows the word "target" at the front of a text in lower case. -/
def afterTarget? (s : List Char) : Option (List Char) :=
  Text.after? "target ".toList s <|> Text.after? "targets ".toList s

/-- The target a phrase names, without restrictions. -/
def ofPhrase? (s : List Char) : Option Target :=
  let s := Text.lower (Text.trim s)
  if s = "any target".toList then some { kind := .any }
  else do
    let (count, rest) ← match Text.after? "up to ".toList s with
      | some rest => (upTo? rest).map fun (n, rest) => (some n, rest)
      | none => some (none, s)
    let rest ← afterTarget? rest
    let startsWith (phrase : String) := (Text.after? phrase.toList rest).isSome
    if startsWith "creature or player" || startsWith "player or creature" then
      some { kind := .creatureOrPlayer }
    else do
      let kind ← firstNoun? rest
      match count with
      | some n => some { kind, count := n, required := false }
      | none => some { kind }

end CardRules.Target
