import CardRules.Text.Numeral

/-!
# Tokens of the data format

A text in JSON is cut into brackets, marks, words, numbers and quoted texts, character by
character. Between tokens there may be spaces, tabs and line ends.
-/

set_option autoImplicit false

namespace CardRules.Data

/-- A token. -/
inductive Token where
  | openList
  | closeList
  | openObject
  | closeObject
  | colon
  | comma
  | null
  | bool (value : Bool)
  | int (value : Int)
  /-- A number with a fraction or an exponent, or minus zero. -/
  | fraction
  | text (value : String)
  /-- A quoted text with half a surrogate pair, which spells nothing. -/
  | broken
deriving DecidableEq, Repr

/-! ## Quoted texts -/

/-- A quoted text as far as it is read: its characters, last first; the first half of a surrogate
pair whose second half is still to come; and whether everything so far spells a text. -/
structure Quoted where
  seen : List Char := []
  half : Option Nat := none
  sound : Bool := true
deriving DecidableEq, Repr

namespace Quoted

/-- The quoted text with one more character. -/
def push (quoted : Quoted) (c : Char) : Quoted :=
  { seen := c :: quoted.seen, sound := quoted.sound && quoted.half.isNone }

/-- The quoted text with one more unit of UTF-16. -/
def pushUnit (quoted : Quoted) (u : Nat) : Quoted :=
  match quoted.half with
  | some h =>
    if 0xDC00 ≤ u ∧ u ≤ 0xDFFF then
      { quoted with
        seen := Char.ofNat (0x10000 + (h - 0xD800) * 0x400 + (u - 0xDC00)) :: quoted.seen
        half := none }
    else { quoted with half := none, sound := false }
  | none =>
    if 0xD800 ≤ u ∧ u ≤ 0xDBFF then { quoted with half := some u }
    else if 0xDC00 ≤ u ∧ u ≤ 0xDFFF then { quoted with sound := false }
    else quoted.push (Char.ofNat u)

/-- The token of a quoted text that has ended. -/
def token (quoted : Quoted) : Token :=
  if quoted.sound && quoted.half.isNone then .text (String.ofList quoted.seen.reverse) else .broken

end Quoted

/-- The value of a hexadecimal digit. -/
def hexValue? (c : Char) : Option Nat :=
  if '0' ≤ c ∧ c ≤ '9' then some (c.toNat - '0'.toNat)
  else if 'a' ≤ c ∧ c ≤ 'f' then some (c.toNat - 'a'.toNat + 10)
  else if 'A' ≤ c ∧ c ≤ 'F' then some (c.toNat - 'A'.toNat + 10)
  else none

/-- The character an escape with one letter stands for. -/
def escaped? (c : Char) : Option Char :=
  if c = '"' ∨ c = '\\' ∨ c = '/' then some c
  else if c = 'b' then some '\x08'
  else if c = 'f' then some '\x0c'
  else if c = 'n' then some '\n'
  else if c = 'r' then some '\r'
  else if c = 't' then some '\t'
  else none

/-! ## Numbers and words -/

/-- Whether a character can be part of a number. -/
def isNumberChar (c : Char) : Bool :=
  c.isDigit || c == '-' || c == '+' || c == '.' || c == 'e' || c == 'E'

/-- Whether a text is an exponent: a sign that may be missing, and digits. -/
def isExponent (s : List Char) : Bool :=
  match s with
  | '+' :: s | '-' :: s => (Text.digits? s).isSome
  | s => (Text.digits? s).isSome

/-- Whether a text is what may follow the whole part of a number: a fraction and an exponent, of
which at least one is there. -/
def isFraction (s : List Char) : Bool :=
  match s with
  | '.' :: s =>
    !(s.takeWhile Char.isDigit).isEmpty &&
      match s.dropWhile Char.isDigit with
      | [] => true
      | c :: s => (c == 'e' || c == 'E') && isExponent s
  | c :: s => (c == 'e' || c == 'E') && isExponent s
  | [] => false

/-- The token of an unsigned number, negated if a minus stands before it. A whole part with more
than one digit does not start with zero. -/
def unsigned? (negative : Bool) (s : List Char) : Option Token :=
  let whole := s.takeWhile Char.isDigit
  let rest := s.dropWhile Char.isDigit
  match Text.digits? whole with
  | none => none
  | some n =>
    if whole.head? = some '0' ∧ whole.length ≠ 1 then none
    else if rest.isEmpty then
      if negative then some (if n = 0 then .fraction else .int (-(n : Int))) else some (.int n)
    else if isFraction rest then some .fraction
    else none

/-- The token of a run of number characters. -/
def number? (s : List Char) : Option Token :=
  match s with
  | '-' :: s => unsigned? true s
  | s => unsigned? false s

/-- The token of a run of letters. -/
def word? (s : List Char) : Option Token :=
  if s = "null".toList then some .null
  else if s = "true".toList then some (.bool true)
  else if s = "false".toList then some (.bool false)
  else none

/-- The token of a character that is one by itself. -/
def mark? (c : Char) : Option Token :=
  if c = '[' then some .openList
  else if c = ']' then some .closeList
  else if c = '{' then some .openObject
  else if c = '}' then some .closeObject
  else if c = ':' then some .colon
  else if c = ',' then some .comma
  else none

/-! ## Cutting -/

/-- Where the cut stands: between tokens, or in the middle of one. -/
inductive Place where
  | between
  /-- In a number, whose characters so far are given last first. -/
  | inNumber (seen : List Char)
  /-- In a word, whose characters so far are given last first. -/
  | inWord (seen : List Char)
  | inQuotes (quoted : Quoted)
  /-- After a backslash. -/
  | afterBackslash (quoted : Quoted)
  /-- In an escape by number, with so many digits to come. -/
  | inHex (quoted : Quoted) (value missing : Nat)
deriving DecidableEq, Repr

/-- The place after a character between tokens, and the token the character is. -/
def start (c : Char) : Option (Place × List Token) :=
  if c = ' ' ∨ c = '\n' ∨ c = '\t' ∨ c = '\r' then some (.between, [])
  else if c = '"' then some (.inQuotes {}, [])
  else if c = '-' ∨ c.isDigit then some (.inNumber [c], [])
  else if c.isAlpha then some (.inWord [c], [])
  else (mark? c).map fun token => (.between, [token])

/-- The place after one more character, and the tokens that are complete with it. -/
def step (place : Place) (c : Char) : Option (Place × List Token) :=
  match place with
  | .between => start c
  | .inNumber seen =>
    if isNumberChar c then some (.inNumber (c :: seen), [])
    else do
      let token ← number? seen.reverse
      let (place, tokens) ← start c
      pure (place, token :: tokens)
  | .inWord seen =>
    if c.isAlpha then some (.inWord (c :: seen), [])
    else do
      let token ← word? seen.reverse
      let (place, tokens) ← start c
      pure (place, token :: tokens)
  | .inQuotes quoted =>
    if c = '"' then some (.between, [quoted.token])
    else if c = '\\' then some (.afterBackslash quoted, [])
    else if c.toNat < 0x20 then none
    else some (.inQuotes (quoted.push c), [])
  | .afterBackslash quoted =>
    if c = 'u' then some (.inHex quoted 0 4, [])
    else (escaped? c).map fun c => (.inQuotes (quoted.push c), [])
  | .inHex quoted value missing => do
    let digit ← hexValue? c
    let value := value * 16 + digit
    pure (if missing ≤ 1 then .inQuotes (quoted.pushUnit value)
      else .inHex quoted value (missing - 1), [])

/-- The token that the end of the text completes. -/
def finish : Place → Option (List Token)
  | .between => some []
  | .inNumber seen => (number? seen.reverse).map ([·])
  | .inWord seen => (word? seen.reverse).map ([·])
  | _ => none

/-- A text cut as far as it is read: the place, and the complete tokens, last first. -/
structure Cut where
  place : Place := .between
  tokens : List Token := []
deriving Repr

/-- The cut after one more character. -/
def Cut.add (cut : Cut) (c : Char) : Option Cut :=
  (step cut.place c).map fun (place, tokens) =>
    { place, tokens := tokens.reverse ++ cut.tokens }

/-- The tokens of a text. -/
def tokens? (s : List Char) : Option (List Token) := do
  let cut ← s.foldlM Cut.add {}
  let last ← finish cut.place
  pure (cut.tokens.reverse ++ last)

end CardRules.Data
