/-!
# Data

The values that are exchanged with other programs, and how they are written as JSON. Objects keep
the order of their members. A value that is well written but is none of the values used here (a
number with a fraction or an exponent, a text with half a surrogate pair) is `foreign`: it may
stand where nobody looks.
-/

set_option autoImplicit false

namespace CardRules

/-- A value of the data format. -/
inductive Data where
  | null
  | bool (value : Bool)
  | int (value : Int)
  | text (value : String)
  | list (items : List Data)
  | object (members : List (String × Data))
  | foreign
deriving Repr, Inhabited

namespace Data

/-- A digit of a hexadecimal number. -/
def hexDigit (n : Nat) : Char := Nat.digitChar (n % 16)

/-- A character as it is written between quotes: quotes, backslashes and control characters are
escaped. -/
def escape (c : Char) : List Char :=
  if c = '"' then ['\\', '"']
  else if c = '\\' then ['\\', '\\']
  else if c = '\n' then ['\\', 'n']
  else if c = '\t' then ['\\', 't']
  else if c = '\r' then ['\\', 'r']
  else if c = '\x08' then ['\\', 'b']
  else if c = '\x0c' then ['\\', 'f']
  else if c.toNat < 0x20 then
    ['\\', 'u', '0', '0', hexDigit (c.toNat / 16), hexDigit c.toNat]
  else [c]

/-- A text in quotes. -/
def quote (s : String) : List Char := '"' :: s.toList.flatMap escape ++ ['"']

/-! ## Compact form -/

mutual

/-- A value without any space. -/
def compact : Data → List Char
  | null => "null".toList
  | bool true => "true".toList
  | bool false => "false".toList
  | int n => (toString n).toList
  | text s => quote s
  | list items => '[' :: compactItems items
  | object members => '{' :: compactMembers members
  | foreign => "null".toList

/-- The items of a list and its end. -/
def compactItems : List Data → List Char
  | [] => [']']
  | [d] => compact d ++ [']']
  | d :: items => compact d ++ ',' :: compactItems items

/-- The members of an object and its end. -/
def compactMembers : List (String × Data) → List Char
  | [] => ['}']
  | [(key, d)] => quote key ++ ':' :: compact d ++ ['}']
  | (key, d) :: members => quote key ++ ':' :: compact d ++ ',' :: compactMembers members

end

/-! ## Form for readers -/

/-- A line end and the spaces of a depth. -/
def newline (depth : Nat) : List Char := '\n' :: List.replicate (2 * depth) ' '

mutual

/-- A value with every item and member on a line of its own, indented by two spaces. -/
def pretty (depth : Nat) : Data → List Char
  | list (d :: items) => '[' :: prettyItems (depth + 1) (d :: items) ++ newline depth ++ [']']
  | object (member :: members) =>
    '{' :: prettyMembers (depth + 1) (member :: members) ++ newline depth ++ ['}']
  | d => compact d

/-- Items on lines of their own. -/
def prettyItems (depth : Nat) : List Data → List Char
  | [] => []
  | [d] => newline depth ++ pretty depth d
  | d :: items => newline depth ++ pretty depth d ++ ',' :: prettyItems depth items

/-- Members on lines of their own. -/
def prettyMembers (depth : Nat) : List (String × Data) → List Char
  | [] => []
  | [(key, d)] => newline depth ++ quote key ++ ':' :: ' ' :: pretty depth d
  | (key, d) :: members =>
    newline depth ++ quote key ++ ':' :: ' ' :: pretty depth d ++ ',' :: prettyMembers depth members

end

/-- A value as one line of text. -/
def line (d : Data) : String := String.ofList d.compact

/-- A value as text over several lines. -/
def block (d : Data) : String := String.ofList (d.pretty 0)

end Data

end CardRules
