import CardRules.Data
import CardRules.Data.Token

/-!
# Reading data

A text in JSON is read token by token, with a stack of the lists and objects that are still open.
Nothing but blanks may follow the value.
-/

set_option autoImplicit false

namespace CardRules.Data

/-- A list or an object that is still open, with what it holds so far, last first. An object is
unsound if one of its keys spells nothing. -/
inductive Frame where
  | list (items : List Data)
  | object (members : List (String × Data)) (key : String) (sound : Bool)
deriving Repr

/-- What may come next. -/
inductive Want where
  | value
  /-- An item, or the end of the list. -/
  | item
  | key
  /-- A key, or the end of the object. -/
  | member
  | colon
  /-- A comma, or the end of what is open. -/
  | more
  | done (value : Data)
deriving Repr

/-- The open lists and objects, innermost first, and what may come next. -/
structure Reading where
  frames : List Frame := []
  want : Want := .value
deriving Repr

namespace Reading

/-- The reading after a complete value. -/
def deliver (value : Data) : List Frame → Reading
  | [] => { want := .done value }
  | .list items :: frames => { frames := .list (value :: items) :: frames, want := .more }
  | .object members key sound :: frames =>
    { frames := .object ((key, value) :: members) "" sound :: frames, want := .more }

/-- The reading after a token that starts or is a value. -/
def takeValue (frames : List Frame) : Token → Option Reading
  | .openList => some { frames := .list [] :: frames, want := .item }
  | .openObject => some { frames := .object [] "" true :: frames, want := .member }
  | .null => some (deliver .null frames)
  | .bool b => some (deliver (.bool b) frames)
  | .int n => some (deliver (.int n) frames)
  | .text s => some (deliver (.text s) frames)
  | .fraction | .broken => some (deliver .foreign frames)
  | _ => none

/-- The reading after a key. -/
def takeKey : List Frame → Token → Option Reading
  | .object members _ sound :: frames, .text key =>
    some { frames := .object members key sound :: frames, want := .colon }
  | .object members _ _ :: frames, .broken =>
    some { frames := .object members "" false :: frames, want := .colon }
  | _, _ => none

/-- The reading after the end of what is open. -/
def close : List Frame → Token → Option Reading
  | .list items :: frames, .closeList => some (deliver (.list items.reverse) frames)
  | .object members _ sound :: frames, .closeObject =>
    some (deliver (if sound then .object members.reverse else .foreign) frames)
  | _, _ => none

/-- The reading after a comma, or after the end of what is open. -/
def takeMore (frames : List Frame) (token : Token) : Option Reading :=
  if token = .comma then
    match frames with
    | .list _ :: _ => some { frames, want := .value }
    | .object _ _ _ :: _ => some { frames, want := .key }
    | [] => none
  else close frames token

/-- The reading after one more token. -/
def step (reading : Reading) (token : Token) : Option Reading :=
  match reading.want with
  | .value => takeValue reading.frames token
  | .item => close reading.frames token <|> takeValue reading.frames token
  | .key => takeKey reading.frames token
  | .member => close reading.frames token <|> takeKey reading.frames token
  | .colon => if token = .colon then some { reading with want := .value } else none
  | .more => takeMore reading.frames token
  | .done _ => none

/-- The value of a reading that is complete. -/
def value? (reading : Reading) : Option Data :=
  match reading.want with
  | .done value => some value
  | _ => none

end Reading

/-- Reads the value that a text writes. -/
def read? (s : String) : Option Data := do
  let tokens ← tokens? s.toList
  let reading ← tokens.foldlM Reading.step {}
  reading.value?

end CardRules.Data
