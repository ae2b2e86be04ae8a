import CardRules.Data.Written

/-!
# Values as data

How values of other types are kept as data, and which data stand for one. Numbers have to lie in
the range of their type. A structure is an object with its fields by name; reading one disregards
other members, refuses a field that occurs twice, and also takes a list with the fields in order. A
constant of an enumeration is its name, alone or as the key of an object with the value null.
-/

set_option autoImplicit false

namespace CardRules

/-- Values of a type as data. -/
class Serial (α : Type) where
  encode : α → Data
  decode : Data → Option α

export Serial (encode decode)

instance : Serial Bool where
  encode := .bool
  decode
    | .bool b => some b
    | _ => none

instance : Serial String where
  encode := .text
  decode
    | .text s => some s
    | _ => none

/-- The integer that some data are, if it lies between two bounds. -/
def Data.intBetween? (low high : Int) : Data → Option Int
  | .int n => if low ≤ n ∧ n ≤ high then some n else none
  | _ => none

instance : Serial UInt8 where
  encode n := .int n.toNat
  decode d := (d.intBetween? 0 255).map fun n => UInt8.ofNat n.toNat

instance : Serial UInt32 where
  encode n := .int n.toNat
  decode d := (d.intBetween? 0 4294967295).map fun n => UInt32.ofNat n.toNat

instance : Serial Int8 where
  encode n := .int n.toInt
  decode d := (d.intBetween? (-128) 127).map Int8.ofInt

instance : Serial Int32 where
  encode n := .int n.toInt
  decode d := (d.intBetween? (-2147483648) 2147483647).map Int32.ofInt

instance {α : Type} [Serial α] : Serial (Option α) where
  encode
    | some a => encode a
    | none => .null
  decode
    | .null => some none
    | d => (decode d).map some

instance {α : Type} [Serial α] : Serial (List α) where
  encode items := .list (items.map encode)
  decode
    | .list items => items.mapM decode
    | _ => none

instance {α β : Type} [Serial α] [Serial β] : Serial (α × β) where
  encode pair := .list [encode pair.1, encode pair.2]
  decode
    | .list [a, b] => do pure (← decode a, ← decode b)
    | _ => none

/-! ## Enumerations -/

namespace Data

/-- The name that a constant of an enumeration is kept as. -/
def constant? : Data → Option String
  | .text s => some s
  | .object [(key, .null)] => some key
  | _ => none

/-- The constant, among some, whose name the data are. -/
def constantOf? {α : Type} (all : List α) (name : α → String) (d : Data) : Option α :=
  d.constant?.bind fun s => all.find? fun a => name a == s

/-- The name and the content of a constructor with content. -/
def tagged? : Data → Option (String × Data)
  | .object [(key, d)] => some (key, d)
  | _ => none

end Data

/-! ## Structures -/

/-- The fields of a structure, by name. -/
structure Fields where
  members : List (String × Data)
deriving Repr

namespace Data

/-- The members of an object whose keys are among some names, if none occurs twice. -/
def members? (names : List String) (members : List (String × Data)) : Option Fields :=
  let known := members.filter fun member => names.contains member.1
  if (known.map (·.1)).Nodup then some ⟨known⟩ else none

/-- The fields of a structure with these field names. -/
def fields? (names : List String) : Data → Option Fields
  | .object members => members? names members
  | .list items => if items.length = names.length then some ⟨names.zip items⟩ else none
  | _ => none

/-- The fields of a structure with these field names, of which any may be missing. -/
def someFields? (names : List String) : Data → Option Fields
  | .object members => members? names members
  | .list items => if items.length ≤ names.length then some ⟨names.zip items⟩ else none
  | _ => none

end Data

namespace Fields

variable {α : Type} [Serial α]

/-- A field that has to be there. -/
def need (fields : Fields) (name : String) : Option α := (fields.members.lookup name).bind decode

/-- A field whose value is missing if it is not there. -/
def want (fields : Fields) (name : String) : Option (Option α) :=
  match fields.members.lookup name with
  | none => some none
  | some d => decode d

/-- A field that has a value of its own if it is not there. -/
def orElse (fields : Fields) (name : String) (default : α) : Option α :=
  match fields.members.lookup name with
  | none => some default
  | some d => decode d

end Fields

end CardRules
