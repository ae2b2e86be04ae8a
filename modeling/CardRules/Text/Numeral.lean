/-!
# Decimal numerals

Whole numbers in decimal: how they are written, and which texts are read as a number of a given
range. A sign may stand in front (a minus only where the range has negative numbers), the rest
is one or more ASCII digits; a number outside the range is no number.
-/

set_option autoImplicit false

namespace CardRules.Text

/-- One or more ASCII digits, read in base ten. -/
def digits? (s : List Char) : Option Nat :=
  if s ≠ [] ∧ s.all Char.isDigit then some (Nat.ofDigitChars 10 s 0) else none

/-- A whole number with an optional plus sign. -/
def natural? : List Char → Option Nat
  | '+' :: s => digits? s
  | s => digits? s

/-- A whole number with an optional sign. -/
def integer? : List Char → Option Int
  | '-' :: s => (digits? s).map fun n => -(n : Int)
  | s => (natural? s).map Int.ofNat

/-- A number from 0 to 255. -/
def byte? (s : List Char) : Option UInt8 := do
  let n ← natural? s
  if n ≤ 255 then some (UInt8.ofNat n) else none

/-- A number that fits a 32-bit word without sign. -/
def word? (s : List Char) : Option UInt32 := do
  let n ← natural? s
  if n ≤ 4294967295 then some (UInt32.ofNat n) else none

/-- A number from -128 to 127. -/
def small? (s : List Char) : Option Int8 := do
  let n ← integer? s
  if -128 ≤ n ∧ n ≤ 127 then some (Int8.ofInt n) else none

/-- A number that fits a 32-bit word with sign. -/
def int? (s : List Char) : Option Int32 := do
  let n ← integer? s
  if -2147483648 ≤ n ∧ n ≤ 2147483647 then some (Int32.ofInt n) else none

/-- The decimal digits of a number. -/
def digits (n : Nat) : List Char := Nat.toDigits 10 n

/-- A number with its sign always written. -/
def signed (n : Int) : String := if n < 0 then toString n else "+" ++ toString n

theorem ofDigitChars_digits (n : Nat) : Nat.ofDigitChars 10 (digits n) 0 = n :=
  Nat.ofDigitChars_toDigits (by decide) (by decide)

theorem isDigit_of_mem_digits {n : Nat} {c : Char} (h : c ∈ digits n) : c.isDigit = true :=
  Nat.isDigit_of_mem_toDigits (by decide : 0 < 10) (by decide) h

theorem digits?_digits (n : Nat) : digits? (digits n) = some n := by
  have hdigits : (digits n).all Char.isDigit = true :=
    List.all_eq_true.mpr fun _ hc => isDigit_of_mem_digits hc
  rw [digits?, if_pos ⟨Nat.toDigits_ne_nil, hdigits⟩, ofDigitChars_digits]

/-- A number is not written with a sign. -/
theorem digits_ne_cons {n : Nat} {sign : Char} (h : sign.isDigit = false) (s : List Char) :
    digits n ≠ sign :: s := by
  intro hsign
  have hdigit : sign.isDigit = true := isDigit_of_mem_digits (hsign ▸ List.mem_cons_self)
  exact Bool.false_ne_true (h.symm.trans hdigit)

theorem natural?_digits (n : Nat) : natural? (digits n) = some n := by
  unfold natural?
  split
  · rename_i s hplus
    exact absurd hplus (digits_ne_cons (by decide) s)
  · exact digits?_digits n

theorem integer?_digits (n : Nat) : integer? (digits n) = some (n : Int) := by
  unfold integer?
  split
  · rename_i s hminus
    exact absurd hminus (digits_ne_cons (by decide) s)
  · rw [natural?_digits]
    rfl

theorem byte?_digits (n : UInt8) : byte? (digits n.toNat) = some n := by
  have hsmall : n.toNat ≤ 255 := Nat.le_of_lt_succ n.toNat_lt
  rw [byte?, natural?_digits, Option.bind_eq_bind, Option.bind_some, if_pos hsmall,
    UInt8.ofNat_toNat]

/-- A number that is not negative is read from its digits. -/
theorem int?_digits {n : Int32} (h : 0 ≤ n.toInt) : int? (digits n.toInt.toNat) = some n := by
  have hinteger : integer? (digits n.toInt.toNat) = some n.toInt :=
    (integer?_digits _).trans (congrArg some (Int.toNat_of_nonneg h))
  have hlow := n.le_toInt
  have hhigh := n.toInt_lt
  rw [int?, hinteger, Option.bind_eq_bind, Option.bind_some, if_pos (by omega), Int32.ofInt_toInt]

theorem toList_toString_ofNat (n : Nat) : (toString (n : Int)).toList = digits n := by
  show (Nat.repr n).toList = digits n
  rw [Nat.repr_eq_ofList_toDigits, String.toList_ofList, digits]

theorem toList_toString_negSucc (n : Nat) :
    (toString (Int.negSucc n)).toList = '-' :: digits (n + 1) := by
  show ("-" ++ Nat.repr (n + 1)).toList = '-' :: digits (n + 1)
  rw [String.toList_append, Nat.repr_eq_ofList_toDigits, String.toList_ofList, String.toList_ofList]
  rfl

end CardRules.Text
