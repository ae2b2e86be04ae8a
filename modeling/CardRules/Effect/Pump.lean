/-!
# Packed power and toughness

A change of power and toughness is kept in one number, a hundred times the power plus the
toughness. The toughness is at most 49 away from zero, so that the pair can be read back.
-/

set_option autoImplicit false

namespace CardRules.Pump

/-- The largest toughness change that can be packed, in either direction. -/
def maxToughness : Int := 49

/-- Whether a number fits a signed 32-bit word. -/
def fits (n : Int) : Bool := -2147483648 ≤ n && n ≤ 2147483647

/-- The packed form of a power and a toughness change, if there is one. -/
def pack? (power toughness : Int32) : Option Int32 :=
  let p := 100 * power.toInt
  let t := toughness.toInt
  if -maxToughness ≤ t ∧ t ≤ maxToughness ∧ fits p ∧ fits (p + t) then some (Int32.ofInt (p + t))
  else none

/-- The toughness change in a packed number: its remainder, shifted to lie from -50 to 49. -/
def toughness (packed : Int32) : Int := (packed.toInt.tmod 100 + 150).tmod 100 - 50

/-- The power change in a packed number. -/
def power (packed : Int32) : Int := (packed.toInt - toughness packed).tdiv 100

/-- The power and toughness changes in a packed number. -/
def unpack (packed : Int32) : Int32 × Int32 :=
  (Int32.ofInt (power packed), Int32.ofInt (toughness packed))

end CardRules.Pump
