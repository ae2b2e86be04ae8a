/-!
# Arithmetic that stops at the ends of its range

Mana amounts and discards are bytes, life and damage are signed 32-bit words. Adding to them
stops at the largest (or smallest) value instead of going round.
-/

set_option autoImplicit false

namespace CardRules.Capped

/-- The sum of two bytes, at most 255. -/
def addByte (a b : UInt8) : UInt8 := UInt8.ofNat (min 255 (a.toNat + b.toNat))

/-- The signed word nearest to a number. -/
def toWord (n : Int) : Int32 := Int32.ofInt (max (-2147483648) (min 2147483647 n))

/-- The sum of two signed words, kept within their range. -/
def addWord (a b : Int32) : Int32 := toWord (a.toInt + b.toInt)

/-- The difference of two signed words, kept within their range. -/
def subWord (a b : Int32) : Int32 := toWord (a.toInt - b.toInt)

theorem toNat_addByte (a b : UInt8) : (addByte a b).toNat = min 255 (a.toNat + b.toNat) := by
  simp only [addByte, UInt8.toNat_ofNat']
  omega

theorem toInt_toWord (n : Int) : (toWord n).toInt = max (-2147483648) (min 2147483647 n) := by
  apply Int32.toInt_ofInt_of_le <;> omega

end CardRules.Capped
