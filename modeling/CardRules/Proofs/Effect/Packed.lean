import CardRules.Effect.Pump

/-!
# Packed changes of power and toughness

Every packed number is a hundred times the power plus the toughness that are read from it, and the toughness
lies from -50 to 49 (`sum_eq`, `toughness_range`). Only one pair does that for a number (`eq_of_sum_eq`). So a
change that has a packed form is read back from it, and a number is packed again from what was read, but for
the toughness -50, which has no packed form (`packing_lossless`).
-/

set_option autoImplicit false

namespace CardRules.Pump

/-- A number within the range of a signed 32-bit word. -/
def InWord (n : Int) : Prop := Int32.minValue.toInt ≤ n ∧ n ≤ Int32.maxValue.toInt

theorem inWord_iff {n : Int} : InWord n ↔ -2147483648 ≤ n ∧ n ≤ 2147483647 := by
  simp [InWord, Int32.toInt_maxValue]

theorem fits_iff {n : Int} : fits n = true ↔ InWord n := by
  simp [fits, inWord_iff]

theorem inWord_toInt (word : Int32) : InWord word.toInt :=
  ⟨word.minValue_le_toInt, word.toInt_le⟩

theorem InWord.toInt_ofInt {n : Int} (h : InWord n) : (Int32.ofInt n).toInt = n := by
  obtain ⟨hlow, hhigh⟩ := inWord_iff.mp h
  apply Int32.toInt_ofInt_of_le
  · omega
  · omega

/-! ## Packing -/

theorem pack?_eq_some_iff {power toughness packed : Int32} :
    pack? power toughness = some packed ↔
      (-49 ≤ toughness.toInt ∧ toughness.toInt ≤ 49) ∧ InWord (100 * power.toInt) ∧
        packed.toInt = 100 * power.toInt + toughness.toInt := by
  rw [pack?]
  rw [Option.ite_none_right_eq_some, Option.some.injEq, fits_iff, fits_iff, maxToughness]
  constructor
  · rintro ⟨⟨hlow, hhigh, hproduct, hsum⟩, rfl⟩
    exact ⟨⟨hlow, hhigh⟩, hproduct, hsum.toInt_ofInt⟩
  · rintro ⟨⟨hlow, hhigh⟩, hproduct, hsum⟩
    have hword : InWord (100 * power.toInt + toughness.toInt) := hsum ▸ inWord_toInt packed
    refine ⟨⟨hlow, hhigh, hproduct, hword⟩, ?_⟩
    rw [← hsum, Int32.ofInt_toInt]

theorem exists_pack?_iff {power toughness : Int32} :
    (∃ packed, pack? power toughness = some packed) ↔
      (-49 ≤ toughness.toInt ∧ toughness.toInt ≤ 49) ∧ InWord (100 * power.toInt) ∧
        InWord (100 * power.toInt + toughness.toInt) := by
  simp only [pack?_eq_some_iff]
  constructor
  · rintro ⟨packed, hrange, hproduct, hsum⟩
    exact ⟨hrange, hproduct, hsum ▸ inWord_toInt packed⟩
  · rintro ⟨hrange, hproduct, hword⟩
    exact ⟨_, hrange, hproduct, hword.toInt_ofInt⟩

/-! ## Reading -/

theorem remainder_range (packed : Int32) :
    -100 < packed.toInt.tmod 100 ∧ packed.toInt.tmod 100 < 100 :=
  ⟨Int.lt_tmod_of_pos _ (by decide), Int.tmod_lt_of_pos _ (by decide)⟩

/-- The remainder, which has the sign of the number, is moved by whole hundreds only. -/
theorem exists_hundreds (packed : Int32) :
    (∃ hundreds, packed.toInt = 100 * hundreds + toughness packed) ∧
      -50 ≤ toughness packed ∧ toughness packed ≤ 49 := by
  have hsplit : 100 * packed.toInt.tdiv 100 + packed.toInt.tmod 100 = packed.toInt :=
    Int.mul_tdiv_add_tmod _ _
  have hremainder := remainder_range packed
  -- the number that is reduced a second time is positive
  have hmoved : (packed.toInt.tmod 100 + 150).tmod 100 = (packed.toInt.tmod 100 + 150) % 100 :=
    Int.tmod_eq_emod_of_nonneg (by omega)
  rw [toughness, hmoved]
  refine ⟨⟨packed.toInt.tdiv 100 - 1 + (packed.toInt.tmod 100 + 150) / 100, ?_⟩, ?_, ?_⟩
  · omega
  · omega
  · omega

theorem toughness_range (packed : Int32) : -50 ≤ toughness packed ∧ toughness packed ≤ 49 :=
  (exists_hundreds packed).2

theorem sum_eq (packed : Int32) : 100 * power packed + toughness packed = packed.toInt := by
  obtain ⟨hundreds, hsplit⟩ := (exists_hundreds packed).1
  have hpower : power packed = hundreds := by
    rw [power, hsplit, Int.add_sub_cancel, Int.mul_tdiv_cancel_left _ (by decide)]
  rw [hpower, hsplit]

/-- A number has one power and one toughness from -50 to 49. -/
theorem eq_of_sum_eq {p t p' t' : Int} (h : 100 * p + t = 100 * p' + t') (ht : -50 ≤ t ∧ t ≤ 49)
    (ht' : -50 ≤ t' ∧ t' ≤ 49) : p = p' ∧ t = t' := by
  omega

theorem inWord_power (packed : Int32) : InWord (100 * power packed) := by
  have hsum := sum_eq packed
  have hrange := toughness_range packed
  have hword := inWord_iff.mp (inWord_toInt packed)
  rw [inWord_iff]
  -- the ends of the range are 47 and 48 away from a hundred
  omega

/-- Nothing is lost when the two numbers are kept as words. -/
theorem toInt_unpack (packed : Int32) :
    (unpack packed).1.toInt = power packed ∧ (unpack packed).2.toInt = toughness packed := by
  have hrange := toughness_range packed
  have hword := inWord_iff.mp (inWord_power packed)
  constructor
  · apply InWord.toInt_ofInt
    rw [inWord_iff]
    omega
  · apply InWord.toInt_ofInt
    rw [inWord_iff]
    omega

theorem unpack_of_pack? {power toughness packed : Int32} (h : pack? power toughness = some packed) :
    unpack packed = (power, toughness) := by
  obtain ⟨⟨hlow, hhigh⟩, -, hsum⟩ := pack?_eq_some_iff.mp h
  obtain ⟨hpower, htoughness⟩ := toInt_unpack packed
  have hsame : Pump.power packed = power.toInt ∧ Pump.toughness packed = toughness.toInt :=
    eq_of_sum_eq ((sum_eq packed).trans hsum) (toughness_range packed) (by omega)
  apply Prod.ext
  · exact Int32.toInt_inj.mp (hpower.trans hsame.1)
  · exact Int32.toInt_inj.mp (htoughness.trans hsame.2)

theorem pack?_unpack (packed : Int32) :
    pack? (unpack packed).1 (unpack packed).2 =
      if toughness packed = -50 then none else some packed := by
  obtain ⟨hpower, htoughness⟩ := toInt_unpack packed
  have hrange := toughness_range packed
  split
  · rename_i hfifty
    rw [Option.eq_none_iff_forall_ne_some]
    intro other hother
    have hlow := (pack?_eq_some_iff.mp hother).1.1
    omega
  · rename_i hfifty
    rw [pack?_eq_some_iff, hpower, htoughness, sum_eq]
    exact ⟨by omega, inWord_power packed, rfl⟩

/-- A change of power and toughness is packed exactly if the toughness is at most 49 away from zero and neither
a hundred times the power nor the sum leaves the range of a word, and then it is read back. Every packed number
is read without overflow as a pair whose sum it is, and is packed again from that pair unless the toughness is
-50. -/
theorem packing_lossless :
    (∀ power toughness : Int32,
      ((∃ packed, pack? power toughness = some packed) ↔
        (-49 ≤ toughness.toInt ∧ toughness.toInt ≤ 49) ∧ InWord (100 * power.toInt) ∧
          InWord (100 * power.toInt + toughness.toInt)) ∧
      ∀ packed, pack? power toughness = some packed → unpack packed = (power, toughness)) ∧
    ∀ packed power toughness : Int32, unpack packed = (power, toughness) →
      100 * power.toInt + toughness.toInt = packed.toInt ∧
      (-50 ≤ toughness.toInt ∧ toughness.toInt ≤ 49) ∧
      (InWord (packed.toInt.tmod 100 + 150) ∧ InWord (100 * power.toInt) ∧
        power.toInt = Pump.power packed ∧ toughness.toInt = Pump.toughness packed) ∧
      pack? power toughness = if toughness.toInt = -50 then none else some packed := by
  refine ⟨fun power toughness => ⟨exists_pack?_iff, fun packed => unpack_of_pack?⟩, ?_⟩
  intro packed power toughness hread
  have hagain := pack?_unpack packed
  obtain ⟨hpower, htoughness⟩ := toInt_unpack packed
  rw [hread] at hagain hpower htoughness
  dsimp only at hagain hpower htoughness
  have hmoved : InWord (packed.toInt.tmod 100 + 150) := by
    have hremainder := remainder_range packed
    rw [inWord_iff]
    omega
  rw [hpower, htoughness]
  exact ⟨sum_eq packed, toughness_range packed, ⟨hmoved, inWord_power packed, rfl, rfl⟩, hagain⟩

/-- Two negative changes, and the least number, whose toughness is -48; a number with the toughness -50 is not
packed again. -/
theorem packing_lossless_negative :
    pack? (-7) (-49) = some (-749) ∧ unpack (-749) = (-7, -49) ∧
      unpack Int32.minValue = (-21474836, -48) ∧
      pack? (-21474836) (-48) = some Int32.minValue ∧
      unpack 150 = (2, -50) ∧ pack? 2 (-50) = none := by
  have hpack : pack? (-7) (-49) = some (-749) := by decide
  have hleast : unpack Int32.minValue = (-21474836, -48) := by decide
  have hfifty : unpack 150 = (2, -50) := by decide
  obtain ⟨hpacked, hread⟩ := packing_lossless
  obtain ⟨-, -, -, hagain⟩ := hread _ _ _ hleast
  obtain ⟨-, -, -, hnone⟩ := hread _ _ _ hfifty
  exact ⟨hpack, (hpacked (-7) (-49)).2 _ hpack, hleast, hagain, hfifty, hnone⟩

end CardRules.Pump
