import CardRules.Cost
import Mathlib.Algebra.Order.BigOperators.Group.List
import Mathlib.Algebra.Order.Ring.Int

/-!
# Costs together

Two costs make one, field by field (`combine`): flags are joined, slots of mana and cards to
discard are added up to 255, X symbols and life are added as the machine adds, and what is kept
word for word stands one after the other. A list of costs has one total (`total`), and a reading that
only ever adds to a cost comes to the total of what it adds (`foldl_eq_combine`). The order of the list
matters for what is kept word for word, and for nothing else (`amounts_total_of_perm`).
-/

set_option autoImplicit false

namespace CardRules

namespace Capped

theorem addByte_assoc (a b c : UInt8) : addByte (addByte a b) c = addByte a (addByte b c) := by
  rw [← UInt8.toNat_inj]
  simp only [toNat_addByte]
  omega

theorem addByte_comm (a b : UInt8) : addByte a b = addByte b a := by
  rw [← UInt8.toNat_inj, toNat_addByte, toNat_addByte, Nat.add_comm]

@[simp]
theorem addByte_zero (a : UInt8) : addByte a 0 = a := by
  rw [← UInt8.toNat_inj, toNat_addByte, UInt8.toNat_zero, Nat.add_zero]
  exact Nat.min_eq_right (Nat.le_of_lt_succ a.toNat_lt)

@[simp]
theorem zero_addByte (a : UInt8) : addByte 0 a = a := by
  rw [← UInt8.toNat_inj, toNat_addByte, UInt8.toNat_zero, Nat.zero_add]
  exact Nat.min_eq_right (Nat.le_of_lt_succ a.toNat_lt)

end Capped

namespace ManaCost

/-- The mana of two costs together. -/
def combine (a b : ManaCost) : ManaCost where
  generic := Capped.addByte a.generic b.generic
  white := Capped.addByte a.white b.white
  blue := Capped.addByte a.blue b.blue
  black := Capped.addByte a.black b.black
  red := Capped.addByte a.red b.red
  green := Capped.addByte a.green b.green
  colorless := Capped.addByte a.colorless b.colorless
  x := a.x + b.x

theorem amountOf_combine (a b : ManaCost) (color : Color) :
    (a.combine b).amountOf color = Capped.addByte (a.amountOf color) (b.amountOf color) := by
  cases color <;> rfl

theorem combine_assoc (a b c : ManaCost) : (a.combine b).combine c = a.combine (b.combine c) := by
  simp only [combine, Capped.addByte_assoc, UInt8.add_assoc]

theorem combine_comm (a b : ManaCost) : a.combine b = b.combine a := by
  simp only [combine, Capped.addByte_comm, UInt8.add_comm]

@[simp]
theorem combine_empty (a : ManaCost) : a.combine {} = a := by
  simp [combine]

@[simp]
theorem empty_combine (a : ManaCost) : combine {} a = a := by
  simp [combine]

theorem addColor_eq_combine (cost : ManaCost) (color : Color) (amount : UInt8) :
    cost.addColor color amount = cost.combine (addColor {} color amount) := by
  cases color <;> simp [addColor, combine, amountOf]

end ManaCost

namespace Cost

/-- Two costs together. -/
def combine (a b : Cost) : Cost where
  mana := a.mana.combine b.mana
  tap := a.tap || b.tap
  sacrifice := a.sacrifice || b.sacrifice
  discard := Capped.addByte a.discard b.discard
  life := a.life + b.life
  other := a.other ++ b.other

theorem combine_assoc (a b c : Cost) : (a.combine b).combine c = a.combine (b.combine c) := by
  simp only [combine, ManaCost.combine_assoc, Bool.or_assoc, Capped.addByte_assoc, Int32.add_assoc,
    List.append_assoc]

@[simp]
theorem combine_empty (a : Cost) : a.combine {} = a := by
  simp [combine]

@[simp]
theorem empty_combine (a : Cost) : combine {} a = a := by
  simp [combine]

/-- All these costs together. -/
def total (costs : List Cost) : Cost := costs.foldr combine {}

@[simp]
theorem total_singleton (cost : Cost) : total [cost] = cost := combine_empty cost

theorem total_append (costs more : List Cost) :
    total (costs ++ more) = (total costs).combine (total more) := by
  induction costs with
  | nil => exact (empty_combine _).symm
  | cons cost costs ih =>
    have hcons (rest : List Cost) : total (cost :: rest) = cost.combine (total rest) := rfl
    rw [List.cons_append, hcons, hcons, ih, combine_assoc]

theorem foldl_eq_combine {α : Type} {step : Cost → α → Cost} {asked : α → List Cost}
    (hstep : ∀ cost a, step cost a = cost.combine (total (asked a))) (as : List α) (cost : Cost) :
    as.foldl step cost = cost.combine (total (as.flatMap asked)) := by
  induction as generalizing cost with
  | nil => exact (combine_empty cost).symm
  | cons a as ih => rw [List.foldl_cons, ih, hstep, List.flatMap_cons, total_append, combine_assoc]

/-! ## The order of a total -/

/-- A cost but for what is kept word for word. -/
def amounts (cost : Cost) : Cost := { cost with other := [] }

theorem amounts_combine (a b : Cost) : (a.combine b).amounts = a.amounts.combine b.amounts := rfl

theorem amounts_combine_comm (a b : Cost) :
    a.amounts.combine b.amounts = b.amounts.combine a.amounts := by
  simp only [combine, amounts, ManaCost.combine_comm, Bool.or_comm, Capped.addByte_comm,
    Int32.add_comm]

theorem amounts_total_of_perm {costs more : List Cost} (h : costs.Perm more) :
    (total costs).amounts = (total more).amounts := by
  have hcons (cost : Cost) (rest : List Cost) :
      (total (cost :: rest)).amounts = cost.amounts.combine (total rest).amounts :=
    amounts_combine cost (total rest)
  induction h with
  | nil => rfl
  | cons cost _ ih => rw [hcons, hcons, ih]
  | swap a b rest =>
    rw [hcons, hcons, hcons, hcons, ← combine_assoc, ← combine_assoc, amounts_combine_comm a b]
  | trans _ _ ih ih' => rw [ih, ih']

/-! ## The fields of a total -/

variable (costs : List Cost)

theorem other_total : (total costs).other = costs.flatMap (·.other) := by
  induction costs with
  | nil => rfl
  | cons cost costs ih => exact congrArg (cost.other ++ ·) ih

theorem perm_other_total {costs more : List Cost} (h : costs.Perm more) :
    (total costs).other.Perm (total more).other := by
  rw [other_total, other_total]
  exact h.flatMap_right _

/-- A flag that is joined is set if one of the costs sets it. -/
theorem flag_total (flag : Cost → Bool) (hempty : flag {} = false)
    (hflag : ∀ a b, flag (a.combine b) = (flag a || flag b)) :
    flag (total costs) = costs.any flag := by
  induction costs with
  | nil => exact hempty
  | cons cost costs ih => exact (hflag cost (total costs)).trans (congrArg (flag cost || ·) ih)

/-- A slot whose amounts are added up to 255 holds their sum, or 255 if that is less. -/
theorem toNat_slot_total (slot : Cost → UInt8) (hempty : slot {} = 0)
    (hslot : ∀ a b, slot (a.combine b) = Capped.addByte (slot a) (slot b)) :
    (slot (total costs)).toNat = min 255 (costs.map fun cost => (slot cost).toNat).sum := by
  induction costs with
  | nil => simp [total, hempty]
  | cons cost costs ih =>
    have hcons : total (cost :: costs) = cost.combine (total costs) := rfl
    rw [hcons, hslot, Capped.toNat_addByte, ih, List.map_cons, List.sum_cons]
    omega

theorem toNat_x_total :
    (total costs).mana.x.toNat = (costs.map fun cost => cost.mana.x.toNat).sum % 256 := by
  induction costs with
  | nil => rfl
  | cons cost costs ih =>
    have hcons : (total (cost :: costs)).mana.x = cost.mana.x + (total costs).mana.x := rfl
    rw [hcons, UInt8.toNat_add, ih, List.map_cons, List.sum_cons]
    omega

theorem toInt_life_total :
    (total costs).life.toInt = (costs.map fun cost : Cost => cost.life.toInt).sum.bmod 4294967296 := by
  induction costs with
  | nil => rfl
  | cons cost costs ih =>
    have hcons : (total (cost :: costs)).life = cost.life + (total costs).life := rfl
    have hadd : (cost.life + (total costs).life).toInt =
        (cost.life.toInt + (total costs).life.toInt).bmod 4294967296 := Int32.toInt_add _ _
    rw [hcons, hadd, ih, List.map_cons, List.sum_cons, Int.add_bmod_bmod]

end Cost

end CardRules
