import CardRules.Mana.Pool
import Mathlib.Algebra.BigOperators.Group.List.Basic
import Mathlib.Algebra.GroupWithZero.Nat

/-!
# Paying mana

What a payment takes out of a pool. Sums of mana are bytes that stop at 255, so a pool may hold more
than its `total` says and a cost may ask for more than its `manaValue`. Counted without that limit, a
pool (`size`) is down by just the generic and the colored mana of what it has paid, if these come to
no more than 255 (`size_of_pay`).
-/

set_option autoImplicit false

namespace CardRules

/-- A sum of bytes that stops at 255 is the sum, or 255 if that is less. -/
theorem Capped.toNat_foldl_addByte (amount : Color → UInt8) (colors : List Color) (start : UInt8) :
    (colors.foldl (fun sum color => addByte sum (amount color)) start).toNat =
      min 255 (start.toNat + (colors.map fun color => (amount color).toNat).sum) := by
  induction colors generalizing start with
  | nil =>
    have hstart : start.toNat < 256 := start.toNat_lt
    rw [List.foldl_nil, List.map_nil, List.sum_nil]
    omega
  | cons color colors ih =>
    rw [List.foldl_cons, ih, toNat_addByte, List.map_cons, List.sum_cons]
    omega

namespace ManaCost

variable {cost mana : ManaCost} {value : UInt32}

/-- The mana that has to be of a color or colorless. -/
def colored (cost : ManaCost) : Nat := (Color.all.map fun color => (cost.amountOf color).toNat).sum

/-- What the generic part comes to with a value of X. -/
def due (cost : ManaCost) (value : UInt32) : Nat := cost.generic.toNat + value.toNat * cost.x.toNat

theorem toNat_manaValue (cost : ManaCost) :
    cost.manaValue.toNat = min 255 (cost.generic.toNat + cost.colored) :=
  Capped.toNat_foldl_addByte cost.amountOf Color.all cost.generic

theorem colored_eq_zero_iff : cost.colored = 0 ↔ ∀ color, cost.amountOf color = 0 := by
  simp only [colored, Color.all, List.map_cons, List.map_nil, List.sum_cons, List.sum_nil,
    Nat.add_eq_zero_iff, ← UInt8.toNat_inj, UInt8.toNat_zero]
  constructor
  · rintro ⟨hw, hu, hb, hr, hg, hc, -⟩ (_ | _) <;> assumption
  · exact fun h => ⟨h _, h _, h _, h _, h _, h _, trivial⟩

theorem isFree_iff :
    cost.isFree = true ↔ cost.generic = 0 ∧ (∀ color, cost.amountOf color = 0) ∧ cost.x = 0 := by
  have hvalue : cost.manaValue = 0 ↔ cost.generic = 0 ∧ ∀ color, cost.amountOf color = 0 := by
    rw [← colored_eq_zero_iff, ← UInt8.toNat_inj, ← UInt8.toNat_inj, toNat_manaValue]
    simp only [UInt8.toNat_zero]
    omega
  have hx : cost.hasX = false ↔ cost.x = 0 := by
    rw [hasX, decide_eq_false_iff_not, UInt8.lt_iff_toNat_lt, ← UInt8.toNat_inj, UInt8.toNat_zero]
    omega
  rw [isFree, Bool.and_eq_true, beq_iff_eq, Bool.not_eq_true', hvalue, hx, and_assoc]

/-- A free cost has nothing in it. -/
theorem eq_empty_of_isFree (h : cost.isFree = true) : cost = {} := by
  obtain ⟨hgeneric, hcolored, hx⟩ := isFree_iff.mp h
  have hwhite := hcolored .white
  have hblue := hcolored .blue
  have hblack := hcolored .black
  have hred := hcolored .red
  have hgreen := hcolored .green
  have hcolorless := hcolored .colorless
  cases cost
  simp_all [amountOf]

/-- X is folded into the generic part if there is room for it. -/
theorem withX_eq_some_iff : cost.withX value = some mana ↔
    cost.due value ≤ 255 ∧ mana = { cost with generic := UInt8.ofNat (cost.due value), x := 0 } := by
  unfold withX due
  dsimp only
  split
  · rename_i hfits
    rw [Option.some_inj, eq_comm]
    exact (and_iff_right hfits).symm
  · rename_i hexcess
    exact ⟨nofun, fun h => absurd h.1 hexcess⟩

theorem withX_eq_none_iff : cost.withX value = none ↔ 255 < cost.due value := by
  rw [Option.eq_none_iff_forall_ne_some, ← Nat.not_le]
  constructor
  · intro h hfits
    exact h _ (withX_eq_some_iff.mpr ⟨hfits, rfl⟩)
  · intro h mana hmana
    exact h (withX_eq_some_iff.mp hmana).1

theorem withX_zero (cost : ManaCost) : cost.withX 0 = some cost.withoutX := by
  have hdue : cost.due 0 = cost.generic.toNat := by
    rw [due, UInt32.toNat_zero, Nat.zero_mul, Nat.add_zero]
  rw [withX_eq_some_iff, hdue, UInt8.ofNat_toNat]
  exact ⟨Nat.le_of_lt_succ cost.generic.toNat_lt, rfl⟩

/-- With X folded in the generic part is what it comes to, and the rest is as it was. -/
theorem due_of_withX (h : cost.withX value = some mana) :
    mana.generic.toNat = cost.due value ∧ mana.colored = cost.colored := by
  obtain ⟨hfits, rfl⟩ := withX_eq_some_iff.mp h
  exact ⟨UInt8.toNat_ofNat_of_lt' (Nat.lt_succ_of_le hfits), rfl⟩

/-- With one X symbol or more, an X that fits is a byte itself. -/
theorem small_of_withX (hx : 0 < cost.x) (h : cost.withX value = some mana) : value.toNat ≤ 255 := by
  have hfits : cost.due value ≤ 255 := by
    rw [← (due_of_withX h).1]
    exact Nat.le_of_lt_succ mana.generic.toNat_lt
  calc value.toNat ≤ value.toNat * cost.x.toNat :=
        Nat.le_mul_of_pos_right _ (UInt8.lt_iff_toNat_lt.mp hx)
    _ ≤ cost.due value := Nat.le_add_left _ _
    _ ≤ 255 := hfits

end ManaCost

namespace ManaPool

variable {pool rest : ManaPool} {mana : ManaCost}

theorem amountOf_set (pool : ManaPool) (color other : Color) (amount : UInt8) :
    (pool.set color amount).amountOf other = if other = color then amount else pool.amountOf other := by
  cases color <;> cases other <;> rfl

theorem amountOf_spendColored (pool : ManaPool) (cost : ManaCost) (color : Color) :
    (pool.spendColored cost).amountOf color = pool.amountOf color - cost.amountOf color := by
  cases color <;> rfl

/-- The mana of some colors together. -/
def among (pool : ManaPool) (colors : List Color) : Nat :=
  (colors.map fun color => (pool.amountOf color).toNat).sum

/-- All mana together. -/
def size (pool : ManaPool) : Nat := pool.among Color.all

theorem toNat_total (pool : ManaPool) : pool.total.toNat = min 255 pool.size := by
  have htotal := Capped.toNat_foldl_addByte pool.amountOf Color.all 0
  rw [UInt8.toNat_zero, Nat.zero_add] at htotal
  exact htotal

theorem among_cons (pool : ManaPool) (color : Color) (colors : List Color) :
    pool.among (color :: colors) = (pool.amountOf color).toNat + pool.among colors := by
  rw [among, List.map_cons, List.sum_cons, among]

theorem among_set_of_notMem {color : Color} {colors : List Color} (h : color ∉ colors)
    (pool : ManaPool) (amount : UInt8) : (pool.set color amount).among colors = pool.among colors := by
  refine congrArg List.sum (List.map_congr_left fun other hother => ?_)
  rw [amountOf_set, if_neg]
  rintro rfl
  exact h hother

theorem amountOf_spendGeneric_of_notMem {color : Color} {colors : List Color} (h : color ∉ colors)
    (pool : ManaPool) (amount : UInt8) :
    (pool.spendGeneric amount colors).amountOf color = pool.amountOf color := by
  induction colors generalizing pool amount with
  | nil => rfl
  | cons first colors ih =>
    obtain ⟨hfirst, hrest⟩ := List.ne_and_not_mem_of_not_mem_cons h
    rw [spendGeneric, ih hrest, amountOf_set, if_neg hfirst]

/-- Generic mana is taken from the given colors, as much as there is of them. -/
theorem among_spendGeneric {colors : List Color} (hdistinct : colors.Nodup) (pool : ManaPool)
    (amount : UInt8) :
    (pool.spendGeneric amount colors).among colors = pool.among colors - amount.toNat := by
  induction colors generalizing pool amount with
  | nil => exact (Nat.zero_sub _).symm
  | cons color colors ih =>
    obtain ⟨hcolor, hrest⟩ := List.nodup_cons.mp hdistinct
    rw [spendGeneric, among_cons, amountOf_spendGeneric_of_notMem hcolor, ih hrest,
      among_set_of_notMem hcolor, amountOf_set, if_pos rfl, among_cons]
    -- either this color is enough or all of it goes
    by_cases henough : amount ≤ pool.amountOf color
    · have hmin : min amount (pool.amountOf color) = amount := if_pos henough
      have hle : amount.toNat ≤ (pool.amountOf color).toNat := henough
      rw [hmin, UInt8.toNat_sub_of_le _ _ henough, UInt8.sub_self, UInt8.toNat_zero]
      omega
    · have hmin : min amount (pool.amountOf color) = pool.amountOf color := if_neg henough
      have hshort : pool.amountOf color ≤ amount := UInt8.le_of_lt (UInt8.not_le.mp henough)
      have hle : (pool.amountOf color).toNat ≤ amount.toNat := hshort
      rw [hmin, UInt8.toNat_sub_of_le _ _ hshort, UInt8.sub_self, UInt8.toNat_zero]
      omega

theorem size_spendColored (h : ∀ color, mana.amountOf color ≤ pool.amountOf color) :
    (pool.spendColored mana).size + mana.colored = pool.size := by
  have hcolor (color : Color) :
      ((pool.spendColored mana).amountOf color).toNat + (mana.amountOf color).toNat =
        (pool.amountOf color).toNat := by
    rw [amountOf_spendColored, UInt8.toNat_sub_of_le _ _ (h color)]
    exact Nat.sub_add_cancel (h color)
  rw [size, among, ManaCost.colored, ← List.sum_map_add]
  exact congrArg List.sum (List.map_congr_left fun color _ => hcolor color)

theorem canPay_eq_true_iff : pool.canPay mana = true ↔
    (∀ color, mana.amountOf color ≤ pool.amountOf color) ∧ mana.manaValue ≤ pool.total := by
  rw [canPay, Bool.and_eq_true, List.all_eq_true, decide_eq_true_iff]
  refine and_congr_left fun _ => ⟨fun h color => ?_, fun h color _ => ?_⟩
  · exact of_decide_eq_true (h color (Color.mem_all color))
  · exact decide_eq_true (h color)

theorem pay?_eq_some_iff : pool.pay? mana = some rest ↔
    pool.canPay mana = true ∧
      rest = (pool.spendColored mana).spendGeneric mana.generic Color.all := by
  unfold pay?
  split
  · rename_i hcan
    rw [Option.some_inj]
    exact ⟨fun h => ⟨hcan, h.symm⟩, fun h => h.2.symm⟩
  · rename_i hcan
    exact ⟨nofun, fun h => absurd h.1 hcan⟩

/-- A payment leaves what there is beyond it, and nothing if there is too little. -/
theorem size_of_pay_eq_sub (h : pool.pay? mana = some rest) :
    rest.size = pool.size - (mana.generic.toNat + mana.colored) := by
  obtain ⟨hcan, rfl⟩ := pay?_eq_some_iff.mp h
  have hcolored := size_spendColored (canPay_eq_true_iff.mp hcan).1
  have hgeneric : ((pool.spendColored mana).spendGeneric mana.generic Color.all).size =
      (pool.spendColored mana).size - mana.generic.toNat :=
    among_spendGeneric (by decide) _ _
  omega

/-- A pool is down by what it has paid. -/
theorem size_of_pay (h : pool.pay? mana = some rest)
    (hsmall : mana.generic.toNat + mana.colored ≤ 255) :
    pool.size = rest.size + (mana.generic.toNat + mana.colored) := by
  -- below 255 the values compared are the sums themselves
  have hcovered : mana.generic.toNat + mana.colored ≤ pool.size := by
    have hvalues := UInt8.le_iff_toNat_le.mp (canPay_eq_true_iff.mp (pay?_eq_some_iff.mp h).1).2
    rw [ManaCost.toNat_manaValue, toNat_total] at hvalues
    omega
  have hrest := size_of_pay_eq_sub h
  omega

end ManaPool

end CardRules
