import CardRules.Proofs.Engine.Attempt
import CardRules.Proofs.Mana.Payment
import Mathlib.Algebra.Order.BigOperators.Group.List
import Mathlib.Algebra.Order.Group.Nat

/-!
# Zero is the cheapest X

A pool that can pay for a cost can still do so when there is more mana in it and less is asked for
(`ManaPool.canPay_mono`). The sums that are compared stop at 255, which changes nothing about that: the
smaller sum stops no earlier than the larger one.

An activation is checked with X as zero and paid with the X that is chosen. That is a cost that asks for no
less (`ManaCost.atMost_of_withX`), so the check never denies what could be paid (`zero_x_cheapest`).
-/

set_option autoImplicit false

namespace CardRules

/-! ## More mana, and less to pay -/

/-- A cost asks for at most as much of everything as another one, X aside. -/
structure ManaCost.AtMost (cheaper cost : ManaCost) : Prop where
  generic : cheaper.generic ≤ cost.generic
  colors (color : Color) : cheaper.amountOf color ≤ cost.amountOf color

/-- A pool has at most as much of each color as another one. -/
def ManaPool.AtMost (pool richer : ManaPool) : Prop :=
  ∀ color, pool.amountOf color ≤ richer.amountOf color

theorem ManaCost.AtMost.manaValue_le {cheaper cost : ManaCost} (h : cheaper.AtMost cost) :
    cheaper.manaValue ≤ cost.manaValue := by
  have hgeneric := UInt8.le_iff_toNat_le.mp h.generic
  have hcolored : cheaper.colored ≤ cost.colored :=
    List.sum_le_sum fun color _ => UInt8.le_iff_toNat_le.mp (h.colors color)
  rw [UInt8.le_iff_toNat_le, toNat_manaValue, toNat_manaValue]
  omega

theorem ManaPool.AtMost.total_le {pool richer : ManaPool} (h : pool.AtMost richer) :
    pool.total ≤ richer.total := by
  have hsize : pool.size ≤ richer.size :=
    List.sum_le_sum fun color _ => UInt8.le_iff_toNat_le.mp (h color)
  rw [UInt8.le_iff_toNat_le, toNat_total, toNat_total]
  omega

/-- A richer pool can pay for a cheaper cost. -/
theorem ManaPool.canPay_mono {pool richer : ManaPool} {cheaper cost : ManaCost}
    (hpool : pool.AtMost richer) (hcost : cheaper.AtMost cost) (h : pool.canPay cost = true) :
    richer.canPay cheaper = true := by
  obtain ⟨hcolors, hall⟩ := canPay_eq_true_iff.mp h
  refine canPay_eq_true_iff.mpr ⟨fun color => ?_, ?_⟩
  · exact UInt8.le_trans (UInt8.le_trans (hcost.colors color) (hcolors color)) (hpool color)
  · exact UInt8.le_trans (UInt8.le_trans hcost.manaValue_le hall) hpool.total_le

/-! ## Less for X -/

namespace ManaCost

variable {cost fixed : ManaCost} {value : UInt32}

/-- Folding X in adds to the generic part and to nothing else. -/
theorem atMost_of_withX (h : cost.withX value = some fixed) : cost.withoutX.AtMost fixed := by
  constructor
  · rw [UInt8.le_iff_toNat_le, (due_of_withX h).1]
    exact Nat.le_add_right _ _
  · intro color
    obtain ⟨-, rfl⟩ := withX_eq_some_iff.mp h
    exact UInt8.le_refl _

end ManaCost

theorem ManaPool.canPay_withoutX_of_withX {pool : ManaPool} {cost fixed : ManaCost} {value : UInt32}
    (hfixed : cost.withX value = some fixed) (h : pool.canPay fixed = true) :
    pool.canPay cost.withoutX = true :=
  canPay_mono (fun _ => UInt8.le_refl _) (ManaCost.atMost_of_withX hfixed) h

/-! ## The check -/

section Check

variable {cost fixed : Cost} {x : Option UInt32}

theorem Player.canPay_withoutX_of_fixX {player : Player} (hfixed : cost.fixX x = .ok fixed)
    (h : player.canPay fixed = true) : player.canPay cost.withoutX = true := by
  obtain ⟨mana, hmana, rfl⟩ := Cost.fixX_eq_ok_iff.mp hfixed
  obtain ⟨hlife, hpool⟩ := canPay_eq_true_iff.mp h
  rw [ManaPool.canPay_withoutX] at hpool
  refine canPay_eq_true_iff.mpr ⟨hlife, ?_⟩
  rw [ManaPool.canPay_withoutX]
  exact ManaPool.canPay_withoutX_of_withX hmana hpool

theorem Table.canPay_withoutX_of_fixX {table : Table} {controller : PlayerId}
    (hfixed : cost.fixX x = .ok fixed) (h : table.canPay controller fixed = true) :
    table.canPay controller cost.withoutX = true := by
  rw [canPay, Option.any_eq_true] at h ⊢
  obtain ⟨player, hplayer, hcan⟩ := h
  exact ⟨player, hplayer, Player.canPay_withoutX_of_fixX hfixed hcan⟩

theorem View.affords_withoutX_of_fixX {view : View} {source : CardId} {controller : PlayerId}
    (hfixed : cost.fixX x = .ok fixed) (h : view.affords fixed source controller = true) :
    view.affords cost.withoutX source controller = true := by
  have hplayer : view.table.canPay controller fixed = true →
      view.table.canPay controller cost.withoutX = true := Table.canPay_withoutX_of_fixX hfixed
  obtain ⟨mana, -, rfl⟩ := Cost.fixX_eq_ok_iff.mp hfixed
  unfold affords at h ⊢
  rw [Bool.and_eq_true, Bool.and_eq_true, Bool.or_eq_true] at h ⊢
  -- discards and sacrifice are the same whatever X is
  exact ⟨⟨h.1.1.imp_right hplayer, h.1.2⟩, h.2⟩

end Check

/-- The targets have answers of their own. -/
theorem View.checkTargets_ne_cannotPayCost (view : View) (rules : Untargetability)
    (ability : Ability) (controller : PlayerId) :
    view.checkTargets rules ability controller ≠ .error (.denied .cannotPayCost) := by
  unfold checkTargets
  split
  · split
    · simp
    · simp [demand_eq_error_iff]
  · exact nofun

/-- What is denied for its cost cannot be paid even with X as zero. -/
theorem View.affords_of_cannotPayCost {view : View} {rules : Untargetability} {ability : Ability}
    {controller : PlayerId}
    (h : view.checkActivation rules ability controller = .error (.denied .cannotPayCost)) :
    view.affords ability.cost.withoutX ability.source controller = false := by
  obtain ⟨-, -, -, -, -, ⟨hcost, -⟩ | ⟨-, htargets⟩⟩ := (checkActivation_eq_late_iff (.inl rfl) ..).mp h
  · exact hcost
  · exact absurd htargets (checkTargets_ne_cannotPayCost view rules ability controller)

/-- More mana pays for whatever asks for less. Zero is the cheapest X: with it the generic part is as it
is written, and with any other X the cost asks for at least as much, so that a pool which can pay with
some X can pay without, and so can a player. An activation whose cost can be paid with the X that is
chosen is therefore never denied on account of its cost. -/
theorem zero_x_cheapest :
    (∀ (pool richer : ManaPool) (cheaper cost : ManaCost), pool.AtMost richer →
      cheaper.AtMost cost → pool.canPay cost = true → richer.canPay cheaper = true) ∧
    (∀ cost : ManaCost, cost.withX 0 = some cost.withoutX ∧
      ∀ (value : UInt32) (fixed : ManaCost), cost.withX value = some fixed →
        cost.withoutX.AtMost fixed ∧
        ∀ pool : ManaPool, pool.canPay fixed = true → pool.canPay cost.withoutX = true) ∧
    ∀ (view : View) (rules : Untargetability) (ability : Ability) (controller : PlayerId)
      (decision : Decision) (fixed : Cost), ability.cost.fixX decision.x = .ok fixed →
      (view.table.canPay controller fixed = true →
        view.table.canPay controller ability.cost.withoutX = true) ∧
      (view.affords fixed ability.source controller = true →
        view.checkActivation rules ability controller ≠ .error (.denied .cannotPayCost)) := by
  refine ⟨fun _ _ _ _ => ManaPool.canPay_mono, fun cost => ⟨cost.withX_zero, ?_⟩, ?_⟩
  · intro value fixed hfixed
    exact ⟨ManaCost.atMost_of_withX hfixed, fun pool => ManaPool.canPay_withoutX_of_withX hfixed⟩
  · intro view rules ability controller decision fixed hfixed
    refine ⟨Table.canPay_withoutX_of_fixX hfixed, fun hafford hdenied => ?_⟩
    have hcheapest := View.affords_withoutX_of_fixX hfixed hafford
    rw [View.affords_of_cannotPayCost hdenied] at hcheapest
    exact Bool.false_ne_true hcheapest

/-- An ability that costs a red mana and X. -/
def redAndX : Ability :=
  { (default : Ability) with kind := .activated, cost := { mana := { red := 1, x := 1 } } }

/-- A view of a table with one player, who has three red mana and 255 white ones. -/
def manyWhite : View where
  table := { Table.seat ["A"] 20 with
    players := [{ id := ⟨1⟩, name := "A", life := 20, manaPool := { white := 255, red := 3 } }] }

/-- A red and 255 white mana pay for a white one and 255 more, where both sums stop at 255. So with two more
red ones they pay for a white one and 254 more. And whoever can pay for an X of 200 is not denied for the
cost. -/
theorem zero_x_cheapest_manyWhite :
    ({ white := 255, red := 3 } : ManaPool).canPay { generic := 254, white := 1 } = true ∧
    manyWhite.affords { mana := { red := 1, generic := 200 } } redAndX.source ⟨1⟩ = true ∧
    manyWhite.checkActivation .keywords redAndX ⟨1⟩ ≠ .error (.denied .cannotPayCost) := by
  obtain ⟨hmono, -, hcheck⟩ := zero_x_cheapest
  have hafford : manyWhite.affords { mana := { red := 1, generic := 200 } } redAndX.source ⟨1⟩ =
    true := by decide
  refine ⟨?_, hafford, ?_⟩
  · refine hmono { white := 255, red := 1 } _ _ { generic := 255, white := 1 } ?_ ⟨?_, ?_⟩ ?_
    · exact fun color => by cases color <;> decide
    · decide
    · exact fun color => by cases color <;> decide
    · decide
  · exact (hcheck manyWhite .keywords redAndX ⟨1⟩ { x := some 200 } _ rfl).2 hafford

end CardRules
