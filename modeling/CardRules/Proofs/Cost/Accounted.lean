import CardRules.Proofs.Cost.Demands
import CardRules.Proofs.Mana.Payment

/-!
# Costs account for what is asked for

Each field of a cost in words accounts for all that the words ask for (`Accounts`): whatever a
fragment says is in its field, and what it does not say is kept word for word. Only a symbol without
a meaning is lost. It is in no field, so a cost may be free although its text asks for more than
nothing.
-/

set_option autoImplicit false

namespace CardRules

namespace Demand

/-- The generic mana of a demand. -/
def genericMana : Demand → Nat
  | generic n => n.toNat
  | _ => 0

/-- The cards of a demand. -/
def cards : Demand → Nat
  | discard n => n.toNat
  | _ => 0

/-- The life of a demand. -/
def lifePaid : Demand → Int
  | life n => n.toInt
  | _ => 0

/-- What is kept of a demand word for word. -/
def kept? : Demand → Option String
  | untap => some "\x7bQ\x7d"
  | words fragment => some (String.ofList fragment)
  | _ => none

/-- An amount of zero. -/
def IsZero (demand : Demand) : Prop := demand = generic 0 ∨ demand = discard 0 ∨ demand = life 0

end Demand

namespace Cost

/-! ## The fields of the cost -/

/-- Every field of the cost accounts for all that is asked for: flags are set, amounts are added up
within the range of their field, and what has no field is kept word for word, in order. -/
structure Accounts (demands : List Demand) (cost : Cost) : Prop where
  tap : cost.tap = true ↔ .tap ∈ demands
  sacrifice : cost.sacrifice = true ↔ .sacrifice ∈ demands
  x : cost.mana.x.toNat = demands.count .x % 256
  generic : cost.mana.generic.toNat = min 255 (demands.map Demand.genericMana).sum
  colored (color : Color) :
    (cost.mana.amountOf color).toNat = min 255 (demands.count (.color color))
  discard : cost.discard.toNat = min 255 (demands.map Demand.cards).sum
  life : cost.life.toInt = (demands.map Demand.lifePaid).sum.bmod 4294967296
  other : cost.other = demands.filterMap Demand.kept?

theorem count_eq_sum (demand : Demand) (demands : List Demand) :
    demands.count demand = (demands.map fun other => if other = demand then 1 else 0).sum := by
  induction demands with
  | nil => rfl
  | cons other demands ih => simp [List.count_cons, ih, Nat.add_comm]

theorem toNat_slot_demands (slot : Cost → UInt8) (hempty : slot {} = 0)
    (hslot : ∀ a b, slot (a.combine b) = Capped.addByte (slot a) (slot b)) {amount : Demand → Nat}
    (hamount : ∀ demand, (slot demand.cost).toNat = amount demand) (demands : List Demand) :
    (slot (total (demands.map Demand.cost))).toNat = min 255 (demands.map amount).sum := by
  rw [toNat_slot_total _ slot hempty hslot, List.map_map]
  simp only [Function.comp_def, hamount]

theorem flag_demands (flag : Cost → Bool) (hempty : flag {} = false)
    (hflag : ∀ a b, flag (a.combine b) = (flag a || flag b)) {setter : Demand}
    (hsetter : ∀ demand, flag demand.cost = true ↔ demand = setter) (demands : List Demand) :
    flag (total (demands.map Demand.cost)) = true ↔ setter ∈ demands := by
  rw [flag_total _ flag hempty hflag, List.any_map, List.any_eq_true]
  simp only [Function.comp_apply, hsetter, exists_eq_right]

theorem accounts_total (demands : List Demand) :
    Accounts demands (total (demands.map Demand.cost)) where
  tap := flag_demands (·.tap) rfl (fun _ _ => rfl) (fun demand => by
    cases demand <;> simp [Demand.cost]) demands
  sacrifice := flag_demands (·.sacrifice) rfl (fun _ _ => rfl) (fun demand => by
    cases demand <;> simp [Demand.cost]) demands
  x := by
    have hx (demand : Demand) :
        demand.cost.mana.x.toNat = if demand = .x then 1 else 0 := by
      cases demand with
      | color k => cases k <;> rfl
      | _ => rfl
    rw [toNat_x_total, List.map_map, count_eq_sum]
    simp only [Function.comp_def, hx]
  generic := toNat_slot_demands (·.mana.generic) rfl (fun _ _ => rfl) (fun demand => by
    cases demand with
    | color k => cases k <;> rfl
    | _ => rfl) demands
  colored color := by
    rw [count_eq_sum]
    refine toNat_slot_demands (·.mana.amountOf color) (by cases color <;> rfl)
      (fun _ _ => ManaCost.amountOf_combine _ _ _) (fun demand => ?_) demands
    cases demand with
    | color k => cases k <;> cases color <;> rfl
    | _ => cases color <;> rfl
  discard := toNat_slot_demands (·.discard) rfl (fun _ _ => rfl) (fun demand => by
    cases demand <;> rfl) demands
  life := by
    have hlife (demand : Demand) : demand.cost.life.toInt = demand.lifePaid := by
      cases demand <;> rfl
    rw [toInt_life_total, List.map_map]
    simp only [Function.comp_def, hlife]
  other := by
    have hkept (demand : Demand) : demand.cost.other = demand.kept?.toList := by
      cases demand <;> rfl
    rw [other_total, List.flatMap_map, List.filterMap_eq_flatMap_toList]
    simp only [hkept]

/-! ## Costs of nothing -/

theorem isFree_iff {cost : Cost} : cost.isFree = true ↔ cost.mana.isFree = true ∧ cost.tap = false ∧
    cost.sacrifice = false ∧ cost.discard = 0 ∧ cost.life = 0 ∧ cost.other = [] := by
  simp [isFree, includesMana, and_assoc]

theorem min_sum_eq_zero_iff {amount : Demand → Nat} {demands : List Demand} :
    min 255 (demands.map amount).sum = 0 ↔ ∀ demand ∈ demands, amount demand = 0 := by
  induction demands with
  | nil => simp
  | cons demand demands ih =>
    rw [List.map_cons, List.sum_cons, List.forall_mem_cons, ← ih]
    omega

/-- A cost is free if what is asked for comes to nothing or has no meaning, as long as neither X nor
life goes round. -/
theorem Accounts.isFree_iff {demands : List Demand} {cost : Cost} (h : Accounts demands cost)
    (hx : demands.count .x < 256) (hlife : (demands.map Demand.lifePaid).sum < 2147483648)
    (hpaid : ∀ demand ∈ demands, 0 ≤ demand.lifePaid) :
    cost.isFree = true ↔ ∀ demand ∈ demands, demand.IsZero ∨ ∃ symbol, demand = .unknown symbol := by
  have hnonneg : ∀ paid ∈ demands.map Demand.lifePaid, 0 ≤ paid := by simpa using hpaid
  have hsum : cost.life.toInt = (demands.map Demand.lifePaid).sum := by
    have := List.sum_nonneg hnonneg
    rw [h.life, Int.bmod_eq_of_le_mul_two (by omega) (by omega)]
  -- each field is empty just if every demand leaves it so
  have hgeneric : cost.mana.generic = 0 ↔ ∀ demand ∈ demands, demand.genericMana = 0 := by
    rw [← UInt8.toNat_inj, h.generic, UInt8.toNat_zero, min_sum_eq_zero_iff]
  have hdiscard : cost.discard = 0 ↔ ∀ demand ∈ demands, demand.cards = 0 := by
    rw [← UInt8.toNat_inj, h.discard, UInt8.toNat_zero, min_sum_eq_zero_iff]
  have hcolored : (∀ k, cost.mana.amountOf k = 0) ↔ ∀ demand ∈ demands, ∀ k, demand ≠ .color k := by
    have hcolor (k : Color) : cost.mana.amountOf k = 0 ↔ ∀ demand ∈ demands, demand ≠ .color k := by
      rw [← UInt8.toNat_inj, h.colored, UInt8.toNat_zero, Nat.min_eq_zero_iff, List.count_eq_zero,
        List.forall_mem_ne']
      simp
    simp only [hcolor]
    exact ⟨fun hall demand hmem k => hall k demand hmem, fun hall k demand hmem => hall demand hmem k⟩
  have hx0 : cost.mana.x = 0 ↔ ∀ demand ∈ demands, demand ≠ .x := by
    rw [← UInt8.toNat_inj, h.x, Nat.mod_eq_of_lt hx, UInt8.toNat_zero, List.count_eq_zero,
      List.forall_mem_ne']
  have htap : cost.tap = false ↔ ∀ demand ∈ demands, demand ≠ .tap := by
    rw [← Bool.not_eq_true, h.tap, List.forall_mem_ne']
  have hsacrifice : cost.sacrifice = false ↔ ∀ demand ∈ demands, demand ≠ .sacrifice := by
    rw [← Bool.not_eq_true, h.sacrifice, List.forall_mem_ne']
  have hlife0 : cost.life = 0 ↔ ∀ demand ∈ demands, demand.lifePaid = 0 := by
    rw [← Int32.toInt_inj, hsum, Int32.toInt_zero]
    constructor
    · intro hzero demand hmem
      have hle := List.single_le_sum hnonneg _ (List.mem_map_of_mem hmem)
      have := hpaid demand hmem
      omega
    · intro hall
      exact List.sum_eq_zero (by simpa using hall)
  have hother : cost.other = [] ↔ ∀ demand ∈ demands, demand.kept? = none := by
    rw [h.other, List.filterMap_eq_nil_iff]
  rw [Cost.isFree_iff, ManaCost.isFree_iff, hgeneric, hcolored, hx0, htap, hsacrifice, hdiscard, hlife0,
    hother]
  simp only [← forall₂_and]
  refine forall₂_congr fun demand _ => ?_
  cases demand <;> simp [Demand.genericMana, Demand.cards, Demand.lifePaid, Demand.kept?, Demand.IsZero,
    ← UInt8.toNat_inj, ← Int32.toInt_inj]

theorem lifePaid_ofSymbol (symbol : List Char) : (Demand.ofSymbol symbol).lifePaid = 0 := by
  have hmeans := Demand.means_ofSymbol symbol
  generalize Demand.ofSymbol symbol = demand at hmeans ⊢
  rcases hmeans with h | rfl
  · cases h with
    | mana h => cases h <;> rfl
    | _ => rfl
  · rfl

theorem lifePaid_nonneg {s : List Char} {demand : Demand} (h : demand ∈ demands s) :
    0 ≤ demand.lifePaid := by
  obtain ⟨fragment, -, hmem⟩ := List.mem_flatMap.mp h
  rw [demandsOf] at hmem
  split at hmem
  · rename_i part hpart
    cases part with
    | symbols row =>
      obtain ⟨symbol, -, rfl⟩ := List.mem_map.mp hmem
      exact (lifePaid_ofSymbol symbol).ge
    | life n =>
      obtain rfl := List.mem_singleton.mp hmem
      exact (CostPart.ofText?_eq_some_iff.mp hpart).life_nonneg
    | sacrifice =>
      obtain rfl := List.mem_singleton.mp hmem
      exact le_rfl
    | discard n =>
      obtain rfl := List.mem_singleton.mp hmem
      exact le_rfl
  · obtain rfl := List.mem_singleton.mp hmem
    exact le_rfl

/-! ## Nothing is lost but symbols without a meaning -/

/-- A fragment that says nothing is kept as it is written. -/
theorem mem_other_of_says_nothing {s fragment : List Char} (h : fragment ∈ pieces s)
    (hnothing : ∀ part, ¬ CostPart.Says fragment part) :
    String.ofList fragment ∈ (demands s).filterMap Demand.kept? := by
  have hnone : CostPart.ofText? fragment = none :=
    Option.eq_none_iff_forall_ne_some.mpr fun part hpart =>
      hnothing part (CostPart.ofText?_eq_some_iff.mp hpart)
  refine List.mem_filterMap.mpr ⟨.words fragment, List.mem_flatMap.mpr ⟨fragment, h, ?_⟩, rfl⟩
  rw [demandsOf, hnone]
  exact List.mem_singleton_self _

/-- A written cost is read as its text says, and accounts for all that is asked for in it. It is free
just if that comes to nothing or has no meaning; so if every symbol has one, a free cost asks for
nothing but amounts of zero. -/
theorem demands_accounted (s : List Char) :
    (∀ fragment part, CostPart.ofText? fragment = some part ↔ CostPart.Says fragment part) ∧
    (∀ symbol demand, Demand.ofSymbol symbol = demand ↔
      Demand.Means symbol demand ∨ demand = .unknown symbol ∧ ∀ other, ¬ Demand.Means symbol other) ∧
    Accounts (demands s) (ofText s) ∧
    (∀ fragment ∈ pieces s, (∀ part, ¬ CostPart.Says fragment part) →
      String.ofList fragment ∈ (ofText s).other) ∧
    ((demands s).count .x < 256 → ((demands s).map Demand.lifePaid).sum < 2147483648 →
      ((ofText s).isFree = true ↔
        ∀ demand ∈ demands s, demand.IsZero ∨ ∃ symbol, demand = .unknown symbol)) := by
  have haccounts : Accounts (demands s) (ofText s) := by
    rw [ofText_eq_total]
    exact accounts_total _
  refine ⟨fun _ _ => CostPart.ofText?_eq_some_iff, fun _ _ => Demand.ofSymbol_eq_iff, haccounts, ?_, ?_⟩
  · intro fragment hmem hnothing
    rw [haccounts.other]
    exact mem_other_of_says_nothing hmem hnothing
  · intro hx hlife
    exact haccounts.isFree_iff hx hlife fun demand => lifePaid_nonneg

/-- X and two mana, three life and a card to exile. -/
def exilingCost : List Char := "\x7bX\x7d\x7b2\x7d, pay 3 life, Exile a card".toList

/-- The last fragment says nothing and is kept; the cost is not free, since X is no zero. -/
theorem demands_accounted_exilingCost :
    "Exile a card".toList ∈ pieces exilingCost ∧
      (∀ part, ¬ CostPart.Says "Exile a card".toList part) ∧
      "Exile a card" ∈ (ofText exilingCost).other ∧ (demands exilingCost).count .x < 256 ∧
      ((demands exilingCost).map Demand.lifePaid).sum < 2147483648 ∧ (ofText exilingCost).isFree = false := by
  have hmem : "Exile a card".toList ∈ pieces exilingCost := by decide
  have hx : (demands exilingCost).count .x < 256 := by decide
  have hlife : ((demands exilingCost).map Demand.lifePaid).sum < 2147483648 := by decide
  obtain ⟨hread, -, -, hkept, hfree⟩ := demands_accounted exilingCost
  have hnothing : ∀ part, ¬ CostPart.Says "Exile a card".toList part := by
    have hnone : CostPart.ofText? "Exile a card".toList = none := by decide
    intro part hsaid
    rw [(hread _ part).mpr hsaid] at hnone
    exact absurd hnone (by simp)
  refine ⟨hmem, hnothing, hkept _ hmem hnothing, hx, hlife, ?_⟩
  rw [← Bool.not_eq_true, hfree hx hlife]
  intro hall
  have hdemand : Demand.x ∈ demands exilingCost := by decide
  simpa [Demand.IsZero] using hall _ hdemand

/-- The symbol of a hybrid is a row of one symbol without a meaning. It is kept nowhere, and the cost
is free. -/
theorem hybrid_symbol_lost :
    CostPart.Says "\x7bW/U\x7d".toList (.symbols ["W/U".toList]) ∧
      (∀ demand, ¬ Demand.Means "W/U".toList demand) ∧
      (ofText "\x7bW/U\x7d".toList).other = [] ∧ (ofText "\x7bW/U\x7d".toList).isFree = true := by
  have hunknown : Demand.ofSymbol "W/U".toList = .unknown "W/U".toList := by decide
  have hnone : ∀ demand, ¬ Demand.Means "W/U".toList demand :=
    ((Demand.ofSymbol_eq_iff.mp hunknown).resolve_left fun h => h.ne_unknown rfl).2
  exact ⟨CostPart.ofText?_eq_some_iff.mp (by decide), hnone, by decide, by decide⟩

end Cost

end CardRules
