import CardRules.Proofs.Mana.Payment
import CardRules.Proofs.Table.Payment

/-!
# What a pool can pay

A pool covers a cost if it has enough mana of each color and enough in all (`ManaPool.Covers`). A
payment compares sums that stop at 255, and from there on it cannot tell a pool from a larger cost:
with enough of each color, a pool of 255 mana or more passes for any cost (`ManaPool.FallsShort`).
Apart from that a payment is exact (`payment_exact`): it takes just what the cost comes to, and of
each color at least what the cost asks for.
-/

set_option autoImplicit false

namespace CardRules

/-- All mana a cost asks for, counted without limit and with X as zero. -/
def ManaCost.size (cost : ManaCost) : Nat := cost.generic.toNat + cost.colored

namespace ManaPool

variable {pool rest : ManaPool} {mana : ManaCost}

/-- There is enough mana of each color and enough in all. -/
structure Covers (pool : ManaPool) (mana : ManaCost) : Prop where
  colors : ∀ color, mana.amountOf color ≤ pool.amountOf color
  all : mana.size ≤ pool.size

/-- There is enough mana of each color and too little in all, but more than the sums can show. -/
structure FallsShort (pool : ManaPool) (mana : ManaCost) : Prop where
  colors : ∀ color, mana.amountOf color ≤ pool.amountOf color
  full : 255 ≤ pool.size
  short : pool.size < mana.size

/-- The sums that are compared agree with the true ones below 255. -/
theorem canPay_iff_covers_or_fallsShort :
    pool.canPay mana = true ↔ pool.Covers mana ∨ pool.FallsShort mana := by
  have hsums : mana.manaValue ≤ pool.total ↔
      mana.size ≤ pool.size ∨ 255 ≤ pool.size ∧ pool.size < mana.size := by
    rw [UInt8.le_iff_toNat_le, ManaCost.toNat_manaValue, toNat_total, ManaCost.size]
    omega
  rw [canPay_eq_true_iff, hsums]
  constructor
  · rintro ⟨hcolors, hall | ⟨hfull, hshort⟩⟩
    · exact .inl ⟨hcolors, hall⟩
    · exact .inr ⟨hcolors, hfull, hshort⟩
  · rintro (⟨hcolors, hall⟩ | ⟨hcolors, hfull, hshort⟩)
    · exact ⟨hcolors, .inl hall⟩
    · exact ⟨hcolors, .inr ⟨hfull, hshort⟩⟩

/-- Paying generic mana makes no color more. -/
theorem amountOf_spendGeneric_le (pool : ManaPool) (amount : UInt8) (colors : List Color)
    (color : Color) : (pool.spendGeneric amount colors).amountOf color ≤ pool.amountOf color := by
  induction colors generalizing pool amount with
  | nil => exact UInt8.le_refl _
  | cons first colors ih =>
    refine UInt8.le_trans (ih _ _) ?_
    rw [amountOf_set]
    split
    · rename_i hfirst
      subst hfirst
      have hused : min amount (pool.amountOf color) ≤ pool.amountOf color := Std.min_le_right
      rw [UInt8.le_iff_toNat_le, UInt8.toNat_sub_of_le _ _ hused]
      exact Nat.sub_le _ _
    · exact UInt8.le_refl _

/-- Of each color a payment takes what the cost asks for, or more. -/
theorem amountOf_of_pay (h : pool.pay? mana = some rest) (color : Color) :
    (rest.amountOf color).toNat + (mana.amountOf color).toNat ≤ (pool.amountOf color).toNat := by
  obtain ⟨hcan, rfl⟩ := pay?_eq_some_iff.mp h
  have hslot := (canPay_eq_true_iff.mp hcan).1 color
  have hle := UInt8.le_iff_toNat_le.mp
    (amountOf_spendGeneric_le (pool.spendColored mana) mana.generic Color.all color)
  rw [amountOf_spendColored, UInt8.toNat_sub_of_le _ _ hslot] at hle
  have hcost := UInt8.le_iff_toNat_le.mp hslot
  omega

theorem eq_of_amountOf {other : ManaPool}
    (h : ∀ color, pool.amountOf color = other.amountOf color) : pool = other := by
  obtain ⟨white, blue, black, red, green, colorless⟩ := pool
  obtain rfl : white = other.white := h .white
  obtain rfl : blue = other.blue := h .blue
  obtain rfl : black = other.black := h .black
  obtain rfl : red = other.red := h .red
  obtain rfl : green = other.green := h .green
  obtain rfl : colorless = other.colorless := h .colorless
  rfl

theorem eq_empty_of_size (h : pool.size = 0) : pool = {} := by
  refine eq_of_amountOf fun color => UInt8.toNat_inj.mp ?_
  have hcolor := List.sum_eq_zero_iff_forall_eq_nat.mp h _
    (List.mem_map_of_mem (Color.mem_all color))
  cases color <;> exact hcolor

/-- A pool that falls short pays all it has. -/
theorem pay?_of_fallsShort (h : pool.FallsShort mana) : pool.pay? mana = some {} := by
  obtain ⟨rest, hrest⟩ : ∃ rest, pool.pay? mana = some rest := by
    rw [← Option.isSome_iff_exists, pay?_isSome, canPay_iff_covers_or_fallsShort]
    exact .inr h
  have hnothing : rest.size = 0 := by
    rw [size_of_pay_eq_sub hrest]
    exact Nat.sub_eq_zero_of_le (Nat.le_of_lt h.short)
  rw [hrest, eq_empty_of_size hnothing]

/-- A pool that covers a cost is down by just that cost. -/
theorem pay?_of_covers (h : pool.Covers mana) :
    ∃ rest, pool.pay? mana = some rest ∧ rest.size + mana.size = pool.size := by
  obtain ⟨rest, hrest⟩ : ∃ rest, pool.pay? mana = some rest := by
    rw [← Option.isSome_iff_exists, pay?_isSome, canPay_iff_covers_or_fallsShort]
    exact .inl h
  refine ⟨rest, hrest, ?_⟩
  rw [size_of_pay_eq_sub hrest]
  exact Nat.sub_add_cancel h.all

/-- A cost of mana alone is paid from the pool, or the table is left as it was. -/
theorem outcome_pay_ofMana {table : Table} {id : PlayerId} {player : Player}
    (hplayer : table.player? id = some player) (mana : ManaCost) :
    (Table.pay id (.ofMana mana)).outcome table = match player.manaPool.pay? mana with
      | none => (.error (.payment (.mana mana.withoutX player.manaPool)), table)
      | some rest => (.ok (), table.updatePlayer id fun _ => { player with manaPool := rest }) := by
  rw [Table.outcome_pay_eq hplayer, Player.pay_ofMana]
  cases player.manaPool.pay? mana <;> rfl

/-- A payment goes through if the pool has enough of each color and enough in all, and then takes
just what the cost comes to, at least the asked amount of each color; a payment that does not go
through leaves the table as it was. Only a pool of 255 mana or more can pay for a cost that comes to
more than it has, by paying everything. The X of the cost counts as zero. -/
theorem payment_exact (pool : ManaPool) (mana : ManaCost) :
    ((pool.pay? mana).isSome ↔ pool.Covers mana ∨ pool.FallsShort mana) ∧
    (pool.Covers mana → ∃ rest, pool.pay? mana = some rest ∧ rest.size + mana.size = pool.size ∧
      ∀ color, (rest.amountOf color).toNat + (mana.amountOf color).toNat ≤
        (pool.amountOf color).toNat) ∧
    (pool.FallsShort mana → pool.pay? mana = some {}) ∧
    ∀ (table : Table) (id : PlayerId) (player : Player),
      table.player? id = some player → player.manaPool = pool →
      (Table.pay id (.ofMana mana)).outcome table = match pool.pay? mana with
        | none => (.error (.payment (.mana mana.withoutX pool)), table)
        | some rest => (.ok (), table.updatePlayer id fun _ => { player with manaPool := rest }) := by
  refine ⟨?_, fun hcovers => ?_, pay?_of_fallsShort, fun table id player hplayer hpool => ?_⟩
  · rw [pay?_isSome, canPay_iff_covers_or_fallsShort]
  · obtain ⟨rest, hrest, hsize⟩ := pay?_of_covers hcovers
    exact ⟨rest, hrest, hsize, amountOf_of_pay hrest⟩
  · subst hpool
    exact outcome_pay_ofMana hplayer mana

/-- A table with one player, who has three white mana and a blue one. -/
def threeWhite : Table :=
  { Table.seat ["A"] 20 with
    players := [{ id := ⟨1⟩, name := "A", life := 20, manaPool := { white := 3, blue := 1 } }] }

/-- Three white and a blue mana pay for a white and two more and are then down by three. They do not
pay for a red one, which leaves the table as it is. And 255 white mana pay for two white and 254
more. -/
theorem payment_exact_threeWhite :
    (∃ rest, ({ white := 3, blue := 1 } : ManaPool).pay? { generic := 2, white := 1 } = some rest ∧
      rest.size + 3 = 4 ∧ (rest.amountOf .white).toNat + 1 ≤ 3) ∧
    (Table.pay ⟨1⟩ (.ofMana { red := 1 })).outcome threeWhite =
      (.error (.payment (.mana { red := 1 } { white := 3, blue := 1 })), threeWhite) ∧
    ({ white := 255 } : ManaPool).pay? { generic := 254, white := 2 } = some {} := by
  have hcovers : ({ white := 3, blue := 1 } : ManaPool).Covers { generic := 2, white := 1 } :=
    ⟨fun color => by cases color <;> decide, by decide⟩
  obtain ⟨rest, hrest, hsize, hcolors⟩ := (payment_exact _ _).2.1 hcovers
  obtain ⟨-, -, -, htable⟩ := payment_exact { white := 3, blue := 1 } { red := 1 }
  have hshort : ({ white := 255 } : ManaPool).FallsShort { generic := 254, white := 2 } :=
    ⟨fun color => by cases color <;> decide, by decide, by decide⟩
  refine ⟨⟨rest, hrest, hsize, hcolors .white⟩, ?_, (payment_exact _ _).2.2.1 hshort⟩
  rw [htable threeWhite ⟨1⟩ _ rfl rfl]
  rfl

/-- A pool of 255 white mana pays for a white and 255 more. -/
theorem full_pool_pays_for_more :
    ({ white := 255 } : ManaPool).pay? { generic := 255, white := 1 } = some {} ∧
      ({ white := 255 } : ManaPool).size < ({ generic := 255, white := 1 } : ManaCost).size := by
  decide

end ManaPool

end CardRules
