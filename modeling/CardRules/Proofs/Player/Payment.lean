import CardRules.Player

/-!
# What a player pays

A player is asked for life first and for mana second, and gives the mana first. A payment goes through if
there is enough of both (`exists_pay_iff`), and then the mana is what the pool has left and the life is down
by what the cost asks for (`pay_eq_ok_iff`). A cost of mana alone is a matter of the pool (`pay_ofMana`).
-/

set_option autoImplicit false

namespace CardRules.Player

variable {player paid : Player} {cost : Cost}

theorem canPay_eq_true_iff : player.canPay cost = true ↔
    ¬(0 < cost.life ∧ player.life < cost.life) ∧
      player.manaPool.canPay cost.mana.withoutX = true := by
  have hlife : (cost.life ≤ 0 ∨ cost.life ≤ player.life) ↔
      ¬(0 < cost.life ∧ player.life < cost.life) := by
    rw [Classical.not_and_iff_not_or_not, Int32.not_lt, Int32.not_lt]
  rw [canPay, Bool.and_eq_true, Bool.or_eq_true, decide_eq_true_iff, decide_eq_true_iff, hlife,
    and_comm]

theorem pay_eq_ok_iff : player.pay cost = .ok paid ↔
    ¬(0 < cost.life ∧ player.life < cost.life) ∧
      ∃ pool, player.manaPool.pay? cost.mana.withoutX = some pool ∧
        paid = { player with
          manaPool := pool
          life := if 0 < cost.life then player.life - cost.life else player.life } := by
  unfold pay
  dsimp only
  split
  · rename_i hshort
    exact ⟨nofun, fun h => absurd hshort h.1⟩
  · rename_i henough
    cases player.manaPool.pay? cost.mana.withoutX with
    | none =>
      constructor
      · exact nofun
      · rintro ⟨-, pool, hpool, -⟩
        simp at hpool
    | some pool =>
      constructor
      · intro h
        exact ⟨henough, pool, rfl, (Except.ok.inj h).symm⟩
      · rintro ⟨-, rest, hrest, rfl⟩
        rw [Option.some.inj hrest]

theorem id_of_pay (h : player.pay cost = .ok paid) : paid.id = player.id := by
  obtain ⟨-, pool, -, rfl⟩ := pay_eq_ok_iff.mp h
  rfl

theorem manaPool_of_pay (h : player.pay cost = .ok paid) :
    player.manaPool.pay? cost.mana.withoutX = some paid.manaPool := by
  obtain ⟨-, pool, hpool, rfl⟩ := pay_eq_ok_iff.mp h
  exact hpool

/-- A player pays exactly if he can. -/
theorem exists_pay_iff : (∃ paid, player.pay cost = .ok paid) ↔ player.canPay cost = true := by
  rw [canPay_eq_true_iff, ← ManaPool.pay?_isSome, Option.isSome_iff_exists]
  constructor
  · rintro ⟨paid, hpaid⟩
    obtain ⟨henough, pool, hpool, -⟩ := pay_eq_ok_iff.mp hpaid
    exact ⟨henough, pool, hpool⟩
  · rintro ⟨henough, pool, hpool⟩
    exact ⟨_, pay_eq_ok_iff.mpr ⟨henough, pool, hpool, rfl⟩⟩

/-! ## Costs of mana alone -/

theorem canPay_ofMana (player : Player) (mana : ManaCost) :
    player.canPay (.ofMana mana) = player.manaPool.canPay mana := by
  have hmana : player.manaPool.canPay (Cost.ofMana mana).mana.withoutX =
      player.manaPool.canPay mana := ManaPool.canPay_withoutX player.manaPool mana
  unfold canPay
  rw [hmana, Bool.and_eq_left_iff_imp]
  intro _
  rfl

/-- Only the pool pays for a cost of mana alone. -/
theorem pay_ofMana (player : Player) (mana : ManaCost) :
    player.pay (.ofMana mana) = match player.manaPool.pay? mana with
      | none => .error (.payment (.mana mana.withoutX player.manaPool))
      | some pool => .ok { player with manaPool := pool } := by
  have hfree : ¬0 < (Cost.ofMana mana).life := by
    show ¬(0 : Int32) < 0
    decide
  have hlife : ¬(0 < (Cost.ofMana mana).life ∧ player.life < (Cost.ofMana mana).life) :=
    fun hlife => hfree hlife.1
  have hmana : player.manaPool.pay? (Cost.ofMana mana).mana.withoutX = player.manaPool.pay? mana :=
    rfl
  unfold pay
  dsimp only
  rw [if_neg hlife, hmana]
  cases player.manaPool.pay? mana with
  | none => rfl
  | some pool =>
    dsimp only
    rw [if_neg hfree]

end CardRules.Player
