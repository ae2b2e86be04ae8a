import CardRules.Proofs.Mana.Exact

/-!
# Payments without a wrong difference

A payment subtracts without looking: bytes in the pool, where every color is taken down twice, and a signed
word for the life. Each difference is one that there is, because of a test that was made before or of the
smaller of two numbers. To say so, the payment is written a second time with subtractions that fail
(`Checked`) where the others would go round. None of them ever does, so that both payments are the same
(`payChecked_eq`).

So a payment does what the test before it says, and it takes what the cost asks for and nothing else
(`payment_as_tested`).
-/

set_option autoImplicit false

namespace CardRules

/-! ## Subtractions that fail -/

namespace Checked

/-- The difference of two bytes, if it is a byte. -/
def subByte? (a b : UInt8) : Option UInt8 := if b ≤ a then some (a - b) else none

/-- The difference of two signed words, if it is a signed word. -/
def subWord? (a b : Int32) : Option Int32 :=
  if -2147483648 ≤ a.toInt - b.toInt ∧ a.toInt - b.toInt ≤ 2147483647 then some (a - b) else none

theorem toInt_sub {a b : Int32} (hlow : -2147483648 ≤ a.toInt - b.toInt)
    (hhigh : a.toInt - b.toInt ≤ 2147483647) : (a - b).toInt = a.toInt - b.toInt := by
  rw [Int32.toInt_sub]
  apply Int.bmod_eq_of_le
  · omega
  · omega

end Checked

/-! ## The pool -/

namespace ManaPool

/-- The pool without the mana of a cost that has to be of the given colors. -/
def spendColored? (pool : ManaPool) (cost : ManaCost) : List Color → Option ManaPool
  | [] => some pool
  | color :: colors => do
    let left ← Checked.subByte? (pool.amountOf color) (cost.amountOf color)
    (pool.set color left).spendColored? cost colors

/-- The pool without an amount of generic mana, taken from the given colors in turn. -/
def spendGeneric? (pool : ManaPool) (amount : UInt8) : List Color → Option ManaPool
  | [] => some pool
  | color :: colors => do
    let used := min amount (pool.amountOf color)
    let left ← Checked.subByte? (pool.amountOf color) used
    let due ← Checked.subByte? amount used
    (pool.set color left).spendGeneric? due colors

/-- What comes of paying a cost, unless a subtraction fails. -/
def payChecked (pool : ManaPool) (cost : ManaCost) : Option (Option ManaPool) :=
  if pool.canPay cost then do
    let spent ← pool.spendColored? cost Color.all
    let rest ← spent.spendGeneric? cost.generic Color.all
    pure (some rest)
  else some none

/-- Each color is taken down once, so what there was of it at first is there when its turn comes. -/
theorem spendColored?_eq {mana : ManaCost} {colors : List Color} (hdistinct : colors.Nodup)
    {pool : ManaPool} (h : ∀ color ∈ colors, mana.amountOf color ≤ pool.amountOf color) :
    pool.spendColored? mana colors =
      some (colors.foldl
        (fun pool color => pool.set color (pool.amountOf color - mana.amountOf color)) pool) := by
  induction colors generalizing pool with
  | nil => rfl
  | cons color colors ih =>
    obtain ⟨hcolor, hcolors⟩ := List.forall_mem_cons.mp h
    obtain ⟨hfirst, hdistinct⟩ := List.nodup_cons.mp hdistinct
    have hleft : Checked.subByte? (pool.amountOf color) (mana.amountOf color) =
        some (pool.amountOf color - mana.amountOf color) := if_pos hcolor
    rw [spendColored?, hleft, Option.bind_eq_bind, Option.bind_some, List.foldl_cons]
    refine ih hdistinct fun other hother => ?_
    have hne : other ≠ color := by
      rintro rfl
      exact hfirst hother
    rw [amountOf_set, if_neg hne]
    exact hcolors other hother

/-- Of no color more is taken than there is, and not more than is still due. -/
theorem spendGeneric?_eq (pool : ManaPool) (amount : UInt8) (colors : List Color) :
    pool.spendGeneric? amount colors = some (pool.spendGeneric amount colors) := by
  induction colors generalizing pool amount with
  | nil => rfl
  | cons color colors ih =>
    have hleft : Checked.subByte? (pool.amountOf color) (min amount (pool.amountOf color)) =
        some (pool.amountOf color - min amount (pool.amountOf color)) := if_pos Std.min_le_right
    have hdue : Checked.subByte? amount (min amount (pool.amountOf color)) =
        some (amount - min amount (pool.amountOf color)) := if_pos Std.min_le_left
    rw [spendGeneric?, hleft, hdue, Option.bind_eq_bind, Option.bind_some, Option.bind_some, ih,
      spendGeneric]

theorem payChecked_eq (pool : ManaPool) (mana : ManaCost) :
    pool.payChecked mana = some (pool.pay? mana) := by
  unfold payChecked pay?
  split
  · rename_i hcan
    have hcolored : pool.spendColored? mana Color.all = some (pool.spendColored mana) :=
      spendColored?_eq (by decide) fun color _ => (canPay_eq_true_iff.mp hcan).1 color
    rw [hcolored, Option.bind_eq_bind, Option.bind_some, spendGeneric?_eq]
    rfl
  · rfl

end ManaPool

/-! ## The player -/

namespace Player

variable {player paid : Player} {cost : Cost}

/-- The life that is left when that of a cost is taken. -/
def lifeLeft? (player : Player) (cost : Cost) : Option Int32 :=
  if 0 < cost.life then Checked.subWord? player.life cost.life else some player.life

/-- What comes of paying the mana and the life of a cost, unless a subtraction fails. -/
def payChecked (player : Player) (cost : Cost) : Option (Except Fault Player) :=
  let mana := cost.mana.withoutX
  if 0 < cost.life ∧ player.life < cost.life then
    some (.error (.payment (.life player.name cost.life player.life)))
  else do
    match ← player.manaPool.payChecked mana with
    | none => some (.error (.payment (.mana mana player.manaPool)))
    | some pool =>
      let life ← player.lifeLeft? cost
      some (.ok { player with manaPool := pool, life := life })

/-- Life is only taken where there is enough of it, and never added. -/
theorem life_range (henough : ¬(0 < cost.life ∧ player.life < cost.life)) (hpositive : 0 < cost.life) :
    0 ≤ player.life.toInt - cost.life.toInt ∧
      player.life.toInt - cost.life.toInt ≤ 2147483647 := by
  have hle : cost.life ≤ player.life := Int32.not_lt.mp fun hshort => henough ⟨hpositive, hshort⟩
  have hzero : (0 : Int32).toInt = 0 := rfl
  have hlow := Int32.lt_iff_toInt_lt.mp hpositive
  have hhigh := Int32.le_iff_toInt_le.mp hle
  have hmax := player.life.toInt_lt
  omega

theorem lifeLeft?_eq (henough : ¬(0 < cost.life ∧ player.life < cost.life)) :
    player.lifeLeft? cost =
      some (if 0 < cost.life then player.life - cost.life else player.life) := by
  unfold lifeLeft?
  split
  · rename_i hpositive
    obtain ⟨hlow, hhigh⟩ := life_range henough hpositive
    exact if_pos ⟨by omega, hhigh⟩
  · rfl

theorem payChecked_eq (player : Player) (cost : Cost) :
    player.payChecked cost = some (player.pay cost) := by
  unfold payChecked pay
  dsimp only
  split
  · rfl
  · rename_i henough
    rw [ManaPool.payChecked_eq, Option.bind_eq_bind, Option.bind_some]
    cases player.manaPool.pay? cost.mana.withoutX with
    | none => rfl
    | some pool =>
      dsimp only
      rw [lifeLeft?_eq henough]
      rfl

/-- A player has paid a cost, and nothing else is different about him. -/
structure Paid (player : Player) (cost : Cost) (paid : Player) : Prop where
  life : paid.life.toInt = player.life.toInt - max 0 cost.life.toInt
  solvent (h : 0 < max 0 cost.life.toInt) : 0 ≤ paid.life.toInt
  pool : player.manaPool.pay? cost.mana.withoutX = some paid.manaPool
  colors (color : Color) : paid.manaPool.amountOf color ≤ player.manaPool.amountOf color
  rest : paid = { player with life := paid.life, manaPool := paid.manaPool }

theorem toInt_life_left (henough : ¬(0 < cost.life ∧ player.life < cost.life)) :
    (if 0 < cost.life then player.life - cost.life else player.life).toInt =
        player.life.toInt - max 0 cost.life.toInt ∧
      (0 < max 0 cost.life.toInt → max 0 cost.life.toInt ≤ player.life.toInt) := by
  have hzero : (0 : Int32).toInt = 0 := rfl
  split
  · rename_i hpositive
    obtain ⟨hlow, hhigh⟩ := life_range henough hpositive
    have hamount := Int32.lt_iff_toInt_lt.mp hpositive
    rw [Checked.toInt_sub (by omega) hhigh]
    omega
  · rename_i hnothing
    have hamount := Int32.le_iff_toInt_le.mp (Int32.not_lt.mp hnothing)
    omega

theorem paid_of_pay (h : player.pay cost = .ok paid) : player.Paid cost paid := by
  obtain ⟨henough, pool, hpool, rfl⟩ := pay_eq_ok_iff.mp h
  obtain ⟨hlife, hsolvent⟩ := toInt_life_left henough
  refine ⟨hlife, fun hpositive => ?_, hpool, fun color => ?_, rfl⟩
  · rw [hlife]
    exact Int.sub_nonneg_of_le (hsolvent hpositive)
  · exact Nat.le_of_add_right_le (ManaPool.amountOf_of_pay hpool color)

/-- A payment goes through exactly if the test says so, and no subtraction in it ever goes below what a
byte or a signed word can be. If it goes through, the life is down by what the cost asks for, if that is
anything, and not below zero then; no color of mana is more than before; and the pool is what paying the
mana leaves of it, X counted as zero. If it does not, the player is as before, and with him the table. -/
theorem payment_as_tested (player : Player) (cost : Cost) :
    ((∃ paid, player.pay cost = .ok paid) ↔ player.canPay cost = true) ∧
    player.payChecked cost = some (player.pay cost) ∧
    (∀ paid, player.pay cost = .ok paid → player.Paid cost paid) ∧
    ∀ (table : Table) (id : PlayerId), table.player? id = some player →
      (Table.pay id cost).outcome table = match player.pay cost with
        | .error fault => (.error fault, table)
        | .ok paid => (.ok (), table.updatePlayer id fun _ => paid) :=
  ⟨exists_pay_iff, payChecked_eq player cost, fun _ => paid_of_pay,
    fun _ _ hplayer => Table.outcome_pay_eq hplayer cost⟩

/-- A player with two green mana and three life. -/
def twoGreen : Player := { id := ⟨1⟩, name := "A", life := 3, manaPool := { green := 2 } }

/-- Two green mana pay for a green one, one of any kind and an X, and three life for three life. Four life
cannot be paid, which leaves the table as it is. -/
theorem payment_as_tested_twoGreen :
    (∃ paid, twoGreen.pay { mana := { generic := 1, green := 1, x := 1 }, life := 3 } = .ok paid ∧
      paid.life.toInt = 0 ∧ paid.manaPool = {}) ∧
    twoGreen.payChecked { life := 4 } = some (.error (.payment (.life "A" 4 3))) ∧
    (Table.pay ⟨1⟩ { life := 4 }).outcome { Table.seat ["A"] 20 with players := [twoGreen] } =
      (.error (.payment (.life "A" 4 3)), { Table.seat ["A"] 20 with players := [twoGreen] }) := by
  obtain ⟨hexists, -, hpaid, -⟩ :=
    payment_as_tested twoGreen { mana := { generic := 1, green := 1, x := 1 }, life := 3 }
  obtain ⟨-, hchecked, -, htable⟩ := payment_as_tested twoGreen { life := 4 }
  obtain ⟨paid, hpay⟩ := hexists.mpr (by decide)
  have hpool : ({ green := 2 } : ManaPool).pay? { generic := 1, green := 1 } = some paid.manaPool :=
    (hpaid paid hpay).pool
  have hempty : ({ green := 2 } : ManaPool).pay? { generic := 1, green := 1 } = some {} := by decide
  refine ⟨⟨paid, hpay, (hpaid paid hpay).life, ?_⟩, hchecked, htable _ ⟨1⟩ rfl⟩
  exact Option.some.inj (hpool.symm.trans hempty)

end Player

end CardRules
