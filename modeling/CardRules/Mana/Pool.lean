import CardRules.Mana.Cost

/-!
# Mana pools

The mana a player has at hand, by color. A pool covers a cost when it has enough of each color
and enough in total. Payment takes the colored mana first and the generic mana in the order of
the colors, colorless last.
-/

set_option autoImplicit false

namespace CardRules

/-- Mana at a player's disposal. -/
structure ManaPool where
  white : UInt8 := 0
  blue : UInt8 := 0
  black : UInt8 := 0
  red : UInt8 := 0
  green : UInt8 := 0
  colorless : UInt8 := 0
deriving DecidableEq, Repr, Inhabited

namespace ManaPool

/-- The mana of one color. -/
def amountOf (pool : ManaPool) : Color → UInt8
  | .white => pool.white
  | .blue => pool.blue
  | .black => pool.black
  | .red => pool.red
  | .green => pool.green
  | .colorless => pool.colorless

/-- The pool with another amount of one color. -/
def set (pool : ManaPool) (color : Color) (amount : UInt8) : ManaPool :=
  match color with
  | .white => { pool with white := amount }
  | .blue => { pool with blue := amount }
  | .black => { pool with black := amount }
  | .red => { pool with red := amount }
  | .green => { pool with green := amount }
  | .colorless => { pool with colorless := amount }

/-- The pool with more mana of one color, at most 255. -/
def add (pool : ManaPool) (color : Color) (amount : UInt8) : ManaPool :=
  pool.set color (Capped.addByte (pool.amountOf color) amount)

/-- All mana together, at most 255. -/
def total (pool : ManaPool) : UInt8 :=
  Color.all.foldl (fun sum color => Capped.addByte sum (pool.amountOf color)) 0

/-- The pool with the mana of a cost and nothing else; its generic mana is colorless. -/
def covering (cost : ManaCost) : ManaPool where
  white := cost.white
  blue := cost.blue
  black := cost.black
  red := cost.red
  green := cost.green
  colorless := Capped.addByte cost.generic cost.colorless

/-- Whether the pool covers a cost, whose X is disregarded. -/
def canPay (pool : ManaPool) (cost : ManaCost) : Bool :=
  Color.all.all (fun color => cost.amountOf color ≤ pool.amountOf color) &&
    cost.manaValue ≤ pool.total

theorem canPay_withoutX (pool : ManaPool) (cost : ManaCost) :
    pool.canPay cost.withoutX = pool.canPay cost := rfl

/-- The pool without the colored mana of a cost. -/
def spendColored (pool : ManaPool) (cost : ManaCost) : ManaPool :=
  Color.all.foldl (fun pool color => pool.set color (pool.amountOf color - cost.amountOf color)) pool

/-- The pool without an amount of generic mana, taken from the given colors in turn. -/
def spendGeneric (pool : ManaPool) (amount : UInt8) : List Color → ManaPool
  | [] => pool
  | color :: colors =>
    let used := min amount (pool.amountOf color)
    (pool.set color (pool.amountOf color - used)).spendGeneric (amount - used) colors

/-- The pool after paying a cost, if it covers the cost. -/
def pay? (pool : ManaPool) (cost : ManaCost) : Option ManaPool :=
  if pool.canPay cost then some ((pool.spendColored cost).spendGeneric cost.generic Color.all)
  else none

theorem pay?_isSome (pool : ManaPool) (mana : ManaCost) :
    (pool.pay? mana).isSome = pool.canPay mana := by
  unfold pay?
  split
  · rename_i hcan
    exact hcan.symm
  · rename_i hcan
    exact (Bool.eq_false_iff.mpr hcan).symm

/-- The mana of a pool in symbols. -/
def text (pool : ManaPool) : String :=
  if pool.total = 0 then "nothing"
  else String.ofList (braced (Color.all.flatMap fun k =>
    List.replicate (pool.amountOf k).toNat [k.symbol]))

end ManaPool

end CardRules
