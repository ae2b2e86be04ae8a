import CardRules.Fault

/-!
# Players

A player's life and mana pool, and the part of a cost that a player pays from them. A payment
that fails leaves the player as he was.
-/

set_option autoImplicit false

namespace CardRules

/-- A player at the table. -/
structure Player where
  id : PlayerId
  name : String
  life : Int32
  manaPool : ManaPool := {}
deriving DecidableEq, Repr, Inhabited

namespace Player

/-- The player after gaining life. -/
def gainLife (player : Player) (amount : Int32) : Player :=
  { player with life := Capped.addWord player.life amount }

/-- The player after losing life. -/
def loseLife (player : Player) (amount : Int32) : Player :=
  { player with life := Capped.subWord player.life amount }

/-- The player with more mana. -/
def addMana (player : Player) (color : Color) (amount : UInt8) : Player :=
  { player with manaPool := player.manaPool.add color amount }

/-- The player without mana. -/
def emptyPool (player : Player) : Player := { player with manaPool := {} }

/-- Whether the player can pay the mana and the life of a cost, whose X is disregarded. -/
def canPay (player : Player) (cost : Cost) : Bool :=
  player.manaPool.canPay cost.mana.withoutX && (cost.life ≤ 0 || cost.life ≤ player.life)

/-- The player after paying the mana and the life of a cost, whose X is disregarded. -/
def pay (player : Player) (cost : Cost) : Except Fault Player :=
  let mana := cost.mana.withoutX
  if 0 < cost.life ∧ player.life < cost.life then
    .error (.payment (.life player.name cost.life player.life))
  else match player.manaPool.pay? mana with
    | none => .error (.payment (.mana mana player.manaPool))
    | some pool => .ok { player with
        manaPool := pool
        life := if 0 < cost.life then player.life - cost.life else player.life }

end Player

end CardRules
