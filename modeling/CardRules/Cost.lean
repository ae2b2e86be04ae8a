import CardRules.Mana.Cost

/-!
# Costs of abilities

What a player pays to use an ability: mana, tapping or sacrificing its source, discarding cards,
paying life. Fragments of a cost without a meaning here are kept word for word.
-/

set_option autoImplicit false

namespace CardRules

/-- What has to be paid to use an ability. -/
structure Cost where
  mana : ManaCost := {}
  tap : Bool := false
  sacrifice : Bool := false
  /-- How many cards to discard. -/
  discard : UInt8 := 0
  life : Int32 := 0
  /-- Fragments kept word for word. -/
  other : List String := []
deriving DecidableEq, Repr, Inhabited

namespace Cost

/-- A cost of mana alone. -/
def ofMana (mana : ManaCost) : Cost := { mana := mana }

/-- Whether mana has to be paid. -/
def includesMana (cost : Cost) : Bool := !cost.mana.isFree

/-- Whether nothing has to be paid. -/
def isFree (cost : Cost) : Bool :=
  !cost.includesMana && !cost.tap && !cost.sacrifice && cost.discard == 0 && cost.life == 0 &&
    cost.other.isEmpty

/-- The cost with the value of X folded into its generic mana, if that fits. -/
def withX (cost : Cost) (value : UInt32) : Option Cost :=
  (cost.mana.withX value).map fun mana => { cost with mana := mana }

/-- The cost with X counted as zero. -/
def withoutX (cost : Cost) : Cost := { cost with mana := cost.mana.withoutX }

/-- The fragments of a cost, as they are written. -/
def fragments (cost : Cost) : List String :=
  (if cost.includesMana then [cost.mana.text] else []) ++
    (if cost.tap then ["\x7bT\x7d"] else []) ++
    (if cost.sacrifice then ["Sacrifice this permanent"] else []) ++
    (if 0 < cost.discard then [s!"Discard {cost.discard.toNat} card(s)"] else []) ++
    (if 0 < cost.life then [s!"Pay {cost.life.toInt} life"] else []) ++
    cost.other

/-- A cost in words. -/
def text (cost : Cost) : String :=
  let fragments := cost.fragments
  if fragments.isEmpty then "free" else ", ".intercalate fragments

end Cost

end CardRules
