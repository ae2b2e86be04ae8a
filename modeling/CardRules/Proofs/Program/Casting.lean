import CardRules.Program
import CardRules.Proofs.Cost.Combined
import CardRules.Proofs.Mana.Exact
import CardRules.Proofs.Stack.Casting

/-!
# Casting from the command line

Before it casts a spell, the program puts the mana that the spell needs into the empty pool of the
caster. Generic mana goes in as colorless mana, in one byte with what is colorless anyway, and that
byte may be full. The pool then has less than the cost asks for, but of each color enough, and what is
compared is full on both sides as well. So the payment goes through and empties the pool
(`pay?_covering`), and all that is left to stop the spell is its targets (`floated_mana_exact`).
-/

set_option autoImplicit false

namespace CardRules

namespace ManaPool

/-- The pool that is filled from empty with the mana of a cost, color by color, and with its generic
mana as colorless mana. -/
def filled (mana : ManaCost) : ManaPool :=
  let colors := Color.five.foldl
    (fun (pool : ManaPool) color => pool.add color (mana.amountOf color)) ({} : ManaPool)
  colors.add .colorless (Capped.addByte mana.generic mana.colorless)

variable {mana : ManaCost}

theorem filled_eq_covering (mana : ManaCost) : filled mana = covering mana := by
  refine eq_of_amountOf fun color => ?_
  cases color <;> exact Capped.zero_addByte _

theorem amountOf_le_covering (color : Color) : mana.amountOf color ≤ (covering mana).amountOf color := by
  cases color with
  | colorless =>
    rw [UInt8.le_iff_toNat_le]
    show mana.colorless.toNat ≤ (Capped.addByte mana.generic mana.colorless).toNat
    have hbyte : mana.colorless.toNat < 256 := mana.colorless.toNat_lt
    rw [Capped.toNat_addByte]
    omega
  | _ => exact UInt8.le_refl _

/-- Nothing is lost but what the colorless byte cannot hold. -/
theorem size_covering (mana : ManaCost) :
    (covering mana).size + mana.colorless.toNat =
      mana.colored + min 255 (mana.generic.toNat + mana.colorless.toNat) := by
  simp only [size, among, ManaCost.colored, Color.all, List.map_cons, List.map_nil, List.sum_cons,
    List.sum_nil, amountOf, ManaCost.amountOf, covering, Capped.toNat_addByte]
  omega

theorem colorless_le_colored (mana : ManaCost) : mana.colorless.toNat ≤ mana.colored := by
  simp only [ManaCost.colored, Color.all, List.map_cons, List.map_nil, List.sum_cons, List.sum_nil,
    ManaCost.amountOf]
  omega

theorem canPay_covering (mana : ManaCost) : (covering mana).canPay mana = true := by
  have hsize := size_covering mana
  have hcolorless := colorless_le_colored mana
  refine canPay_eq_true_iff.mpr ⟨amountOf_le_covering, ?_⟩
  -- if the colorless byte is full, so are both of the sums
  rw [UInt8.le_iff_toNat_le, ManaCost.toNat_manaValue, toNat_total]
  omega

/-- The pool pays for the cost that it was filled for, and nothing is left of it. -/
theorem pay?_covering (mana : ManaCost) : (covering mana).pay? mana = some {} := by
  obtain ⟨rest, hrest⟩ : ∃ rest, (covering mana).pay? mana = some rest := by
    rw [← Option.isSome_iff_exists, pay?_isSome, canPay_covering]
  have hsize := size_covering mana
  have hnothing : rest.size = 0 := by
    rw [size_of_pay_eq_sub hrest]
    omega
  rw [hrest, eq_empty_of_size hnothing]

end ManaPool

namespace Program

open Act

/-- The scene in which the program casts the spell of a card, with this mana at hand. -/
def castingScene (config : Config) (definition : CardDefinition) (mana : ManaCost) : Scene :=
  let table := opening config
  let caster := table.turn.active
  let loaded := (definition.load table.nextId caster config.reader).1
  { table := (table.insertCard loaded.card).2.updatePlayer caster fun player =>
      { player with manaPool := .filled mana }
    engine := { rules := config.rules }
    stack := { seats := table.seats, active := caster, holder := caster } }

/-- The player who casts in that scene. -/
def castingPlayer (config : Config) (mana : ManaCost) : Player :=
  { id := ⟨1⟩, name := "Alice", life := config.startingLife, manaPool := .filled mana }

/-- The targets that the program picks for a spell in a scene. -/
def picked (config : Config) (spell : Spell) (scene : Scene) : List Choice :=
  View.chooseTargets { table := scene.table } config.rules spell.targets ⟨1⟩ spell.manaCost.colors

/-- What the program does once the spell is cast: it names the item, lets it resolve and prints the
players. -/
def settle (config : Config) (definition : CardDefinition) (item : ItemId) (scene : Scene) :
    Report Unit := do
  say ("Cast " ++ definition.name ++ " as " ++ item.text)
  let (resolution, scene) ← play config scene (passRound 2)
  resolution.toList.forM fun resolution => say (resolutionText resolution)
  let (_, scene) ← play config scene (Scene.onTable Table.buryDying)
  scene.table.players.forM fun player =>
    say (player.name ++ ": " ++ toString player.life.toInt ++ " life")

variable {config : Config} {definition : CardDefinition} {x : Option UInt32} {spell : Spell}
  {mana : ManaCost}

/-- The program casts the spell in the casting scene, as soon as there is a spell and a cost. -/
theorem cast_eq (hspell : (definition.load ⟨4⟩ ⟨1⟩ config.reader).1.spell = some spell)
    (hmana : spell.manaCost.withX (x.getD 0) = some mana) :
    cast config definition x = (do
      let scene := castingScene config definition mana
      sayEvents config (definition.load ⟨4⟩ ⟨1⟩ config.reader).2.events
      let (item, scene) ← play config scene
        (Scene.cast spell ⟨1⟩ (picked config spell scene) x false)
      settle config definition item scene) := by
  have hload : definition.load (opening config).nextId (opening config).turn.active config.reader =
    definition.load ⟨4⟩ ⟨1⟩ config.reader := rfl
  unfold cast castingScene
  simp only [hload, hspell, hmana, need, pure_bind, ManaPool.filled_eq_covering]
  rfl

theorem player?_castingScene :
    (castingScene config definition mana).table.player? ⟨1⟩ = some (castingPlayer config mana) :=
  rfl

/-- In the casting scene a spell has the step, the round and the mana that it needs. -/
theorem castable_castingScene {targets : List Choice}
    (hmana : spell.manaCost.withX (x.getD 0) = some mana)
    (hvalid : (castingScene config definition mana).arena.validateTargets config.rules spell.targets
      targets ⟨1⟩ spell.manaCost.colors = .ok ()) :
    Scene.Castable (castingScene config definition mana) spell ⟨1⟩ targets x
      (castingPlayer config mana) mana where
  seated := List.mem_cons_self
  priority := rfl
  timing := .inr ⟨rfl, rfl⟩
  valid := hvalid
  pays := player?_castingScene
  cost := hmana
  covered := by
    show (ManaPool.filled mana).canPay mana = true
    rw [ManaPool.filled_eq_covering, ManaPool.canPay_covering]

/-- Only its targets stop a spell in the casting scene. -/
theorem outcome_cast_castingScene (hmana : spell.manaCost.withX (x.getD 0) = some mana)
    (targets : List Choice) :
    (Scene.cast spell ⟨1⟩ targets x false).outcome (castingScene config definition mana) =
      match (castingScene config definition mana).arena.validateTargets config.rules spell.targets
        targets ⟨1⟩ spell.manaCost.colors with
      | .error fault => (.error fault, castingScene config definition mana)
      | .ok () => (.ok .first, (castingScene config definition mana).afterCast spell ⟨1⟩ targets x
          (castingPlayer config mana) {}) := by
  cases hvalid : (castingScene config definition mana).arena.validateTargets config.rules
    spell.targets targets ⟨1⟩ spell.manaCost.colors with
  | ok =>
    have hcastable : Scene.Castable (castingScene config definition mana) spell ⟨1⟩ targets x
        (castingPlayer config mana) mana := castable_castingScene hmana hvalid
    obtain ⟨pool, hpool, hout⟩ := Scene.outcome_cast hcastable false
    have hempty : (ManaPool.filled mana).pay? mana = some {} := by
      rw [ManaPool.filled_eq_covering, ManaPool.pay?_covering]
    obtain rfl : pool = {} := Option.some.inj (hpool.symm.trans hempty)
    exact hout
  | error fault =>
    exact Scene.outcome_cast_of_invalid List.mem_cons_self rfl (.inr ⟨rfl, rfl⟩) hvalid false

/-- The program floats exactly the mana that is needed. Whatever a cost comes to with X folded in, the
pool that is filled from empty can pay it and is empty afterwards, also where sums go beyond 255. And
whenever a card has a spell, and X can be folded into its cost, the program casts the spell in a scene
where that pool is at hand. There the outcome depends on nothing but the targets: if they are valid the
spell is cast and the pool is empty, and if not, the fault is that of the targets. -/
theorem floated_mana_exact :
    (∀ mana : ManaCost,
      (ManaPool.filled mana).canPay mana = true ∧ (ManaPool.filled mana).pay? mana = some {}) ∧
    ∀ (config : Config) (definition : CardDefinition) (x : Option UInt32) (spell : Spell)
        (mana : ManaCost), (definition.load ⟨4⟩ ⟨1⟩ config.reader).1.spell = some spell →
      spell.manaCost.withX (x.getD 0) = some mana →
      cast config definition x = (do
        let scene := castingScene config definition mana
        sayEvents config (definition.load ⟨4⟩ ⟨1⟩ config.reader).2.events
        let (item, scene) ← play config scene
          (Scene.cast spell ⟨1⟩ (picked config spell scene) x false)
        settle config definition item scene) ∧
      (castingScene config definition mana).table.player? ⟨1⟩ =
        some (castingPlayer config mana) ∧
      ∀ targets,
        (Scene.cast spell ⟨1⟩ targets x false).outcome (castingScene config definition mana) =
          match (castingScene config definition mana).arena.validateTargets config.rules
            spell.targets targets ⟨1⟩ spell.manaCost.colors with
          | .error fault => (.error fault, castingScene config definition mana)
          | .ok () => (.ok .first, (castingScene config definition mana).afterCast spell ⟨1⟩ targets
              x (castingPlayer config mana) {}) := by
  refine ⟨fun mana => ?_, fun config definition x spell mana hspell hmana =>
    ⟨cast_eq hspell hmana, player?_castingScene, outcome_cast_castingScene hmana⟩⟩
  rw [ManaPool.filled_eq_covering]
  exact ⟨ManaPool.canPay_covering mana, ManaPool.pay?_covering mana⟩

/-- An instant for two hundred generic mana, a hundred colorless mana and X. -/
def flood : CardDefinition where
  name := "Flood"
  manaCost := { generic := 200, colorless := 100, x := 1 }
  types := [.instant]
  subtypes := []
  colors := []
  power := none
  toughness := none
  oracle := "Draw a card."
  keywords := []

/-- The spell of that card. -/
def floodSpell : Spell where
  name := "Flood"
  manaCost := { generic := 200, colorless := 100, x := 1 }
  types := [.instant]
  oracleText := flood.oracle
  effects := [.make .drawCards 1]
  source := ⟨4⟩

/-- With X as fifty it comes to 350 mana, of which 255 are floated, and it is cast. -/
theorem floated_mana_exact_flood :
    (ManaPool.filled { generic := 250, colorless := 100 }).pay? { generic := 250, colorless := 100 } =
      some {} ∧
    ((Scene.cast floodSpell ⟨1⟩ [] (some 50) false).outcome
      (castingScene {} flood { generic := 250, colorless := 100 })).1 = .ok .first := by
  have hspell : (flood.load ⟨4⟩ ⟨1⟩ ({} : Config).reader).1.spell = some floodSpell := by
    decide +kernel
  have hmana : floodSpell.manaCost.withX ((some 50).getD 0) =
    some { generic := 250, colorless := 100 } := by decide
  obtain ⟨hpays, hcasts⟩ := floated_mana_exact
  obtain ⟨-, -, hout⟩ := hcasts {} flood (some 50) floodSpell _ hspell hmana
  refine ⟨(hpays _).2, ?_⟩
  rw [hout []]
  rfl

end Program

end CardRules
