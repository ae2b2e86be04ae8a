import CardRules.Proofs.Stack.Casting
import CardRules.Proofs.Stack.Countered
import CardRules.Proofs.Stack.Illegal

/-!
# Fizzling

An item fizzles if every choice that has a slot has become illegal for it (`fizzles_eq_true_iff`). The
choices are paired with the slots as far as both go, and only the choices are asked to be there at all.
So this is what fizzling should be, with one exception: an item that has choices and no slot for any of
them (`StackItem.Stray`) fizzles, although it has no target (`fizzles_exactly`). Nothing that was validated
is stray, and what is validated does not fizzle in an unchanged game.

A spell that was just cast counts as validated in an unchanged game. The mana that was paid for it is gone,
but that can be seen of no candidate (`View.Resembles`).
-/

set_option autoImplicit false

namespace CardRules

open Act

/-- The item has chosen targets, and no slot for any of them. -/
def StackItem.Stray (item : StackItem) : Prop :=
  item.targets ≠ [] ∧ Target.slots item.object.targets = []

/-! ## Views that look the same -/

/-- In two views every choice names the same candidate, players go by the same names, and cards are of the
same colors. -/
structure View.Resembles (view other : View) : Prop where
  candidate (choice : Choice) : view.candidate? choice = other.candidate? choice
  name (id : PlayerId) : view.playerName? id = other.playerName? id
  colors (id : CardId) : view.table.colorsOf id = other.table.colorsOf id

/-- Legality knows a player by number and name. -/
theorem Target.accepts_congr {rules : Untargetability} {target : Target} {candidate : Candidate}
    {player other : Player} {colors : List Color} (hid : player.id = other.id)
    (hname : player.name = other.name) :
    target.accepts rules candidate player colors = target.accepts rules candidate other colors := by
  unfold accepts objection?
  rw [hid, hname]

/-- Of a player nothing but the name can be seen. -/
theorem View.candidate?_player (view : View) (id : PlayerId) :
    view.candidate? (.player id) =
      (view.playerName? id).map fun name => { reference := .player id, playerName := some name } := by
  rw [candidate?, playerName?]
  cases hplayer : view.table.player? id with
  | none => rfl
  | some player =>
    have hid : player.id = id := Table.id_of_player? hplayer
    rw [Option.map_some, Option.map_some, Option.map_some, Candidate.ofPlayer, hid]

namespace View.Resembles

variable {view other : View}

/-- What a view shows: the cards, the battlefield, the items and the names of the players. -/
theorem of_names (hcards : view.table.cards = other.table.cards)
    (hfield : view.table.battlefield = other.table.battlefield) (hitems : view.items = other.items)
    (hname : ∀ id, view.playerName? id = other.playerName? id) : view.Resembles other where
  candidate choice := by
    cases choice with
    | player id => rw [candidate?_player, candidate?_player, hname]
    | permanent id =>
      have hon : view.table.onBattlefield id = other.table.onBattlefield id := by
        rw [Table.onBattlefield, Table.onBattlefield, hfield]
      have hcard : view.table.card? id = other.table.card? id := by
        rw [Table.card?, Table.card?, hcards]
      simp only [candidate?, hname]
      rw [hon, hcard]
    | spell item => simp only [candidate?, hitems, hname]
  name := hname
  colors id := by simp only [Table.colorsOf, Table.card?, hcards]

/-- A player of the one view is a player of the other, by the same number and name. -/
theorem player (h : view.Resembles other) {id : PlayerId} {player : Player}
    (hplayer : other.table.player? id = some player) :
    ∃ same, view.table.player? id = some same ∧ same.id = player.id ∧ same.name = player.name := by
  have hname := h.name id
  unfold playerName? at hname
  rw [hplayer, Option.map_some] at hname
  obtain ⟨same, hsame, hname⟩ := Option.map_eq_some_iff.mp hname
  have hid : same.id = id := Table.id_of_player? hsame
  have hid' : player.id = id := Table.id_of_player? hplayer
  exact ⟨same, hsame, hid.trans hid'.symm, hname⟩

theorem objectColors_eq (h : view.Resembles other) (object : StackObject) :
    Scene.objectColors view.table object = Scene.objectColors other.table object := by
  cases object with
  | spell spell => rfl
  | ability ability => exact h.colors ability.source

end View.Resembles

/-- What was validated is legal as long as things look the same. -/
theorem Arena.legal_of_validated {arena : Arena} {earlier : View} {item : StackItem}
    (hsame : arena.toView.Resembles earlier)
    (hvalid : earlier.validateTargets arena.engine.rules item.object.targets item.targets
      item.controller (Scene.objectColors earlier.table item.object) = .ok ()) :
    ∀ pair ∈ item.targets.zip (Target.slots item.object.targets), arena.legal item pair = true := by
  obtain ⟨-, -, player, hplayer, hlegal⟩ := (View.validateTargets_eq_ok_iff _ _ _).mp hvalid
  obtain ⟨same, hseated, hid, hname⟩ := hsame.player hplayer
  intro pair hpair
  obtain ⟨candidate, hcandidate, haccepts⟩ := hlegal pair hpair
  refine Arena.legal_eq_true_iff.mpr
    ⟨same, hseated, candidate, (hsame.candidate pair.1).trans hcandidate, ?_⟩
  rw [hsame.objectColors_eq, Target.accepts_congr hid hname]
  exact haccepts

/-! ## Strays -/

namespace StackItem

variable {item : StackItem}

/-- An item without a choice that has a slot has no choices, or it is stray. -/
theorem zip_slots_eq_nil_iff :
    item.targets.zip (Target.slots item.object.targets) = [] ↔ item.targets = [] ∨ item.Stray := by
  rw [List.zip_eq_nil_iff, Stray]
  tauto

/-- Validation turns away more choices than there are slots. -/
theorem not_stray_of_validated {view : View} {rules : Untargetability} {colors : List Color}
    (hvalid : view.validateTargets rules item.object.targets item.targets item.controller colors =
      .ok ()) : ¬item.Stray := by
  rintro ⟨hchosen, hslots⟩
  obtain ⟨-, hfit, -⟩ := (View.validateTargets_eq_ok_iff _ _ _).mp hvalid
  rw [hslots, List.length_nil, Nat.le_zero_eq, List.length_eq_zero_iff] at hfit
  exact hchosen hfit

end StackItem

namespace Scene

variable {scene : Scene} {item : StackItem}

/-! ## Resolutions -/

/-- The answer tells whether the item fizzled. -/
theorem resolveTop_fizzled_iff (htop : scene.stack.top? = some item) (hlive : item.countered = false) :
    (resolveTop.outcome scene).1 = .ok (.fizzled item.id) ↔
      item.targets ≠ [] ∧ ∀ pair ∈ item.targets.zip (Target.slots item.object.targets),
        scene.resolving.legal item pair = false := by
  have hiff : fizzles { scene with stack := scene.stack.pop } item = true ↔
      item.targets ≠ [] ∧ ∀ pair ∈ item.targets.zip (Target.slots item.object.targets),
        scene.resolving.legal item pair = false := fizzles_eq_true_iff
  rw [← hiff]
  constructor
  · intro h
    exact fizzles_of_idle htop hlive h fun id => by simp
  · intro h
    rw [outcome_resolveTop_fizzled htop hlive h]

/-- Of a validated item no target is illegal as long as things look the same. -/
theorem not_fizzled_of_validated {earlier : View} (htop : scene.stack.top? = some item)
    (hlive : item.countered = false) (hsame : scene.resolving.toView.Resembles earlier)
    (hvalid : earlier.validateTargets scene.engine.rules item.object.targets item.targets
      item.controller (objectColors earlier.table item.object) = .ok ()) :
    (resolveTop.outcome scene).1 ≠ .ok (.fizzled item.id) := by
  rw [Ne, resolveTop_fizzled_iff htop hlive]
  rintro ⟨hchosen, hillegal⟩
  have hpairs : item.targets.zip (Target.slots item.object.targets) ≠ [] := by
    rw [Ne, StackItem.zip_slots_eq_nil_iff, not_or]
    exact ⟨hchosen, StackItem.not_stray_of_validated hvalid⟩
  obtain ⟨pair, hpair⟩ := List.exists_mem_of_ne_nil _ hpairs
  have hlegal : scene.resolving.legal item pair = true :=
    Arena.legal_of_validated hsame hvalid pair hpair
  exact Bool.false_ne_true ((hillegal pair hpair).symm.trans hlegal)

/-- Nothing that a target is judged by changes when a spell is paid for. -/
theorem resembles_afterCast {spell : Spell} {player : PlayerId} {targets : List Choice}
    {x : Option UInt32} {payer : Player} (hpayer : scene.table.player? player = some payer)
    (pool : ManaPool) :
    (scene.afterCast spell player targets x payer pool).resolving.toView.Resembles
      scene.arena.toView := by
  have hid : payer.id = player := Table.id_of_player? hpayer
  refine View.Resembles.of_names rfl rfl List.dropLast_concat fun id => ?_
  show (Table.player? (scene.table.updatePlayer player fun _ => { payer with manaPool := pool })
    id).map _ = (scene.table.player? id).map _
  rw [Table.player?_updatePlayer scene.table player id (f := fun _ => { payer with manaPool := pool })
    fun _ _ => hid]
  split
  · rename_i heq
    rw [heq, hpayer]
    rfl
  · rfl

/-- Fizzling, exactly. The top item, unless it was countered, fizzles exactly if there are choices and
every choice that has a slot is illegal for it now: it names nothing any more, or what it names is not
accepted. For this to be so with some choice that has a slot, the item must not be stray; an item without
slots fizzles exactly if it is stray. What was validated, in whatever view of the same table and the same
other items, is not stray and does not fizzle, nor does a spell that has just been cast. -/
theorem fizzles_exactly (htop : scene.stack.top? = some item) (hlive : item.countered = false) :
    let fizzled := (resolveTop.outcome scene).1 = .ok (.fizzled item.id)
    let pairs := item.targets.zip (Target.slots item.object.targets)
    (fizzled ↔ item.targets ≠ [] ∧ ∀ pair ∈ pairs, scene.resolving.legal item pair = false) ∧
    ((fizzled ↔ pairs ≠ [] ∧ ∀ pair ∈ pairs, scene.resolving.legal item pair = false) ↔
      ¬item.Stray) ∧
    (Target.slots item.object.targets = [] → (fizzled ↔ item.Stray)) ∧
    (∀ earlier : View, earlier.table = scene.table → earlier.items = scene.stack.pop.items →
      earlier.validateTargets scene.engine.rules item.object.targets item.targets item.controller
        (objectColors scene.table item.object) = .ok () → ¬item.Stray ∧ ¬fizzled) ∧
    ∀ (before : Scene) (spell : Spell) (player : PlayerId) (targets : List Choice)
      (x : Option UInt32) (lenient : Bool) (id : ItemId),
      (cast spell player targets x lenient).outcome before = (.ok id, scene) → ¬fizzled := by
  intro fizzled pairs
  have hfizzled : fizzled ↔
      item.targets ≠ [] ∧ ∀ pair ∈ pairs, scene.resolving.legal item pair = false :=
    resolveTop_fizzled_iff htop hlive
  have hpairs : pairs = [] ↔ item.targets = [] ∨ item.Stray := StackItem.zip_slots_eq_nil_iff
  refine ⟨hfizzled, ?stray, ?slotless, ?validated, ?cast⟩
  case stray =>
    by_cases hstray : item.Stray
    · have hnone : pairs = [] := hpairs.mpr (.inr hstray)
      have hlost : fizzled := hfizzled.mpr ⟨hstray.1, fun pair hpair => by simp [hnone] at hpair⟩
      exact ⟨fun hiff => absurd hnone (hiff.mp hlost).1, fun h => absurd hstray h⟩
    · have hchosen : pairs ≠ [] ↔ item.targets ≠ [] := by
        rw [Ne, hpairs]
        exact not_congr (or_iff_left hstray)
      exact ⟨fun _ => hstray, fun _ => hfizzled.trans (and_congr_left' hchosen.symm)⟩
  case slotless =>
    intro hslots
    rw [hfizzled]
    refine ⟨fun h => ⟨h.1, hslots⟩, fun h => ⟨h.1, fun pair hpair => ?_⟩⟩
    rw [hpairs.mpr (.inr h)] at hpair
    exact absurd hpair List.not_mem_nil
  case validated =>
    rintro earlier htable hitems hvalid
    have hsame : scene.resolving.toView.Resembles earlier := by
      refine .of_names ?_ ?_ hitems.symm fun id => ?_
      · rw [htable]
        rfl
      · rw [htable]
        rfl
      · rw [View.playerName?, View.playerName?, htable]
        rfl
    rw [← htable] at hvalid
    exact ⟨StackItem.not_stray_of_validated hvalid,
      not_fizzled_of_validated htop hlive hsame hvalid⟩
  case cast =>
    intro before spell player targets x lenient id hcast
    obtain ⟨payer, mana, hcastable⟩ := castable_of_outcome hcast
    obtain ⟨pool, -, hout⟩ := outcome_cast hcastable lenient
    obtain rfl : before.afterCast spell player targets x payer pool = scene :=
      (Prod.mk.inj (hout.symm.trans hcast)).2
    obtain rfl : _ = item := Option.some.inj (List.getLast?_concat.symm.trans htop)
    exact not_fizzled_of_validated htop hlive (resembles_afterCast hcastable.pays pool)
      hcastable.valid

/-- One damage to a creature. -/
def shot : StackItem where
  id := .first
  object := .spell { (default : Spell) with
    effects := [{ kind := .dealDamage, magnitude := 1, targets := [{ kind := .creature }] }] }
  controller := ⟨1⟩
  targets := [.permanent ⟨5⟩]

/-- The creature that was chosen is back in a hand. -/
def shotTooLate : Scene where
  table := (Table.move ⟨5⟩ .battlefield .hand threeCreatures).state
  engine := {}
  stack := { items := [shot], seats := [⟨1⟩, ⟨2⟩], active := ⟨1⟩, holder := ⟨1⟩ }

theorem fizzles_exactly_shot :
    shotTooLate.stack.top? = some shot ∧ shot.countered = false ∧
      (resolveTop.outcome shotTooLate).1 = .ok (.fizzled shot.id) ∧ ¬shot.Stray := by
  have htop : shotTooLate.stack.top? = some shot := rfl
  have hlive : shot.countered = false := rfl
  obtain ⟨-, hstray, -⟩ := fizzles_exactly htop hlive
  have hslots : ¬shot.Stray := fun h => absurd h.2 (by decide)
  have hillegal : ∀ pair ∈ shot.targets.zip (Target.slots shot.object.targets),
      shotTooLate.resolving.legal shot pair = false := by decide
  exact ⟨htop, hlive, (hstray.mpr hslots).mpr ⟨by decide, hillegal⟩, hslots⟩

/-- Four life for its controller, without a target. -/
def heal : Spell := { (default : Spell) with effects := [{ kind := .gainLife, magnitude := 4 }] }

/-- A spell without slots that was put on the stack with a choice fizzles, and without it would not. -/
theorem stray_target_fizzles :
    let start : Scene := { table := Table.seat ["A", "B"] 20, engine := {}
                           stack := { seats := [⟨1⟩, ⟨2⟩], active := ⟨1⟩, holder := ⟨1⟩ } }
    let resolved (targets : List Choice) := resolveTop (push (.spell heal) ⟨1⟩ targets none start).state
    Target.slots heal.targets = [] ∧ (start.table.player? ⟨1⟩).isSome = true ∧
      (resolved [.player ⟨2⟩]).result = .ok (.fizzled .first) ∧
      ((resolved [.player ⟨2⟩]).state.table.player? ⟨1⟩).map (·.life) = some 20 ∧
      (resolved []).result = .ok (.resolved .first) ∧
      ((resolved []).state.table.player? ⟨1⟩).map (·.life) = some 24 := by
  decide

end Scene

end CardRules
