import CardRules.Proofs.Mana.Payment
import CardRules.Proofs.Stack.Moves
import CardRules.Proofs.Table.Payment

/-!
# Casting a spell

The casting of a spell is a row of tests, a payment and a new item. The tests are made on different
parts of the game (the round, the step, the targets, the cost), and the payment asks once more
whether the mana is there; in a lenient game it is the only one to ask. `Castable` collects what has
to hold. `cast_cases` says that then the spell is cast, with just the changes of `afterCast`, and
that otherwise nothing at all happens.
-/

set_option autoImplicit false

namespace CardRules

open Act

/-! ## The tests and the changes -/

namespace Scene

/-- What has to hold for a spell to be cast, given who pays for it and what the cost comes to. -/
structure Castable (scene : Scene) (spell : Spell) (player : PlayerId) (targets : List Choice)
    (x : Option UInt32) (payer : Player) (mana : ManaCost) : Prop where
  seated : player ∈ scene.stack.seats
  priority : scene.stack.holder = player
  timing : spell.isSorcerySpeed = false ∨
    scene.stack.items = [] ∧ scene.table.turn.step.isMain = true
  valid : scene.arena.validateTargets scene.engine.rules spell.targets targets player
    spell.manaCost.colors = .ok ()
  pays : scene.table.player? player = some payer
  cost : spell.manaCost.withX (x.getD 0) = some mana
  covered : payer.manaPool.canPay mana = true

/-- The scene with a spell on top, paid from a pool of which this is left, at the start of a round. -/
def afterCast (scene : Scene) (spell : Spell) (player : PlayerId) (targets : List Choice)
    (x : Option UInt32) (payer : Player) (pool : ManaPool) : Scene where
  table := scene.table.updatePlayer player fun _ => { payer with manaPool := pool }
  engine := scene.engine
  stack := { scene.stack with
    items := scene.stack.items ++
      [{ id := scene.stack.nextItem, object := .spell spell, controller := player, targets, x }]
    passed := []
    holder := scene.stack.active
    nextItem := scene.stack.nextItem.next }

variable {scene : Scene} {spell : Spell} {player : PlayerId} {targets : List Choice}
  {x : Option UInt32}

theorem canCast_eq_true_iff :
    scene.stack.canCast scene.table spell player = true ↔
      scene.stack.holder = player ∧ (spell.isSorcerySpeed = false ∨
        scene.stack.items = [] ∧ scene.table.turn.step.isMain = true) := by
  unfold Stack.canCast
  rw [Bool.and_eq_true, beq_iff_eq, Bool.or_eq_true, Bool.not_eq_true', Bool.and_eq_true,
    List.isEmpty_iff]

theorem canPay_ofMana {mana : ManaCost} :
    scene.table.canPay player (.ofMana mana) = true ↔
      ∃ payer, scene.table.player? player = some payer ∧ payer.manaPool.canPay mana = true := by
  rw [Table.canPay, Option.any_eq_true]
  refine exists_congr fun payer => and_congr_right fun _ => ?_
  rw [Player.canPay_ofMana]

theorem outcome_cast {payer : Player} {mana : ManaCost}
    (h : Castable scene spell player targets x payer mana) (lenient : Bool) :
    ∃ pool, payer.manaPool.pay? mana = some pool ∧
      (cast spell player targets x lenient).outcome scene =
        (.ok scene.stack.nextItem, scene.afterCast spell player targets x payer pool) := by
  obtain ⟨pool, hpool⟩ : ∃ pool, payer.manaPool.pay? mana = some pool := by
    rw [← Option.isSome_iff_exists, ManaPool.pay?_isSome, h.covered]
  have hpriority : scene.stack.checkPriority player = .ok () :=
    checkPriority_eq_ok_iff.mpr ⟨h.seated, h.priority.symm⟩
  have htiming := canCast_eq_true_iff.mpr ⟨h.priority, h.timing⟩
  have hafford : (lenient || scene.table.canPay player (.ofMana mana)) = true := by
    rw [canPay_ofMana.mpr ⟨payer, h.pays, h.covered⟩, Bool.or_true]
  have hpaid : payer.pay (.ofMana mana) = .ok { payer with manaPool := pool } := by
    rw [Player.pay_ofMana, hpool]
  have hpay : (onTable (Table.pay player (.ofMana mana))).outcome scene = (.ok (), { scene with
      table := scene.table.updatePlayer player fun _ => { payer with manaPool := pool } }) := by
    rw [onTable, outcome_within, Table.outcome_pay_eq_ok.mpr ⟨payer, _, h.pays, hpaid, rfl⟩]
  refine ⟨pool, hpool, ?_⟩
  -- one test after the other is passed, in the order in which they are made
  unfold cast
  rw [outcome_bind_ok (outcome_get scene), hpriority, outcome_bind_ok (outcome_ofExcept _ _),
    if_pos htiming, h.valid, outcome_bind_ok (outcome_ofExcept _ _), h.cost,
    outcome_bind_ok (outcome_require_some _ _ _), if_pos hafford, outcome_bind_ok hpay]
  rfl

/-- Where priority and timing are right, the targets are what is tested next. -/
theorem outcome_cast_of_invalid {fault : Fault} (hseated : player ∈ scene.stack.seats)
    (hholder : scene.stack.holder = player)
    (htiming : spell.isSorcerySpeed = false ∨ scene.stack.items = [] ∧ scene.table.turn.step.isMain = true)
    (hinvalid : scene.arena.validateTargets scene.engine.rules spell.targets targets player
      spell.manaCost.colors = .error fault) (lenient : Bool) :
    (cast spell player targets x lenient).outcome scene = (.error fault, scene) := by
  have hpriority : scene.stack.checkPriority player = .ok () :=
    checkPriority_eq_ok_iff.mpr ⟨hseated, hholder.symm⟩
  unfold cast
  rw [outcome_bind_ok (outcome_get scene), hpriority, outcome_bind_ok (outcome_ofExcept _ _),
    if_pos (canCast_eq_true_iff.mpr ⟨hholder, htiming⟩), hinvalid]
  rfl

/-- A spell that was cast has passed every test. -/
theorem castable_of_outcome {lenient : Bool} {id : ItemId} {after : Scene}
    (h : (cast spell player targets x lenient).outcome scene = (.ok id, after)) :
    ∃ payer mana, Castable scene spell player targets x payer mana := by
  unfold cast at h
  rw [outcome_bind_ok (outcome_get scene), outcome_ofExcept_bind_eq_ok] at h
  obtain ⟨_, hpriority, h⟩ := h
  obtain ⟨htiming, h⟩ := outcome_guarded_eq_ok.mp h
  obtain ⟨_, hvalid, h⟩ := outcome_ofExcept_bind_eq_ok.mp h
  obtain ⟨mana, hmana, h⟩ := outcome_require_bind_eq_ok.mp h
  obtain ⟨-, h⟩ := outcome_guarded_eq_ok.mp h
  -- in a lenient game it is the payment that finds the mana
  obtain ⟨_, _, hpaid, -⟩ := outcome_bind_eq_ok.mp h
  rw [onTable, outcome_within] at hpaid
  obtain ⟨payer, paid, hpayer, hpaid, -⟩ :=
    Table.outcome_pay_eq_ok.mp (Prod.ext (Prod.mk.inj hpaid).1 rfl)
  obtain ⟨hseated, -⟩ := checkPriority_eq_ok_iff.mp hpriority
  obtain ⟨hholder, htiming⟩ := canCast_eq_true_iff.mp htiming
  refine ⟨payer, mana, hseated, hholder, htiming, hvalid, hpayer, hmana, ?_⟩
  rw [Player.pay_ofMana] at hpaid
  rw [← ManaPool.pay?_isSome]
  cases hpool : payer.manaPool.pay? mana with
  | none =>
    rw [hpool] at hpaid
    simp at hpaid
  | some pool => rfl

/-- Up to the payment nothing is changed, and after it nothing fails. -/
theorem atomic_cast (lenient : Bool) : (cast spell player targets x lenient).Atomic scene := by
  unfold cast
  refine Atomic.bind_of_unchanged rfl fun same hget => ?_
  obtain rfl : scene = same := by simpa using hget
  refine Atomic.bind_of_unchanged rfl fun _ _ => ?_
  split
  · refine Atomic.bind_of_unchanged rfl fun _ _ => ?_
    refine Atomic.bind_of_unchanged (snd_outcome_require _ _ scene) fun mana _ => ?_
    dsimp only
    split
    -- the point of no return
    · have hpay : (onTable (Table.pay player (.ofMana mana))).Atomic scene :=
        (Table.atomic_pay player (.ofMana mana)).within rfl
      exact hpay.bind_succeeds fun _ after _ => ⟨_, _, rfl⟩
    · exact Atomic.of_unchanged rfl
  · exact Atomic.of_unchanged rfl

/-- Casting, exactly. In every game, for every spell, player, choice of targets and value of X: the
spell is cast if and only if the player is seated and has priority, the spell is not bound to sorcery
speed or the stack is empty in a main phase, the targets are valid for a source of the spell's colors,
and the cost with X folded in exists and is covered by the player's pool. If it is cast, the pool is
down by the payment, the spell is on top with this player, these targets and this X, nobody has
passed and the active player has priority; nothing else has changed. If it is not, nothing has. -/
theorem cast_exactly (scene : Scene) (spell : Spell) (player : PlayerId) (targets : List Choice)
    (x : Option UInt32) (lenient : Bool) :
    ((cast spell player targets x lenient).Succeeds scene ↔
        ∃ payer mana, Castable scene spell player targets x payer mana) ∧
      (∀ id after, (cast spell player targets x lenient).outcome scene = (.ok id, after) →
        ∃ payer mana pool, Castable scene spell player targets x payer mana ∧
          payer.manaPool.pay? mana = some pool ∧ id = scene.stack.nextItem ∧
          after = scene.afterCast spell player targets x payer pool) ∧
      ∀ fault after, (cast spell player targets x lenient).outcome scene = (.error fault, after) →
        after = scene := by
  refine ⟨⟨?_, ?_⟩, ?_, atomic_cast lenient⟩
  · rintro ⟨id, after, h⟩
    exact castable_of_outcome h
  · rintro ⟨payer, mana, hcastable⟩
    obtain ⟨pool, -, hout⟩ := outcome_cast hcastable lenient
    exact ⟨_, _, hout⟩
  · intro id after h
    obtain ⟨payer, mana, hcastable⟩ := castable_of_outcome h
    obtain ⟨pool, hpool, hout⟩ := outcome_cast hcastable lenient
    rw [hout] at h
    obtain ⟨hid, hafter⟩ := Prod.mk.inj h
    exact ⟨payer, mana, pool, hcastable, hpool, (Except.ok.inj hid).symm, hafter.symm⟩

/-- X damage for X and one red mana. -/
def blaze : Spell where
  name := "Blaze"
  manaCost := { red := 1, x := 1 }
  types := [.instant]
  effects := [{ kind := .dealDamage, magnitude := Amount.x, targets := [{ kind := .player }] }]
  source := ⟨9⟩

/-- Two players, the first of whom has four red mana. -/
def fourRed : Scene where
  table := { Table.seat ["A", "B"] 20 with
    players := [{ id := ⟨1⟩, name := "A", life := 20, manaPool := { red := 4 } },
      { id := ⟨2⟩, name := "B", life := 20 }] }
  engine := {}
  stack := { seats := [⟨1⟩, ⟨2⟩], active := ⟨1⟩, holder := ⟨1⟩ }

/-- With X as two it leaves one of the four, and with X as four it cannot be cast. -/
theorem cast_exactly_blaze :
    (cast blaze ⟨1⟩ [.player ⟨2⟩] (some 2) false).Succeeds fourRed ∧
      (((cast blaze ⟨1⟩ [.player ⟨2⟩] (some 2) false).outcome fourRed).2.table.players.map
        fun player => player.manaPool.red.toNat) = [1, 0] ∧
      ¬(cast blaze ⟨1⟩ [.player ⟨2⟩] (some 4) false).Succeeds fourRed := by
  have hcastable : Castable fourRed blaze ⟨1⟩ [.player ⟨2⟩] (some 2)
      { id := ⟨1⟩, name := "A", life := 20, manaPool := { red := 4 } } { generic := 2, red := 1 } :=
    ⟨by decide, rfl, .inl rfl, by rfl, rfl, by rfl, by decide⟩
  have htwo := cast_exactly fourRed blaze ⟨1⟩ [.player ⟨2⟩] (some 2) false
  have hfour := cast_exactly fourRed blaze ⟨1⟩ [.player ⟨2⟩] (some 4) false
  refine ⟨htwo.1.mpr ⟨_, _, hcastable⟩, by decide, fun hcast => ?_⟩
  obtain ⟨payer, mana, hcastable⟩ := hfour.1.mp hcast
  obtain rfl := Option.some.inj (hcastable.pays.symm.trans (by rfl))
  obtain rfl := Option.some.inj (hcastable.cost.symm.trans (by rfl))
  exact absurd hcastable.covered (by decide)

end Scene

end CardRules
