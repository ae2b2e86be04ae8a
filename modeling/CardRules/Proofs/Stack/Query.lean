import CardRules.Proofs.Engine.Attempt
import CardRules.Proofs.Stack.Venue
import CardRules.Proofs.Target.Shares

/-!
# Asking whether an ability may be used

A player can ask whether an ability may be used and then use it. Both go through the same checks,
the question in view of the whole stack and the use of a mana ability without the stack; for an
ability without target requirements that makes no difference. What the question leaves out is the
place of the source. The payment has to find it on the battlefield to tap it, and needs an owner with
piles to bury it (`Table.Serves`); with that the two agree (`activation_query`).
-/

set_option autoImplicit false

namespace CardRules

open Act

theorem Ability.required_of_free {ability : Ability} (h : ability.requiresTargets = false) :
    ∀ target ∈ ability.targets, target.required = false := by
  intro target htarget
  rw [← Bool.not_eq_true]
  intro hrequired
  rw [requiresTargets_of_mem htarget hrequired] at h
  exact Bool.false_ne_true h.symm

namespace View

variable {view : View} {rules : Untargetability} {ability : Ability} {controller : PlayerId}

theorem checkTargets_of_free (h : ability.requiresTargets = false) :
    view.checkTargets rules ability controller = .ok () :=
  if_neg (Bool.eq_false_iff.mp h)

theorem canActivate_eq_true_iff :
    view.canActivate rules ability controller = true ↔
      view.checkActivation rules ability controller = .ok () := by
  rw [canActivate, Act.isOk_eq_true_iff]
  exact ⟨fun ⟨_, h⟩ => h, fun h => ⟨(), h⟩⟩

end View

namespace Arena

variable {arena : Arena} {ability : Ability} {controller : PlayerId}

/-- Without targets and without a choice for X, an attempt goes through exactly if the ability may be
used and its source serves. -/
theorem succeeds_prepare_bare (hstrict : arena.lenient = false)
    (hregistered : arena.engine.registry.get? ability.id = some ability)
    (htargets : ability.requiresTargets = false) :
    (prepare ability.id controller [] {}).Succeeds arena ↔
      arena.checkActivation arena.engine.rules ability controller = .ok () ∧
        arena.table.Serves ability.cost ability.source := by
  rw [succeeds_prepare]
  constructor
  · rintro ⟨registered, cost, hcleared, hpaid⟩
    obtain rfl : ability = registered :=
      Option.some.inj (hregistered.symm.trans hcleared.registered)
    obtain rfl : ability.cost.withoutX = cost :=
      Except.ok.inj (ability.cost.fixX_none.symm.trans hcleared.fixed)
    have hserves := ((succeeds_payCost hstrict).mp hpaid).2
    exact ⟨hcleared.allowed, hserves.tap, hserves.sacrifice⟩
  · rintro ⟨hallowed, hserves⟩
    -- what was asked is the cost that is paid, so the check covers the payment
    obtain ⟨-, -, -, -, -, haffords, -⟩ := View.checkActivation_eq_ok_iff.mp hallowed
    have hpool := (payable_of_affords hstrict haffords).pool
    obtain ⟨payer, hpayer, -⟩ := (Option.any_eq_true ..).mp hpool
    refine ⟨ability, ability.cost.withoutX, ?_, ?_⟩
    · exact ⟨hregistered, hallowed, ability.cost.fixX_none,
        View.validateTargets_nil (Ability.required_of_free htargets)
          (Option.isSome_of_eq_some hpayer)⟩
    · exact (succeeds_payCost hstrict).mpr ⟨haffords, hserves.tap, hserves.sacrifice⟩

/-- At a sound table an affordable cost only lacks a source to be tapped. -/
theorem serves_iff {cost : Cost} {source : CardId} (hstrict : arena.lenient = false)
    (hsound : arena.table.Sound)
    (haffords : arena.affords cost.withoutX source controller = true) :
    arena.table.Serves cost source ↔
      (cost.tap = true → arena.table.onBattlefield source = true) := by
  constructor
  · intro hserves htap
    obtain ⟨card, hcard⟩ := Option.isSome_iff_exists.mp (hserves.tap htap)
    exact (Table.permanent?_eq_some_iff.mp hcard).1
  · intro hfield
    constructor
    · intro htap
      obtain ⟨card, hcard, -⟩ := hsound.buriable (hfield htap)
      exact Option.isSome_of_eq_some hcard
    · intro hsacrifice
      exact hsound.buriable ((payable_of_affords hstrict haffords).field hsacrifice)

end Arena

namespace Scene

variable {scene : Scene} {ability : Ability} {player : PlayerId}

theorem canActivate_eq_true_iff :
    scene.canActivate ability player = true ↔
      (ability.isMana = true ∨ scene.stack.holder = player ∧
        (ability.timing.sorcerySpeed = false ∨ scene.stack.items.isEmpty = true)) ∧
        scene.arena.checkActivation scene.engine.rules ability player = .ok () := by
  unfold canActivate
  dsimp only
  rw [Bool.and_eq_true, View.canActivate_eq_true_iff, Bool.or_eq_true, Bool.and_eq_true, beq_iff_eq,
    Bool.or_eq_true, Bool.not_eq_true']

/-- Whatever the stack is, the checks of an ability without target requirements come out the same. -/
theorem checkActivation_bareArena (h : ability.requiresTargets = false) :
    (scene.bareArena false).checkActivation scene.engine.rules ability player = .ok () ↔
      scene.arena.checkActivation scene.engine.rules ability player = .ok () := by
  rw [View.checkActivation_eq_ok_iff, View.checkActivation_eq_ok_iff, View.checkTargets_of_free h,
    View.checkTargets_of_free h]
  exact Iff.rfl

/-- The question and the use. For a seated player and a registered ability without target
requirements, which does nothing but add mana if it is a mana ability, the use without targets or
choices succeeds exactly if the question is answered by yes and the source serves: it is on the
battlefield if the cost taps it, and there with an owner who has piles if the cost sacrifices it. At
a sound table only the tapping is left out by the question. -/
theorem activation_query (hseated : player ∈ scene.stack.seats)
    (hregistered : scene.engine.registry.get? ability.id = some ability)
    (htargets : ability.requiresTargets = false)
    (hmana : ability.isMana = true → ∀ effect ∈ ability.effects, effect.kind = .addMana) :
    ((activate ability.id player [] {}).Succeeds scene ↔
        scene.canActivate ability player = true ∧
          scene.table.Serves ability.cost ability.source) ∧
      (scene.table.Sound → ((activate ability.id player [] {}).Succeeds scene ↔
        scene.canActivate ability player = true ∧
          (ability.cost.tap = true → scene.table.onBattlefield ability.source = true))) := by
  have hquery : (activate ability.id player [] {}).Succeeds scene ↔
      scene.canActivate ability player = true ∧
        scene.table.Serves ability.cost ability.source := by
    have honly : ∀ registered, scene.engine.registry.get? ability.id = some registered →
        registered.isMana = true → ∀ effect ∈ registered.effects, effect.kind = .addMana := by
      intro registered hsame
      obtain rfl : ability = registered := Option.some.inj (hregistered.symm.trans hsame)
      exact hmana
    rw [canActivate_eq_true_iff, succeeds_activate, venue?_of_registered hseated hregistered]
    cases hisMana : ability.isMana with
    | true =>
      simp only [if_true, Option.some.injEq, exists_eq_left', true_or, true_and]
      rw [Arena.succeeds_activate rfl honly, Arena.succeeds_prepare_bare rfl hregistered htargets]
      exact and_congr_left' (checkActivation_bareArena htargets)
    | false =>
      by_cases hopen : scene.stack.holder = player ∧
          (ability.timing.sorcerySpeed = false ∨ scene.stack.items.isEmpty = true)
      · simp only [Bool.false_eq_true, if_false, hopen, if_true, Option.some.injEq, exists_eq_left',
          false_or, true_and]
        rw [Arena.succeeds_activate rfl honly]
        exact Arena.succeeds_prepare_bare rfl hregistered htargets
      · simp only [Bool.false_eq_true, if_false, hopen, reduceCtorEq, false_and, exists_false,
          false_or]
  refine ⟨hquery, fun hsound => hquery.trans (and_congr_right fun hcan => ?_)⟩
  obtain ⟨-, hallowed⟩ := canActivate_eq_true_iff.mp hcan
  obtain ⟨-, -, -, -, -, haffords, -⟩ := View.checkActivation_eq_ok_iff.mp hallowed
  exact Arena.serves_iff rfl hsound haffords

/-- The ability of a creature to tap for one life. -/
def prayer : Ability where
  id := .first
  name := "Prayer"
  kind := .activated
  source := ⟨4⟩
  cost := { tap := true }
  effects := [{ kind := .gainLife, magnitude := 1 }]

/-- A game in which the creature with this ability has taken lethal damage. -/
def wounded : Scene where
  table := ((Table.seat ["A", "B"] 20).createPermanent { Card.blank ⟨4⟩ "C" ⟨1⟩ with
    types := [.creature], power := some 1, toughness := some 1, damage := 1 }).2
  engine := { registry := { abilities := [prayer] } }
  stack := { seats := [⟨1⟩, ⟨2⟩], active := ⟨1⟩, holder := ⟨1⟩ }

/-- The game after the dying creatures were buried; the abilities in play are the same. -/
def fallen : Scene := { wounded with table := (Table.buryDying wounded.table).state }

/-- As long as the creature is on the battlefield it can use the ability. -/
theorem activation_query_wounded :
    wounded.canActivate prayer ⟨1⟩ = true ∧
      (activate prayer.id ⟨1⟩ [] {}).Succeeds wounded := by
  have hcan : wounded.canActivate prayer ⟨1⟩ = true := by decide
  have hserves : wounded.table.Serves prayer.cost prayer.source :=
    ⟨fun _ => rfl, fun hsacrifice => absurd hsacrifice (by decide)⟩
  have hseated : (⟨1⟩ : PlayerId) ∈ wounded.stack.seats := by decide
  have hregistered : wounded.engine.registry.get? prayer.id = some prayer := rfl
  have hquery := activation_query hseated hregistered rfl (by decide)
  exact ⟨hcan, hquery.1.mpr ⟨hcan, hserves⟩⟩

/-- In the graveyard it is still said to be able to, and cannot. -/
theorem query_overlooks_graveyard :
    ⟨1⟩ ∈ fallen.stack.seats ∧ fallen.engine.registry.get? prayer.id = some prayer ∧
      prayer.requiresTargets = false ∧ prayer.cost.mana.hasX = false ∧ prayer.isMana = false ∧
      fallen.canActivate prayer ⟨1⟩ = true ∧
      (activate prayer.id ⟨1⟩ [] {} fallen).result = .error (.unknownEntity ⟨4⟩) ∧
      ¬(activate prayer.id ⟨1⟩ [] {}).Succeeds fallen := by
  have hfails : (activate prayer.id ⟨1⟩ [] {} fallen).result = .error (.unknownEntity ⟨4⟩) := by rfl
  exact ⟨by decide, rfl, rfl, rfl, rfl, by decide, hfails, not_succeeds (Prod.ext hfails rfl)⟩

end Scene

end CardRules
