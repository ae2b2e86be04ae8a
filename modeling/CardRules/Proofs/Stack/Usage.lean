import CardRules.Proofs.Engine.Usage
import CardRules.Proofs.Stack.Triggers
import CardRules.Proofs.Stack.Venue

/-!
# Usage limits over whole games

Abilities come into play, are used with and without the stack, are forgotten with their cards, and get
their uses back as a turn begins. `Dealing` lists what can be done to a game as far as the abilities in
play can tell. Each dealing is one step of the registry (`Dealing.step`), so in every run the counters
of an ability say how often it was paid for, and that is never more often than its limits allow.
-/

set_option autoImplicit false

namespace CardRules

open Act

/-- What can be done to a game, as far as the abilities in play can tell. -/
inductive Dealing where
  | register (ability : Ability)
  /-- An ability is used without the stack, and takes effect. -/
  | execute (id : AbilityId) (controller : PlayerId) (targets : List Choice) (decision : Decision)
      (lenient : Bool)
  /-- An ability is used without the stack, and is handed back unless it is a mana ability. -/
  | activate (id : AbilityId) (controller : PlayerId) (targets : List Choice) (decision : Decision)
      (lenient : Bool)
  | asked (operation : Operation)
  /-- Effects are applied without the stack. -/
  | apply (effects : List Effect) (context : EffectContext) (lenient : Bool)
  /-- A card is said to have left the battlefield. -/
  | leave (card : CardId) (controller : PlayerId)
  | beginTurn
  /-- Anything else, at the table, on the stack or with the triggers that wait. -/
  | elsewhere (table : Table) (rules : Untargetability) (pending : List PendingTrigger)
      (stack : Stack)

/-- What the use of an ability from the stack is in the history. -/
def Scene.usage (scene : Scene) (id : AbilityId) (player : PlayerId) (targets : List Choice)
    (decision : Decision) : Usage :=
  (scene.venue? id player).elim .nothing fun arena => arena.usage id player targets decision

namespace Dealing

/-- The game after a dealing, whether that succeeds or fails. -/
def after (dealing : Dealing) (scene : Scene) : Scene :=
  match dealing with
  | register ability =>
    match scene.engine.registry.register ability with
    | .ok registry => { scene with engine := { scene.engine with registry } }
    | .error _ => scene
  | execute id controller targets decision lenient =>
    (Scene.inBareArena (Arena.execute id controller targets decision) lenient scene).state
  | activate id controller targets decision lenient =>
    (Scene.inBareArena (Arena.activate id controller targets decision) lenient scene).state
  | asked operation => (operation.perform scene).state
  | apply effects context lenient =>
    (Scene.inBareArena (Arena.applyEffects effects context) lenient scene).state
  | leave card controller => (Scene.inBareArena (Arena.leave card controller) false scene).state
  | beginTurn =>
    { scene with engine := { scene.engine with registry := scene.engine.registry.resetTurnUsage } }
  | elsewhere table rules pending stack =>
    { table, stack, engine := { scene.engine with rules, pending } }

/-- What a dealing is in the history. -/
def usage (dealing : Dealing) (scene : Scene) : Usage :=
  match dealing with
  | register ability =>
    match scene.engine.registry.register ability with
    | .ok _ => .registered ability
    | .error _ => .nothing
  | execute id controller targets decision lenient
  | activate id controller targets decision lenient =>
    (scene.bareArena lenient).usage id controller targets decision
  | asked (.activate id player targets decision) => scene.usage id player targets decision
  | beginTurn => .turnBegun
  | _ => .nothing

/-- The use of an ability from the stack is one step of the registry. -/
theorem step_activate (scene : Scene) (id : AbilityId) (player : PlayerId) (targets : List Choice)
    (decision : Decision) :
    scene.engine.registry.Step (scene.usage id player targets decision)
      ((Scene.activate id player targets decision).outcome scene).2.engine.registry := by
  unfold Scene.usage
  cases hvenue : scene.venue? id player with
  | none =>
    obtain ⟨fault, hout⟩ := Scene.outcome_activate_refused hvenue targets decision
    rw [hout]
    exact .nothing (.refl _)
  | some arena =>
    rw [(Scene.activate_venue hvenue targets decision).2, ← Scene.engine_of_venue hvenue]
    exact Arena.step_activate arena id player targets decision

theorem step (dealing : Dealing) (scene : Scene) :
    scene.engine.registry.Step (dealing.usage scene) (dealing.after scene).engine.registry := by
  cases dealing with
  | register ability =>
    unfold usage after
    dsimp only
    cases hregister : scene.engine.registry.register ability with
    | error fault => exact .nothing (.refl _)
    | ok registry => exact .registered hregister
  | execute id controller targets decision lenient =>
    exact Arena.step_execute (scene.bareArena lenient) id controller targets decision
  | activate id controller targets decision lenient =>
    exact Arena.step_activate (scene.bareArena lenient) id controller targets decision
  | asked operation =>
    -- of the operations only the use of an ability counts anything
    have hsheds (hother : ∀ id player targets decision,
        operation ≠ .activate id player targets decision) :
        scene.engine.registry.Sheds (operation.perform scene).state.engine.registry :=
      Scene.along_perform Arena.sheds_handling.course operation
        (fun id player targets decision h => absurd h (hother id player targets decision)) scene
    cases operation with
    | activate id player targets decision =>
      show scene.engine.registry.Step _
        ((Operation.activate id player targets decision).perform.outcome scene).2.engine.registry
      rw [Operation.perform, outcome_map]
      exact step_activate scene id player targets decision
    | _ => exact .nothing (hsheds nofun)
  | apply effects context lenient =>
    exact .nothing (Arena.sheds_handling.course.along_applyEffects effects context
      (scene.bareArena lenient))
  | leave card controller =>
    exact .nothing (Arena.sheds_handling.along_leave card controller (scene.bareArena false))
  | beginTurn => exact .turnBegun
  | elsewhere table rules pending stack => exact .nothing (.refl _)

end Dealing

namespace Scene

def dealt (scene : Scene) : List Dealing → Scene
  | [] => scene
  | dealing :: dealings => (dealing.after scene).dealt dealings

def usages (scene : Scene) : List Dealing → List Usage
  | [] => []
  | dealing :: dealings => dealing.usage scene :: (dealing.after scene).usages dealings

/-- The history that is written on keeps telling of the registry. -/
theorem accounted_dealt {scene : Scene} {history : List Usage} {id : AbilityId}
    (h : scene.engine.registry.Accounted history id) (dealings : List Dealing)
    (hfresh : ∀ ability, .registered ability ∈ scene.usages dealings → ability.id = id →
      ability.Fresh) :
    (scene.dealt dealings).engine.registry.Accounted (history ++ scene.usages dealings) id := by
  -- along the dealings; what has happened so far is in the history
  induction dealings generalizing scene history with
  | nil =>
    rw [usages, List.append_nil]
    exact h
  | cons dealing dealings ih =>
    have hstep := h.step (dealing.step scene) fun ability hnew hid =>
      hfresh ability (hnew ▸ List.mem_cons_self) hid
    rw [usages, dealt, List.append_cons]
    exact ih hstep fun ability hnew hid => hfresh ability (List.mem_cons_of_mem _ hnew) hid

/-- Usage limits. Start from a game in which no two abilities share a number, and follow an ability
whose counters stand at zero when it is there at the start or is registered. Whatever is done to the
game, and whether it succeeds or fails: at every moment the counter of the turn is the number of times
the ability was paid for since a turn began or it was registered, and the counter of the game the
number since it was registered; neither exceeds its limit, and under a limit it has not overflowed.
An attempt that is denied is not counted, and leaves everything as it was. -/
theorem usage_limited {start : Scene} (hdistinct : start.engine.registry.Distinct) {id : AbilityId}
    (hstart : ∀ ability ∈ start.engine.registry.abilities, ability.id = id → ability.Fresh)
    (dealings : List Dealing)
    (hfresh : ∀ ability, .registered ability ∈ start.usages dealings → ability.id = id →
      ability.Fresh) :
    (∀ ability, (start.dealt dealings).engine.registry.get? id = some ability →
      ability.usesThisTurn = UInt32.ofNat
          (Usage.usesSince (Usage.renews id) (start.usages dealings) id) ∧
        ability.usesThisGame = UInt32.ofNat
          (Usage.usesSince (Usage.registers id) (start.usages dealings) id) ∧
        (∀ limit, ability.usageLimit.perTurn = some limit →
          ability.usesThisTurn.toNat =
            Usage.usesSince (Usage.renews id) (start.usages dealings) id ∧
          ability.usesThisTurn ≤ limit) ∧
        ∀ limit, ability.usageLimit.perGame = some limit →
          ability.usesThisGame.toNat =
            Usage.usesSince (Usage.registers id) (start.usages dealings) id ∧
          ability.usesThisGame ≤ limit) ∧
      ∀ (arena : Arena) (controller : PlayerId) (targets : List Choice) (decision : Decision),
        (∀ ability cost, ¬Arena.Cleared arena id controller targets decision ability cost) →
          arena.usage id controller targets decision = .nothing ∧
          ∃ fault, (Arena.activate id controller targets decision).outcome arena =
            (.error fault, arena) := by
  have hempty : start.engine.registry.Accounted [] id :=
    ⟨hdistinct, fun ability hmem hid => .of_fresh (hstart ability hmem hid)⟩
  have haccounted := accounted_dealt hempty dealings hfresh
  rw [List.nil_append] at haccounted
  refine ⟨fun ability hability => ?_, fun arena controller targets decision =>
    Arena.usage_of_denied⟩
  obtain ⟨hmem, rfl⟩ := haccounted.distinct.get?_eq_some_iff.mp hability
  obtain ⟨hturn, hgame⟩ := haccounted.counted ability hmem rfl
  exact ⟨hturn.exact, hgame.exact,
    fun limit hlimit => ⟨hturn.toNat_eq hlimit, hturn.counter_le hlimit⟩,
    fun limit hlimit => ⟨hgame.toNat_eq hlimit, hgame.counter_le hlimit⟩⟩

/-- One life, once each turn and twice each game. -/
def twice : Ability where
  id := .first
  name := "Twice"
  kind := .activated
  source := ⟨4⟩
  cost := {}
  effects := [{ kind := .gainLife, magnitude := 1 }]
  usageLimit := { perTurn := some 1, perGame := some 2 }

/-- The ability is registered and used; two more attempts are denied, with the stack and without. A
turn begins and it is used again, and in the turn after that it is denied. -/
def threeTurns : List Dealing :=
  [.register twice, .asked (.activate .first ⟨1⟩ [] {}), .asked (.activate .first ⟨1⟩ [] {}),
    .execute .first ⟨1⟩ [] {} false, .beginTurn, .execute .first ⟨1⟩ [] {} false, .beginTurn,
    .activate .first ⟨1⟩ [] {} false]

/-- It was used twice in the game, and not in the last turn. -/
theorem usage_limited_twice :
    let start : Scene := {
      table := .seat ["A", "B"] 20
      engine := {}
      stack := { seats := [⟨1⟩, ⟨2⟩], active := ⟨1⟩, holder := ⟨1⟩ } }
    start.usages threeTurns =
        [.registered twice, .used .first, .nothing, .nothing, .turnBegun, .used .first, .turnBegun,
          .nothing] ∧
      ∃ ability, (start.dealt threeTurns).engine.registry.get? .first = some ability ∧
        ability.usesThisGame.toNat = 2 ∧ ability.usesThisTurn.toNat = 0 := by
  intro start
  have husages : start.usages threeTurns =
      [.registered twice, .used .first, .nothing, .nothing, .turnBegun, .used .first, .turnBegun,
        .nothing] := by decide
  have hdistinct : start.engine.registry.Distinct := List.nodup_nil
  have hstart : ∀ ability ∈ start.engine.registry.abilities, ability.id = .first →
      ability.Fresh := by
    intro ability hability
    exact absurd hability List.not_mem_nil
  have hfresh : ∀ ability, .registered ability ∈ start.usages threeTurns → ability.id = .first →
      ability.Fresh := by
    intro ability hnew _
    rw [husages] at hnew
    obtain rfl : ability = twice := by simpa using hnew
    exact ⟨rfl, rfl⟩
  obtain ⟨ability, hability⟩ : ∃ ability,
      (start.dealt threeTurns).engine.registry.get? .first = some ability :=
    Option.isSome_iff_exists.mp (by decide)
  have hcounted := (usage_limited hdistinct hstart threeTurns hfresh).1 ability hability
  obtain ⟨hturn, hgame, -, -⟩ := hcounted
  refine ⟨husages, ability, hability, ?_, ?_⟩
  · rw [hgame, husages]
    decide
  · rw [hturn, husages]
    decide

end Scene

end CardRules
