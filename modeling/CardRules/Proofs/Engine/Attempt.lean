import CardRules.Proofs.Engine.Payment
import CardRules.Proofs.Mana.Payment
import CardRules.Stack.Play

/-!
# Attempts to use an ability

An attempt to use an ability has to be cleared before anything is paid: the number is registered,
the checks are passed, the chosen X fits the cost and the targets are valid (`Cleared`). What is not
cleared is refused and changes nothing; what is cleared comes to its payment, and a use is counted
exactly if the payment goes through (`prepare_cases`).

The payment is the last thing that can fail, as a mana ability that only adds mana cannot. So using
an ability either succeeds or changes nothing (`activate_all_or_nothing`).
-/

set_option autoImplicit false

namespace CardRules

theorem Ability.requiresTargets_of_mem {ability : Ability} {target : Target}
    (hmem : target ∈ ability.targets) (hrequired : target.required = true) :
    ability.requiresTargets = true := by
  obtain ⟨effect, heffect, htarget⟩ := List.mem_flatMap.mp hmem
  exact List.any_eq_true.mpr ⟨effect, heffect, List.any_eq_true.mpr ⟨target, htarget, hrequired⟩⟩

/-- Only the mana of a cost has to do with X. -/
theorem Cost.fixX_eq_ok_iff {cost fixed : Cost} {x : Option UInt32} :
    cost.fixX x = .ok fixed ↔
      ∃ mana, cost.mana.withX (x.getD 0) = some mana ∧ fixed = { cost with mana := mana } := by
  unfold fixX withX
  cases cost.mana.withX (x.getD 0) with
  | none => simp
  | some mana => simp [eq_comm]

/-- If no X is chosen it counts as zero, which always fits. -/
theorem Cost.fixX_none (cost : Cost) : cost.fixX none = .ok cost.withoutX :=
  fixX_eq_ok_iff.mpr ⟨_, cost.mana.withX_zero, rfl⟩

/-- Whoever may use an ability passes all the checks, one by one. -/
theorem View.checkActivation_eq_ok_iff {view : View} {rules : Untargetability} {ability : Ability}
    {controller : PlayerId} :
    view.checkActivation rules ability controller = .ok () ↔
      ability.kind.isActivatable = true ∧
      ((view.table.card? ability.source).all fun card => card.controller == controller) = true ∧
      view.checkTiming ability.timing controller = .ok () ∧
      checkUsage ability = .ok () ∧
      view.checkUntapped ability = .ok () ∧
      view.affords ability.cost.withoutX ability.source controller = true ∧
      view.checkTargets rules ability controller = .ok () := by
  unfold checkActivation
  simp only [bind_eq_ok_iff, demand_eq_ok_iff]

/-! ## Want of means -/

namespace View

variable {fault : Fault} (hlate : fault = .denied .cannotPayCost ∨ fault = .denied .noLegalTargets)

include hlate

/-- The first checks have answers of their own, none about the cost or the targets. -/
theorem checkTiming_ne_late (view : View) (timing : Timing) (controller : PlayerId) :
    view.checkTiming timing controller ≠ .error fault := by
  unfold checkTiming
  rcases hlate with rfl | rfl
  · simp [bind_eq_error_iff, demand_eq_error_iff]
  · simp [bind_eq_error_iff, demand_eq_error_iff]

theorem checkUsage_ne_late (ability : Ability) : checkUsage ability ≠ .error fault := by
  unfold checkUsage
  rcases hlate with rfl | rfl
  · split <;> simp
  · split <;> simp

theorem checkUntapped_ne_late (view : View) (ability : Ability) :
    view.checkUntapped ability ≠ .error fault := by
  have hdemand (condition : Bool) : demand condition (.denied .sourceTapped) ≠ .error fault := by
    intro h
    obtain ⟨-, rfl⟩ := demand_eq_error_iff.mp h
    simp at hlate
  unfold checkUntapped
  split
  · split
    · rcases hlate with rfl | rfl
      · simp
      · simp
    · exact hdemand _
  · exact nofun

/-- The cost and the targets are looked at last: an ability is denied for want of one of them only if it
passes all checks before. -/
theorem checkActivation_eq_late_iff (view : View) (rules : Untargetability) (ability : Ability)
    (controller : PlayerId) :
    view.checkActivation rules ability controller = .error fault ↔
      ability.kind.isActivatable = true ∧
      ((view.table.card? ability.source).all fun card => card.controller == controller) = true ∧
      view.checkTiming ability.timing controller = .ok () ∧
      checkUsage ability = .ok () ∧
      view.checkUntapped ability = .ok () ∧
      (view.affords ability.cost.withoutX ability.source controller = false ∧
          .denied .cannotPayCost = fault ∨
        view.affords ability.cost.withoutX ability.source controller = true ∧
          view.checkTargets rules ability controller = .error fault) := by
  have hkind : Fault.denied (.notActivatable ability.kind) ≠ fault := by
    rintro rfl
    simp at hlate
  have hcontroller : Fault.denied .notController ≠ fault := by
    rintro rfl
    simp at hlate
  unfold checkActivation
  simp only [bind_eq_error_iff, demand_eq_error_iff, demand_eq_ok_iff, hkind, hcontroller,
    checkTiming_ne_late hlate, checkUsage_ne_late hlate, checkUntapped_ne_late hlate, and_false,
    false_or]

end View

namespace Arena

open Act

variable {arena : Arena} {id : AbilityId} {controller : PlayerId} {targets : List Choice}
  {decision : Decision}

/-! ## Clearance -/

/-- The attempt may come to its payment, with this ability and this cost. -/
structure Cleared (arena : Arena) (id : AbilityId) (controller : PlayerId) (targets : List Choice)
    (decision : Decision) (ability : Ability) (cost : Cost) : Prop where
  registered : arena.engine.registry.get? id = some ability
  allowed : arena.checkActivation arena.engine.rules ability controller = .ok ()
  fixed : ability.cost.fixX decision.x = .ok cost
  valid : arena.validateTargets arena.engine.rules ability.targets targets controller
    (arena.table.colorsOf ability.source) = .ok ()

/-- The arena with one more use of an ability counted. -/
def counted (arena : Arena) (id : AbilityId) : Arena :=
  { arena with
    engine := { arena.engine with registry := arena.engine.registry.update id Ability.recordUse } }

theorem outcome_prepare_cleared {ability : Ability} {cost : Cost}
    (h : Cleared arena id controller targets decision ability cost) :
    (prepare id controller targets decision).outcome arena =
      match (payCost cost ability.source controller).outcome arena with
      | (.ok (), paid) => (.ok ability.recordUse, paid.counted id)
      | (.error fault, unpaid) => (.error fault, unpaid) := by
  have hchecked : (do
      arena.checkActivation arena.engine.rules ability controller
      ability.cost.fixX decision.x) = .ok cost := bind_eq_ok_iff.mpr ⟨h.allowed, h.fixed⟩
  have hcounted (paid : Arena) :
      (changeRegistry (·.update id Ability.recordUse)).outcome paid = (.ok (), paid.counted id) := rfl
  unfold prepare
  rw [outcome_bind_ok (outcome_get arena), h.registered, outcome_bind_ok (outcome_require_some _ _ _)]
  dsimp only
  rw [hchecked, h.valid, outcome_bind_ok (outcome_ofExcept _ _)]
  rcases hpaid : (payCost cost ability.source controller).outcome arena with ⟨fault | _, paid⟩
  · rw [outcome_bind_error hpaid]
  · rw [outcome_bind_ok hpaid, outcome_bind_ok (hcounted paid)]
    rfl

theorem outcome_prepare_refused
    (h : ∀ ability cost, ¬Cleared arena id controller targets decision ability cost) :
    ∃ fault, (prepare id controller targets decision).outcome arena = (.error fault, arena) := by
  unfold prepare
  rw [outcome_bind_ok (outcome_get arena)]
  cases hregistered : arena.engine.registry.get? id with
  | none => exact ⟨_, outcome_bind_error (outcome_require_none _ _) _⟩
  | some ability =>
    rw [outcome_bind_ok (outcome_require_some _ _ _)]
    dsimp only
    split
    · exact ⟨_, rfl⟩
    · rename_i cost hchecked
      obtain ⟨hallowed, hfixed⟩ := bind_eq_ok_iff.mp hchecked
      cases hvalid : arena.validateTargets arena.engine.rules ability.targets targets controller
        (arena.table.colorsOf ability.source) with
      | error fault => exact ⟨fault, outcome_bind_error (outcome_ofExcept _ _) _⟩
      | ok _ => exact absurd ⟨hregistered, hallowed, hfixed, hvalid⟩ (h ability cost)

/-- An attempt is refused without a trace, or it is cleared and comes to what its payment comes to,
with a use counted if that goes through. -/
theorem prepare_cases (arena : Arena) (id : AbilityId) (controller : PlayerId)
    (targets : List Choice) (decision : Decision) :
    (∃ fault, (prepare id controller targets decision).outcome arena = (.error fault, arena) ∧
        ∀ ability cost, ¬Cleared arena id controller targets decision ability cost) ∨
      ∃ ability cost, Cleared arena id controller targets decision ability cost ∧
        ((∃ fault unpaid,
            (payCost cost ability.source controller).outcome arena = (.error fault, unpaid) ∧
            (prepare id controller targets decision).outcome arena = (.error fault, unpaid)) ∨
          ∃ paid, (payCost cost ability.source controller).outcome arena = (.ok (), paid) ∧
            (prepare id controller targets decision).outcome arena =
              (.ok ability.recordUse, paid.counted id)) := by
  by_cases hcleared : ∃ ability cost, Cleared arena id controller targets decision ability cost
  · obtain ⟨ability, cost, hcleared⟩ := hcleared
    have hout := outcome_prepare_cleared hcleared
    refine .inr ⟨ability, cost, hcleared, ?_⟩
    rcases hpaid : (payCost cost ability.source controller).outcome arena with ⟨fault | _, paid⟩
    · rw [hpaid] at hout
      exact .inl ⟨fault, paid, rfl, hout⟩
    · rw [hpaid] at hout
      exact .inr ⟨paid, rfl, hout⟩
  · have hnone : ∀ ability cost, ¬Cleared arena id controller targets decision ability cost :=
      fun ability cost h => hcleared ⟨ability, cost, h⟩
    obtain ⟨fault, hout⟩ := outcome_prepare_refused hnone
    exact .inl ⟨fault, hout, hnone⟩

theorem prepare_eq_ok {prepared : Ability} {after : Arena} :
    (prepare id controller targets decision).outcome arena = (.ok prepared, after) ↔
      ∃ ability cost paid, Cleared arena id controller targets decision ability cost ∧
        (payCost cost ability.source controller).outcome arena = (.ok (), paid) ∧
        prepared = ability.recordUse ∧ after = paid.counted id := by
  constructor
  · intro h
    rcases prepare_cases arena id controller targets decision with
      ⟨fault, hout, -⟩ | ⟨ability, cost, hcleared, ⟨fault, unpaid, -, hout⟩ | ⟨paid, hpaid, hout⟩⟩
    · rw [h] at hout
      simp at hout
    · rw [h] at hout
      simp at hout
    · rw [h] at hout
      obtain ⟨hprepared, hafter⟩ := Prod.mk.inj hout
      exact ⟨ability, cost, paid, hcleared, hpaid, Except.ok.inj hprepared, hafter⟩
  · rintro ⟨ability, cost, paid, hcleared, hpaid, rfl, rfl⟩
    rw [outcome_prepare_cleared hcleared, hpaid]

/-- Which attempts go through: those that are cleared and can be paid for. -/
theorem succeeds_prepare :
    (prepare id controller targets decision).Succeeds arena ↔
      ∃ ability cost, Cleared arena id controller targets decision ability cost ∧
        (payCost cost ability.source controller).Succeeds arena := by
  constructor
  · rintro ⟨prepared, after, h⟩
    obtain ⟨ability, cost, paid, hcleared, hpaid, -, -⟩ := prepare_eq_ok.mp h
    exact ⟨ability, cost, hcleared, (), paid, hpaid⟩
  · rintro ⟨ability, cost, hcleared, _, paid, hpaid⟩
    exact ⟨_, _, prepare_eq_ok.mpr ⟨ability, cost, paid, hcleared, hpaid, rfl, rfl⟩⟩

/-! ## Using an ability -/

/-- What was used was cleared, paid for and counted. A mana ability has taken effect then, and any
other waits for its place on the stack. -/
theorem cleared_of_activate {used : Activation} {after : Arena}
    (h : (activate id controller targets decision).outcome arena = (.ok used, after)) :
    ∃ ability cost paid, Cleared arena id controller targets decision ability cost ∧
      (payCost cost ability.source controller).outcome arena = (.ok (), paid) ∧
      (ability.isMana = true ∧ (resolveAbility ability.recordUse controller targets decision).outcome
          (paid.counted id) = (.ok (), after) ∨
        ability.isMana = false ∧ used = .pending (.ability ability.recordUse) ∧
          after = paid.counted id) := by
  unfold activate at h
  obtain ⟨prepared, counted, hprepared, h⟩ := outcome_bind_eq_ok.mp h
  obtain ⟨ability, cost, paid, hcleared, hpaid, rfl, rfl⟩ := prepare_eq_ok.mp hprepared
  refine ⟨ability, cost, paid, hcleared, hpaid, ?_⟩
  have hkind : ability.recordUse.isMana = ability.isMana := rfl
  rw [hkind] at h
  cases hmana : ability.isMana with
  | true =>
    rw [if_pos hmana] at h
    obtain ⟨_, resolved, hresolved, h⟩ := outcome_bind_eq_ok.mp h
    obtain ⟨-, rfl⟩ := Prod.mk.inj h
    exact .inl ⟨rfl, hresolved⟩
  | false =>
    rw [if_neg (Bool.eq_false_iff.mp hmana)] at h
    obtain ⟨hused, hafter⟩ := Prod.mk.inj h
    exact .inr ⟨rfl, (Except.ok.inj hused).symm, hafter.symm⟩

/-- Checking, paying and counting go through as a whole or not at all. -/
theorem atomic_prepare (hstrict : arena.lenient = false) (hsound : arena.table.Sound) :
    (prepare id controller targets decision).Atomic arena := by
  intro fault after h
  rcases prepare_cases arena id controller targets decision with
    ⟨fault', hout, -⟩ | ⟨ability, cost, -, ⟨fault', unpaid, hpay, hout⟩ | ⟨paid, -, hout⟩⟩
  · rw [h] at hout
    exact (Prod.mk.inj hout).2
  · rw [h] at hout
    obtain ⟨-, rfl⟩ := Prod.mk.inj hout
    exact atomic_payCost hstrict hsound cost ability.source controller fault' after hpay
  · rw [h] at hout
    simp at hout

theorem safe_addMana (player : PlayerId) (color : Color) (amount : UInt8) :
    Safe (fun arena => player ∈ arena.table.seats)
      (onTable (Table.addMana player color amount)) := by
  intro arena hseated
  have hout := outcome_onTable (Table.addMana player color amount) arena
  rw [Table.outcome_addMana hseated] at hout
  refine ⟨(), _, hout, ?_⟩
  have hkeeps := Table.keeps_frame.along_addMana player color amount arena.table
  rw [Table.outcome_addMana hseated] at hkeeps
  show player ∈ (arena.table.updatePlayer player (·.addMana color amount)).seats
  rw [hkeeps.seats]
  exact hseated

/-- Effects that add mana succeed for whoever sits at the table. -/
theorem safe_applyEffects_addMana {effects : List Effect} {context : EffectContext}
    {player : PlayerId} (hplayer : context.controller = player)
    (h : ∀ effect ∈ effects, effect.kind = .addMana) :
    Safe (fun arena => player ∈ arena.table.seats) (applyEffects effects context) := by
  -- along the effects; none of them makes the player leave
  induction effects generalizing context with
  | nil => exact .pure ()
  | cons effect effects ih =>
    have hchange (context : EffectContext) (hplayer : context.controller = player) :
        Safe (fun arena => player ∈ arena.table.seats) (change effect context) := by
      unfold change
      rw [h effect List.mem_cons_self, hplayer]
      exact Safe.forM fun yield _ => safe_addMana player yield.1 yield.2
    unfold applyEffects applyEffect
    refine ((hchange _ ?_).bind fun _ => .report _ _).bind fun _ => ih ?_ fun effect' hmem => ?_
    · exact hplayer
    · exact hplayer
    · exact h effect' (List.mem_cons_of_mem effect hmem)

section Activate

variable (hstrict : arena.lenient = false)
  (hmana : ∀ ability, arena.engine.registry.get? id = some ability → ability.isMana = true →
    ∀ effect ∈ ability.effects, effect.kind = .addMana)

include hstrict hmana

/-- Once an ability is paid for nothing can fail any more, provided that a mana ability does nothing
but add mana. -/
theorem succeeds_activate :
    (activate id controller targets decision).Succeeds arena ↔
      (prepare id controller targets decision).Succeeds arena := by
  unfold activate
  rw [succeeds_bind]
  constructor
  · rintro ⟨ability, arena', hprepared, -⟩
    exact ⟨ability, arena', hprepared⟩
  · rintro ⟨ability, arena', hprepared⟩
    refine ⟨ability, arena', hprepared, ?_⟩
    obtain ⟨registered, cost, paid, hcleared, hpaid, rfl, rfl⟩ := prepare_eq_ok.mp hprepared
    have hseated : controller ∈ paid.table.seats := seated_of_payCost hstrict hpaid
    -- whoever has paid is there to get the mana
    split
    · rename_i hisMana
      have heffects := hmana registered hcleared.registered hisMana
      have hsafe : Safe (fun arena => controller ∈ arena.table.seats)
          (resolveAbility registered.recordUse controller targets decision) :=
        safe_applyEffects_addMana rfl heffects
      exact (hsafe.bind fun _ => .pure _).succeeds hseated
    · exact ⟨_, _, rfl⟩

theorem atomic_activate (hsound : arena.table.Sound) :
    (activate id controller targets decision).Atomic arena := by
  rcases hprepared : (prepare id controller targets decision).outcome arena with
    ⟨fault | ability, arena'⟩
  · intro fault' arena'' hout
    unfold activate at hout
    rw [outcome_bind_error hprepared] at hout
    obtain ⟨-, rfl⟩ := Prod.mk.inj hout
    exact atomic_prepare hstrict hsound fault arena' hprepared
  · exact ((succeeds_activate hstrict hmana).mpr ⟨ability, arena', hprepared⟩).atomic

end Activate

end Arena

namespace Scene

open Act

/-- All or nothing. At a sound table, using an ability that is not a mana ability, or does nothing
but add mana, either succeeds or leaves table, engine and stack as they were, for whatever player,
targets and decision it is tried. -/
theorem activate_all_or_nothing {scene : Scene} (hsound : scene.table.Sound) {id : AbilityId}
    (hmana : ∀ ability, scene.engine.registry.get? id = some ability → ability.isMana = true →
      ∀ effect ∈ ability.effects, effect.kind = .addMana)
    {player : PlayerId} {targets : List Choice} {decision : Decision} {fault : Fault}
    (hfail : (activate id player targets decision scene).result = .error fault) :
    (activate id player targets decision scene).state = scene := by
  have hatomic : (activate id player targets decision).Atomic scene := by
    unfold activate
    refine Atomic.bind_of_unchanged rfl fun scene' hget => ?_
    obtain rfl : scene = scene' := by simpa using hget
    refine Atomic.bind_of_unchanged rfl fun _ _ => ?_
    refine Atomic.bind_of_unchanged (snd_outcome_require _ _ scene) fun ability _ => ?_
    split
    · have hbare : (inBareArena (Arena.activate id player targets decision) false).Atomic scene :=
        Atomic.within (Arena.atomic_activate rfl hmana hsound) rfl
      refine Atomic.bind_succeeds ?_ fun _ after _ => ⟨none, after, rfl⟩
      exact hbare.bind_succeeds fun _ after _ => ⟨(), after, rfl⟩
    · refine Atomic.bind_of_unchanged rfl fun _ _ => ?_
      dsimp only
      split
      · exact Atomic.of_unchanged rfl
      · have harena : (inArena (Arena.activate id player targets decision)).Atomic scene :=
          Atomic.within (Arena.atomic_activate rfl hmana hsound) rfl
        refine harena.bind_succeeds fun used after _ => ?_
        cases used with
        | pending object => exact ⟨_, _, rfl⟩
        | manaResolved => exact ⟨_, _, rfl⟩
  exact hatomic fault _ (Prod.ext hfail rfl)

/-- A game in which the first player's only card is in the hand, and has an ability for tapping it
and paying life. -/
def untappable : Scene where
  table := { Table.seat ["A", "B"] 20 with
    cards := { entries := [(⟨4⟩, .blank ⟨4⟩ "C" ⟨1⟩)] } }
  engine := { registry := { abilities := [{
    id := ⟨1⟩, name := "C", kind := .activated, source := ⟨4⟩
    cost := { tap := true, life := 2 }, effects := [] }] } }
  stack := { seats := [⟨1⟩, ⟨2⟩], active := ⟨1⟩, holder := ⟨1⟩ }

/-- Every check is passed, the card cannot be tapped where it is, and no life is paid. -/
theorem activate_all_or_nothing_untappable :
    (activate ⟨1⟩ ⟨1⟩ [] {} untappable).result = .error (.unknownEntity ⟨4⟩) ∧
      (activate ⟨1⟩ ⟨1⟩ [] {} untappable).state = untappable := by
  have hsound : untappable.table.Sound := fun id hid => absurd hid List.not_mem_nil
  have hfail : (activate ⟨1⟩ ⟨1⟩ [] {} untappable).result = .error (.unknownEntity ⟨4⟩) := by rfl
  exact ⟨hfail, activate_all_or_nothing hsound (by decide) hfail⟩

end Scene

end CardRules
