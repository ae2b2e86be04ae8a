import CardRules.Proofs.Engine.Leaving
import CardRules.Proofs.Stack.Marks

/-!
# Uses of abilities

The registry counts the uses of each ability, in this turn and in the whole game, and an ability at a
limit cannot be used. Here the counters are held against a history of what happened to the registry,
written by somebody who only looks at registrations, at turns, and at whether an attempt to use an
ability got past its payment (`Arena.pays`).

All that can happen to a registry in one go is in `Registry.Step`. Between the check of the limits and
the counting of the use stands the payment, and after it the effects of a mana ability; both may make
abilities go (`Registry.Sheds`), the used one included, and do nothing else to the registry. So the
counters of every ability agree with the history (`Registry.Accounted`), step by step.
-/

set_option autoImplicit false

namespace CardRules

open Act

/-- Something that may have happened to the abilities in play. -/
inductive Usage where
  | nothing
  | registered (ability : Ability)
  /-- An ability was paid for. -/
  | used (id : AbilityId)
  | turnBegun
deriving DecidableEq

/-- The counters of the ability stand at zero. -/
def Ability.Fresh (ability : Ability) : Prop := ability.usesThisTurn = 0 ∧ ability.usesThisGame = 0

/-! ## Histories -/

namespace Usage

/-- The part of a history after the last event of a sort, newest first. -/
def since (mark : Usage → Bool) (history : List Usage) : List Usage :=
  history.reverse.takeWhile fun usage => !mark usage

/-- How often the ability of a number was used since the last event of a sort. -/
def usesSince (mark : Usage → Bool) (history : List Usage) (id : AbilityId) : Nat :=
  (since mark history).count (used id)

section Since

variable {mark : Usage → Bool} {history : List Usage} {usage : Usage} {id : AbilityId}

theorem since_append_singleton (mark : Usage → Bool) (history : List Usage) (usage : Usage) :
    since mark (history ++ [usage]) = if mark usage then [] else usage :: since mark history := by
  rw [since, List.reverse_append, List.reverse_singleton, List.singleton_append, List.takeWhile_cons]
  cases mark usage with
  | true => rfl
  | false => rfl

theorem usesSince_marked (h : mark usage = true) : usesSince mark (history ++ [usage]) id = 0 := by
  rw [usesSince, since_append_singleton, if_pos h, List.count_nil]

theorem usesSince_used (h : mark (used id) = false) :
    usesSince mark (history ++ [used id]) id = usesSince mark history id + 1 := by
  rw [usesSince, since_append_singleton, if_neg (Bool.eq_false_iff.mp h), List.count_cons_self,
    usesSince]

/-- What is not a use of the ability and starts nothing anew does not count. -/
theorem usesSince_other (h : mark usage = false) (hother : usage ≠ used id) :
    usesSince mark (history ++ [usage]) id = usesSince mark history id := by
  rw [usesSince, since_append_singleton, if_neg (Bool.eq_false_iff.mp h),
    List.count_cons_of_ne hother, usesSince]

end Since

/-- A counter agrees with the uses in a history since the last event of a sort, and these are no more
than the limit allows. -/
structure Metered (mark : Usage → Bool) (history : List Usage) (id : AbilityId) (counter : UInt32)
    (limit : Option UInt32) : Prop where
  exact : counter = UInt32.ofNat (usesSince mark history id)
  within (bound : UInt32) (h : limit = some bound) : usesSince mark history id ≤ bound.toNat

namespace Metered

variable {mark : Usage → Bool} {history : List Usage} {usage : Usage} {id : AbilityId}
  {counter : UInt32} {limit : Option UInt32}

/-- Under a limit the counter cannot overflow. -/
theorem toNat_eq (h : Metered mark history id counter limit) {bound : UInt32}
    (hlimit : limit = some bound) : counter.toNat = usesSince mark history id := by
  rw [h.exact, UInt32.toNat_ofNat']
  exact Nat.mod_eq_of_lt (Nat.lt_of_le_of_lt (h.within bound hlimit) bound.toNat_lt)

theorem counter_le (h : Metered mark history id counter limit) {bound : UInt32}
    (hlimit : limit = some bound) : counter ≤ bound := by
  rw [UInt32.le_iff_toNat_le, h.toNat_eq hlimit]
  exact h.within bound hlimit

theorem marked (h : mark usage = true) : Metered mark (history ++ [usage]) id 0 limit where
  exact := by
    rw [usesSince_marked h]
    rfl
  within bound _ := by
    rw [usesSince_marked h]
    exact Nat.zero_le _

theorem used (h : Metered mark history id counter limit) (hmark : mark (Usage.used id) = false)
    (hfree : (limit.any fun bound => bound ≤ counter) = false) :
    Metered mark (history ++ [Usage.used id]) id (counter + 1) limit where
  exact := by
    rw [usesSince_used hmark, h.exact, UInt32.ofNat_add]
    rfl
  within bound hlimit := by
    rw [usesSince_used hmark, ← h.toNat_eq hlimit]
    rw [hlimit, Option.any_some, decide_eq_false_iff_not, UInt32.not_le] at hfree
    exact UInt32.lt_iff_toNat_lt.mp hfree

theorem other (h : Metered mark history id counter limit) (hmark : mark usage = false)
    (hother : usage ≠ Usage.used id) : Metered mark (history ++ [usage]) id counter limit where
  exact := by
    rw [usesSince_other hmark hother]
    exact h.exact
  within bound hlimit := by
    rw [usesSince_other hmark hother]
    exact h.within bound hlimit

end Metered

/-- Whether an ability is registered under the number. -/
def registers (id : AbilityId) : Usage → Bool
  | registered ability => ability.id == id
  | _ => false

/-- Whether the uses in this turn start anew for the number. -/
def renews (id : AbilityId) : Usage → Bool
  | turnBegun => true
  | usage => usage.registers id

end Usage

/-- Both counters of an ability agree with a history, and both limits are kept. -/
structure Ability.Accounted (history : List Usage) (ability : Ability) : Prop where
  turn : Usage.Metered (Usage.renews ability.id) history ability.id ability.usesThisTurn
    ability.usageLimit.perTurn
  game : Usage.Metered (Usage.registers ability.id) history ability.id ability.usesThisGame
    ability.usageLimit.perGame

namespace Ability.Accounted

variable {history : List Usage} {ability : Ability}

theorem of_fresh (h : ability.Fresh) : Accounted [] ability where
  turn := by
    rw [h.1]
    exact ⟨rfl, fun _ _ => Nat.zero_le _⟩
  game := by
    rw [h.2]
    exact ⟨rfl, fun _ _ => Nat.zero_le _⟩

theorem registered (h : ability.Fresh) : Accounted (history ++ [.registered ability]) ability where
  turn := by
    rw [h.1]
    exact .marked (beq_self_eq_true ability.id)
  game := by
    rw [h.2]
    exact .marked (beq_self_eq_true ability.id)

theorem recordUse (h : Accounted history ability) (hfree : ability.usageExhausted = none) :
    Accounted (history ++ [.used ability.id]) ability.recordUse := by
  unfold usageExhausted at hfree
  split at hfree
  · simp at hfree
  · rename_i hturn
    split at hfree
    · simp at hfree
    · rename_i hgame
      exact ⟨h.turn.used rfl (Bool.eq_false_iff.mpr hturn), h.game.used rfl (Bool.eq_false_iff.mpr hgame)⟩

theorem resetTurnUsage (h : Accounted history ability) :
    Accounted (history ++ [.turnBegun]) ability.resetTurnUsage where
  turn := .marked rfl
  game := h.game.other rfl (by simp)

theorem other (h : Accounted history ability) {usage : Usage} (hmark : usage.renews ability.id = false)
    (hother : usage ≠ .used ability.id) : Accounted (history ++ [usage]) ability where
  turn := h.turn.other hmark hother
  game := by
    refine h.game.other ?_ hother
    cases usage with
    | turnBegun => rfl
    | _ => exact hmark

end Ability.Accounted

/-! ## Registries -/

namespace Registry

/-- No two abilities share a number. -/
def Distinct (registry : Registry) : Prop := (registry.abilities.map (·.id)).Nodup

/-- Some abilities may have been forgotten; those that are left are as they were. -/
def Sheds (before after : Registry) : Prop := after.abilities.Sublist before.abilities

/-- All that can happen to a registry in one go. -/
inductive Step (before : Registry) : Usage → Registry → Prop where
  | nothing {after : Registry} (sheds : Sheds before after) : Step before .nothing after
  | registered {ability : Ability} {after : Registry} (new : before.register ability = .ok after) :
    Step before (.registered ability) after
  /-- An ability that is at no limit is paid for, and the use is counted. -/
  | used {ability : Ability} {paid after : Registry} (there : ability ∈ before.abilities)
    (free : ability.usageExhausted = none) (payment : Sheds before paid)
    (effects : Sheds (paid.update ability.id Ability.recordUse) after) :
    Step before (.used ability.id) after
  | turnBegun : Step before .turnBegun before.resetTurnUsage

/-- The counters of the abilities of a number agree with a history. -/
structure Accounted (history : List Usage) (id : AbilityId) (registry : Registry) : Prop where
  distinct : registry.Distinct
  counted : ∀ ability ∈ registry.abilities, ability.id = id → ability.Accounted history

variable {before after registry : Registry} {ability : Ability} {id : AbilityId}

theorem Sheds.refl (registry : Registry) : registry.Sheds registry := List.Sublist.refl _

theorem Distinct.of_sheds (h : before.Distinct) (hsheds : before.Sheds after) : after.Distinct := by
  unfold Distinct at h ⊢
  exact (List.Sublist.map _ hsheds).nodup h

theorem Distinct.get?_eq_some_iff (h : registry.Distinct) :
    registry.get? id = some ability ↔ ability ∈ registry.abilities ∧ ability.id = id :=
  find?_key_eq_some_iff h

theorem register_eq_ok_iff :
    before.register ability = .ok after ↔
      ability.id ≠ .nil ∧ before.get? ability.id = none ∧
        after = { abilities := before.abilities ++ [ability] } := by
  unfold register contains
  by_cases hnil : ability.id = .nil
  · rw [if_pos hnil]
    simp [hnil]
  · rw [if_neg hnil]
    cases hget : before.get? ability.id with
    | none => simp [hnil, eq_comm]
    | some other => simp

theorem Distinct.register (h : before.Distinct) (hnew : before.register ability = .ok after) :
    after.Distinct := by
  obtain ⟨-, hfree, rfl⟩ := register_eq_ok_iff.mp hnew
  unfold Distinct
  rw [List.map_append, List.map_singleton, List.nodup_append]
  refine ⟨h, List.pairwise_singleton _ _, ?_⟩
  intro id hid other hother
  rw [List.mem_singleton.mp hother]
  rintro rfl
  obtain ⟨holder, hholder, hsame⟩ := List.mem_map.mp hid
  have hfound := List.find?_eq_none.mp hfree holder hholder
  exact hfound (beq_iff_eq.mpr hsame)

theorem Distinct.map (h : before.Distinct) {f : Ability → Ability}
    (hf : ∀ ability, (f ability).id = ability.id) :
    Distinct { abilities := before.abilities.map f } := by
  unfold Distinct
  rw [List.map_map]
  have hids : (fun ability : Ability => ability.id) ∘ f = fun ability => ability.id := funext hf
  rw [hids]
  exact h

theorem Distinct.recordUse (h : before.Distinct) (id : AbilityId) :
    (before.update id Ability.recordUse).Distinct := by
  refine h.map fun ability => ?_
  split
  · rfl
  · rfl

/-- Whatever happens to a registry, the history tells of it. -/
theorem Accounted.step {history : List Usage} {usage : Usage} (h : before.Accounted history id)
    (hstep : Step before usage after)
    (hfresh : ∀ ability, usage = .registered ability → ability.id = id → ability.Fresh) :
    after.Accounted (history ++ [usage]) id := by
  cases hstep with
  | nothing sheds =>
    refine ⟨h.distinct.of_sheds sheds, fun ability hmem hid => ?_⟩
    exact (h.counted ability (sheds.subset hmem) hid).other rfl (by simp)
  | @registered new _ hnew =>
    refine ⟨h.distinct.register hnew, fun ability hmem hid => ?_⟩
    obtain ⟨-, hfree, rfl⟩ := register_eq_ok_iff.mp hnew
    rcases List.mem_append.mp hmem with hold | hlast
    · -- the number of the new ability was not taken
      have hother : ¬(ability.id == new.id) = true := List.find?_eq_none.mp hfree ability hold
      refine (h.counted ability hold hid).other ?_ (by simp)
      exact beq_false_of_ne fun hsame => hother (beq_iff_eq.mpr hsame.symm)
    · obtain rfl := List.mem_singleton.mp hlast
      exact .registered (hfresh ability rfl hid)
  | @used user paid _ there free payment effects =>
    have hpaid := h.distinct.of_sheds payment
    refine ⟨(hpaid.recordUse user.id).of_sheds effects, fun ability hmem hid => ?_⟩
    obtain ⟨kept, hkept, rfl⟩ := List.mem_map.mp (effects.subset hmem)
    have hthere : kept ∈ before.abilities := payment.subset hkept
    by_cases hsame : kept.id = user.id
    · -- no two abilities share the number, so this is the one that was used
      obtain rfl : kept = user := List.inj_on_of_nodup_map h.distinct hthere there hsame
      rw [if_pos (beq_self_eq_true kept.id)] at hid ⊢
      exact (h.counted kept hthere hid).recordUse free
    · rw [if_neg (mt beq_iff_eq.mp hsame)] at hid ⊢
      refine (h.counted kept hthere hid).other rfl fun hused => ?_
      exact hsame (Usage.used.inj hused).symm
  | turnBegun =>
    refine ⟨h.distinct.map fun ability => rfl, fun ability hmem hid => ?_⟩
    obtain ⟨kept, hkept, rfl⟩ := List.mem_map.mp hmem
    exact (h.counted kept hkept hid).resetTurnUsage

end Registry

/-! ## Attempts -/

def Board.Sheds (before after : Board) : Prop :=
  before.engine.registry.Sheds after.engine.registry

instance : Std.Refl Board.Sheds := ⟨fun board => .refl board.engine.registry⟩

instance : IsTrans Board Board.Sheds := ⟨fun _ _ _ hab hbc => List.Sublist.trans hbc hab⟩

namespace Arena

/-- Effects and payments make abilities go at most. -/
theorem sheds_handling : Handling (OnBoard Board.Sheds) where
  table arena _ _ := .refl arena.engine.registry
  dropSource _ _ := List.filter_sublist
  queue arena _ := .refl arena.engine.registry
  counter arena _ _ _ := .refl arena.engine.registry

/-- Whether the attempt to use an ability gets past its payment. -/
def pays (arena : Arena) (id : AbilityId) (controller : PlayerId) (targets : List Choice)
    (decision : Decision) : Bool :=
  (arena.engine.registry.get? id).any fun ability =>
    match ability.cost.fixX decision.x with
    | .error _ => false
    | .ok cost =>
      (arena.checkActivation arena.engine.rules ability controller).isOk &&
        (arena.validateTargets arena.engine.rules ability.targets targets controller
          (arena.table.colorsOf ability.source)).isOk &&
        (payCost cost ability.source controller arena).result.isOk

/-- What an attempt to use an ability is in the history. -/
def usage (arena : Arena) (id : AbilityId) (controller : PlayerId) (targets : List Choice)
    (decision : Decision) : Usage :=
  if arena.pays id controller targets decision then .used id else .nothing

variable {arena : Arena} {id : AbilityId} {controller : PlayerId} {targets : List Choice}
  {decision : Decision}

theorem pays_eq_true_iff :
    arena.pays id controller targets decision = true ↔
      ∃ ability cost, Cleared arena id controller targets decision ability cost ∧
        (payCost cost ability.source controller).Succeeds arena := by
  unfold pays
  rw [Option.any_eq_true]
  constructor
  · rintro ⟨ability, hregistered, h⟩
    cases hfixed : ability.cost.fixX decision.x with
    | error fault =>
      rw [hfixed] at h
      simp at h
    | ok cost =>
      rw [hfixed] at h
      simp only [Bool.and_eq_true, isOk_eq_true_iff] at h
      obtain ⟨⟨⟨_, hallowed⟩, _, hvalid⟩, _, hpaid⟩ := h
      exact ⟨ability, cost, ⟨hregistered, hallowed, hfixed, hvalid⟩, (), _, Prod.ext hpaid rfl⟩
  · rintro ⟨ability, cost, hcleared, _, paid, hpaid⟩
    refine ⟨ability, hcleared.registered, ?_⟩
    rw [hcleared.fixed]
    simp only [Bool.and_eq_true, isOk_eq_true_iff]
    exact ⟨⟨⟨(), hcleared.allowed⟩, (), hcleared.valid⟩, _, (Prod.mk.inj hpaid).1⟩

theorem usageExhausted_of_checkUsage {ability : Ability} (h : View.checkUsage ability = .ok ()) :
    ability.usageExhausted = none := by
  unfold View.checkUsage at h
  cases hexhausted : ability.usageExhausted with
  | none => rfl
  | some period =>
    rw [hexhausted] at h
    simp at h

/-- An attempt to use an ability, and whatever it leads to if that makes abilities go at most. -/
theorem step_prepare {β : Type} {next : Ability → Move β}
    (hnext : ∀ ability, Along (OnBoard Board.Sheds) (next ability)) :
    arena.engine.registry.Step (arena.usage id controller targets decision)
      ((prepare id controller targets decision >>= next).outcome arena).2.engine.registry := by
  have hunpaid {fault : Fault} {after : Arena}
      (hout : (prepare id controller targets decision).outcome arena = (.error fault, after)) :
      arena.usage id controller targets decision = .nothing :=
    if_neg fun hpays => not_succeeds hout (succeeds_prepare.mpr (pays_eq_true_iff.mp hpays))
  rcases prepare_cases arena id controller targets decision with
    ⟨fault, hout, -⟩ | ⟨ability, cost, hcleared, hpayment⟩
  · rw [outcome_bind_error hout, hunpaid hout]
    exact .nothing (.refl _)
  · have hsheds := sheds_handling.along_payCost cost ability.source controller arena
    rcases hpayment with ⟨fault, unpaid, hpay, hout⟩ | ⟨paid, hpay, hout⟩
    · rw [hpay] at hsheds
      rw [outcome_bind_error hout, hunpaid hout]
      exact .nothing hsheds
    · have husage : arena.usage id controller targets decision = .used id :=
        if_pos (pays_eq_true_iff.mpr ⟨ability, cost, hcleared, (), paid, hpay⟩)
      have hid : ability.id = id := by simpa using List.find?_some hcleared.registered
      obtain ⟨-, -, -, hallowed, -⟩ := View.checkActivation_eq_ok_iff.mp hcleared.allowed
      rw [hpay] at hsheds
      rw [outcome_bind_ok hout, husage, ← hid]
      refine .used (List.mem_of_find?_eq_some hcleared.registered)
        (usageExhausted_of_checkUsage hallowed) hsheds ?_
      rw [hid]
      exact hnext ability.recordUse (paid.counted id)

theorem step_activate (arena : Arena) (id : AbilityId) (controller : PlayerId)
    (targets : List Choice) (decision : Decision) :
    arena.engine.registry.Step (arena.usage id controller targets decision)
      ((activate id controller targets decision).outcome arena).2.engine.registry := by
  refine step_prepare fun ability => ?_
  split
  · exact (sheds_handling.course.along_applyEffects _ _).bind fun _ => .pure _
  · exact .pure _

theorem step_execute (arena : Arena) (id : AbilityId) (controller : PlayerId)
    (targets : List Choice) (decision : Decision) :
    arena.engine.registry.Step (arena.usage id controller targets decision)
      ((execute id controller targets decision).outcome arena).2.engine.registry :=
  step_prepare fun _ => sheds_handling.course.along_applyEffects _ _

/-- An attempt that is denied is nothing in the history, and changes nothing. -/
theorem usage_of_denied
    (h : ∀ ability cost, ¬Cleared arena id controller targets decision ability cost) :
    arena.usage id controller targets decision = .nothing ∧
      ∃ fault, (activate id controller targets decision).outcome arena = (.error fault, arena) := by
  obtain ⟨fault, hout⟩ := outcome_prepare_refused h
  constructor
  · refine if_neg fun hpays => ?_
    obtain ⟨ability, cost, hcleared, -⟩ := pays_eq_true_iff.mp hpays
    exact h ability cost hcleared
  · exact ⟨fault, outcome_bind_error hout _⟩

end Arena

end CardRules
