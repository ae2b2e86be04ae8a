import CardRules.Proofs.Act
import CardRules.Proofs.Engine.Usage
import CardRules.Proofs.Registry.Indexed
import Mathlib.Data.List.Induction

/-!
# The indexes agree

Both indexes of a registry describe the same abilities, those of the list (`Indexed.Describes`): each is
found under its number and listed once under its card, in the order of registration. Every operation on
the indexes answers what it answers on the list and leaves indexes that describe the list it leaves
(`Describes.perform`). So this holds after any operations, and all that can be seen of the indexes can be
said of the list (`registry_consistent`).
-/

set_option autoImplicit false

namespace CardRules.Registry

open Act

namespace Indexed

/-- Both indexes hold these abilities, registered in this order. -/
structure Describes (index : Indexed) (abilities : List Ability) : Prop where
  distinct : (abilities.map (·.id)).Nodup
  numbered : ∀ ability ∈ abilities, ability.id ≠ .nil
  byId (id : AbilityId) (ability : Ability) :
    index.byId[id]? = some ability ↔ ability ∈ abilities ∧ ability.id = id
  bySource (source : CardId) :
    index.bySource.getD source [] = (abilities.filter (·.source == source)).map (·.id)

variable {index : Indexed} {abilities : List Ability}

/-- Numbers taken out of the map by number are gone, and the others are left alone. -/
theorem getElem?_foldl_erase (ids : List AbilityId) (byId : Std.HashMap AbilityId Ability)
    (id : AbilityId) :
    (ids.foldl (fun byId id => byId.erase id) byId)[id]? = if id ∈ ids then none else byId[id]? := by
  induction ids generalizing byId with
  | nil => simp
  | cons first ids ih =>
    rw [List.foldl_cons, ih, Std.HashMap.getElem?_erase]
    by_cases hfirst : first = id
    · simp [hfirst]
    · simp [hfirst, Ne.symm hfirst]

/-- Each ability is taken out under its own number, whatever was taken out before it. -/
theorem outcome_takeAll {ids : List AbilityId} (hdistinct : ids.Nodup) (index : Indexed) :
    (takeAll ids).outcome index =
      (.ok (ids.filterMap fun id => index.byId[id]?),
        { index with byId := ids.foldl (fun byId id => byId.erase id) index.byId }) := by
  induction ids generalizing index with
  | nil => rfl
  | cons id ids ih =>
    obtain ⟨hfresh, hrest⟩ := List.nodup_cons.mp hdistinct
    -- without this, what is found for the others would be what is left after `id` was taken out
    have hkept : ∀ other ∈ ids, (index.byId.erase id)[other]? = index.byId[other]? := by
      intro other hother
      rw [Std.HashMap.getElem?_erase, if_neg]
      simpa using fun hsame : id = other => hfresh (hsame ▸ hother)
    rw [takeAll, outcome_bind_ok (outcome_get _), outcome_bind_ok (outcome_modify _ _),
      outcome_bind_ok (ih hrest _), List.filterMap_congr hkept]
    cases hfound : index.byId[id]? with
    | none => rw [List.filterMap_cons_none hfound]; rfl
    | some ability => rw [List.filterMap_cons_some hfound]; rfl

theorem describes_empty : ({} : Indexed).Describes [] where
  distinct := List.nodup_nil
  numbered := by simp
  byId id ability := by simp
  bySource source := by simp

namespace Describes

/-! ## What can be seen -/

/-- Under a number stands the ability that the list has under it. -/
theorem getElem?_eq (h : index.Describes abilities) (id : AbilityId) :
    index.byId[id]? = abilities.find? (·.id == id) := by
  apply Option.ext
  intro ability
  rw [h.byId, find?_key_eq_some_iff h.distinct]

theorem notMem_ids (h : index.Describes abilities) {id : AbilityId} (hfree : index.byId[id]? = none) :
    id ∉ abilities.map (·.id) := by
  intro hmem
  obtain ⟨ability, hability, hid⟩ := List.mem_map.mp hmem
  rw [(h.byId id ability).mpr ⟨hability, hid⟩] at hfree
  simp at hfree

/-- The numbers of some of the abilities lead to these abilities. -/
theorem filterMap_ids (h : index.Describes abilities) {part : List Ability}
    (hpart : part ⊆ abilities) : (part.map (·.id)).filterMap (fun id => index.byId[id]?) = part := by
  rw [List.filterMap_map]
  have hfound : ∀ ability ∈ part,
      ((fun id => index.byId[id]?) ∘ fun ability : Ability => ability.id) ability = some ability :=
    fun ability hability => (h.byId _ _).mpr ⟨hpart hability, rfl⟩
  rw [List.filterMap_congr hfound]
  exact List.filterMap_some

theorem ofSource_eq (h : index.Describes abilities) (source : CardId) :
    index.ofSource source = abilities.filter (·.source == source) := by
  unfold ofSource
  rw [h.bySource]
  exact h.filterMap_ids (List.filter_subset_self _)

/-- The map by number lists every ability once. -/
theorem perm_values (h : index.Describes abilities) : index.values.Perm abilities := by
  have hentry {entry : AbilityId × Ability} (hmem : entry ∈ index.byId.toList) :
      entry.2 ∈ abilities ∧ entry.2.id = entry.1 :=
    (h.byId _ _).mp (Std.HashMap.mem_toList_iff_getElem?_eq_some.mp hmem)
  have hids : index.values.map (·.id) = index.byId.keys := by
    rw [values, List.map_map, ← Std.HashMap.map_fst_toList_eq_keys]
    exact List.map_congr_left fun entry hmem => (hentry hmem).2
  -- the keys of a map are distinct and are the numbers of its values, so no value is listed twice
  have hnodup : (index.values.map (·.id)).Nodup := hids ▸ Std.HashMap.nodup_keys
  rw [List.perm_ext_iff_of_nodup (hnodup.of_map _) (h.distinct.of_map _)]
  intro ability
  constructor
  · intro hmem
    obtain ⟨entry, hentryMem, rfl⟩ := List.mem_map.mp hmem
    exact (hentry hentryMem).1
  · intro hmem
    have hfound : (ability.id, ability) ∈ index.byId.toList :=
      Std.HashMap.mem_toList_iff_getElem?_eq_some.mpr ((h.byId _ _).mpr ⟨hmem, rfl⟩)
    exact List.mem_map.mpr ⟨_, hfound, rfl⟩

/-! ## What changes -/

theorem insert (h : index.Describes abilities) {ability : Ability} (hnil : ability.id ≠ .nil)
    (hfree : index.byId[ability.id]? = none) :
    Describes
      { byId := index.byId.insert ability.id ability
        bySource := index.bySource.alter ability.source fun ids =>
          some (ids.getD [] ++ [ability.id]) }
      (abilities ++ [ability]) where
  distinct := by
    rw [List.map_append, List.map_singleton, ← List.concat_eq_append, List.nodup_concat]
    exact ⟨h.notMem_ids hfree, h.distinct⟩
  numbered other hother := by
    rcases List.mem_append.mp hother with hold | hnew
    · exact h.numbered other hold
    · rw [List.mem_singleton.mp hnew]
      exact hnil
  byId id other := by
    rw [Std.HashMap.getElem?_insert, List.mem_append, List.mem_singleton]
    by_cases hid : ability.id = id
    · subst hid
      rw [if_pos (beq_self_eq_true _), Option.some.injEq]
      constructor
      · rintro rfl
        exact ⟨.inr rfl, rfl⟩
      · rintro ⟨hold | rfl, hsame⟩
        -- an ability that was there before would have taken the number
        · exact absurd (List.mem_map.mpr ⟨other, hold, hsame⟩) (h.notMem_ids hfree)
        · rfl
    · rw [if_neg (by simpa using hid), h.byId]
      constructor
      · rintro ⟨hold, hsame⟩
        exact ⟨.inl hold, hsame⟩
      · rintro ⟨hold | rfl, hsame⟩
        · exact ⟨hold, hsame⟩
        · exact absurd hsame hid
  bySource source := by
    have hlisted := h.bySource source
    rw [Std.HashMap.getD_eq_getD_getElem?] at hlisted
    rw [Std.HashMap.getD_alter, List.filter_append, List.map_append]
    by_cases hsource : ability.source = source
    · subst hsource
      rw [if_pos (beq_self_eq_true _), hlisted]
      simp
    · rw [if_neg (by simpa using hsource)]
      simp [h.bySource source, hsource]

/-- A change of the abilities that keeps their numbers and cards is made in the map by number alone. -/
theorem map (h : index.Describes abilities) {f : Ability → Ability}
    (hid : ∀ ability, (f ability).id = ability.id)
    (hsource : ∀ ability, (f ability).source = ability.source)
    {byId : Std.HashMap AbilityId Ability}
    (hbyId : ∀ id : AbilityId, byId[id]? = (index.byId[id]?).map f) :
    Describes { index with byId } (abilities.map f) where
  distinct := Distinct.map (show Distinct { abilities } from h.distinct) hid
  numbered := by
    intro changed hchanged
    obtain ⟨ability, hability, rfl⟩ := List.mem_map.mp hchanged
    rw [hid]
    exact h.numbered ability hability
  byId id changed := by
    rw [hbyId, Option.map_eq_some_iff, List.mem_map]
    constructor
    · rintro ⟨ability, hfound, rfl⟩
      obtain ⟨hability, hsame⟩ := (h.byId id ability).mp hfound
      exact ⟨⟨ability, hability, rfl⟩, (hid ability).trans hsame⟩
    · rintro ⟨⟨ability, hability, rfl⟩, hsame⟩
      exact ⟨ability, (h.byId id ability).mpr ⟨hability, (hid ability).symm.trans hsame⟩, rfl⟩
  bySource source := by
    have hkeep : (fun ability : Ability => ability.source == source) ∘ f =
        fun ability => ability.source == source := by
      funext ability
      rw [Function.comp_apply, hsource]
    have hids : (fun ability : Ability => ability.id) ∘ f = fun ability => ability.id := funext hid
    rw [List.filter_map, hkeep, List.map_map, hids]
    exact h.bySource source

/-- Without a card, the map by number is short of the numbers listed under the card. -/
theorem erase (h : index.Describes abilities) (source : CardId) :
    Describes
      { byId := (index.bySource.getD source []).foldl (fun byId id => byId.erase id) index.byId
        bySource := index.bySource.erase source }
      (abilities.filter (·.source != source)) where
  distinct := (List.filter_sublist.map _).nodup h.distinct
  numbered ability hability := h.numbered ability (List.mem_of_mem_filter hability)
  byId id ability := by
    rw [getElem?_foldl_erase, List.mem_filter]
    by_cases hlisted : id ∈ index.bySource.getD source []
    · rw [if_pos hlisted]
      rw [h.bySource] at hlisted
      obtain ⟨gone, hgone, rfl⟩ := List.mem_map.mp hlisted
      obtain ⟨hregistered, hsource⟩ := List.mem_filter.mp hgone
      constructor
      · intro habsurd
        simp at habsurd
      · rintro ⟨⟨hability, hother⟩, hsame⟩
        -- no two abilities share a number, so this one is of the card that goes
        obtain rfl := List.inj_on_of_nodup_map h.distinct hability hregistered hsame
        simp [beq_iff_eq.mp hsource] at hother
    · rw [if_neg hlisted, h.byId]
      constructor
      · rintro ⟨hability, rfl⟩
        refine ⟨⟨hability, bne_iff_ne.mpr fun hsource => hlisted ?_⟩, rfl⟩
        rw [h.bySource]
        exact List.mem_map.mpr ⟨ability, List.mem_filter.mpr ⟨hability, beq_iff_eq.mpr hsource⟩, rfl⟩
      · rintro ⟨⟨hability, -⟩, hsame⟩
        exact ⟨hability, hsame⟩
  bySource other := by
    rw [Std.HashMap.getD_erase, List.filter_filter]
    by_cases hother : source = other
    · subst hother
      simp
    · rw [if_neg (by simpa using hother), h.bySource]
      refine congrArg _ (List.filter_congr fun ability _ => ?_)
      by_cases hsource : ability.source = other
      · simp [hsource, Ne.symm hother]
      · simp [hsource]

end Describes

/-! ## Operations side by side -/

section Perform

variable {registry : Registry}

/-- Registration looks at both indexes before it changes one of them. -/
theorem outcome_register (ability : Ability) (index : Indexed) :
    (register ability).outcome index =
      if ability.id = .nil then (.error (.badAbility (.unnumbered ability.name)), index)
      else if index.byId.contains ability.id then
        (.error (.badAbility (.duplicate ability.id)), index)
      else
        (.ok ability.id,
          { byId := index.byId.insert ability.id ability
            bySource := index.bySource.alter ability.source fun ids =>
              some (ids.getD [] ++ [ability.id]) }) := by
  rw [register]
  by_cases hnil : ability.id = .nil
  · rw [if_pos hnil, if_pos hnil]
    exact outcome_bind_error (outcome_fail _ _) _
  rw [if_neg hnil, if_neg hnil, outcome_bind_ok (outcome_get _)]
  by_cases htaken : index.byId.contains ability.id
  · rw [if_pos htaken, if_pos htaken]
    exact outcome_bind_error (outcome_fail _ _) _
  · rw [if_neg htaken, if_neg htaken]
    rfl

/-- An ability is refused by both, for the same reason and without a change, or registered by both. -/
theorem Describes.register_cases (h : index.Describes registry.abilities) (ability : Ability) :
    (∃ fault, registry.register ability = .error fault ∧
      (register ability).outcome index = (.error fault, index)) ∨
    ∃ after changed, registry.register ability = .ok after ∧
      (register ability).outcome index = (.ok ability.id, changed) ∧
      changed.Describes after.abilities := by
  rw [outcome_register, Registry.register]
  by_cases hnil : ability.id = .nil
  · left
    exact ⟨_, if_pos hnil, if_pos hnil⟩
  rw [if_neg hnil, if_neg hnil]
  have htaken : registry.contains ability.id = index.byId.contains ability.id := by
    rw [Registry.contains, Registry.get?, ← h.getElem?_eq, Std.HashMap.contains_eq_isSome_getElem?]
  rw [htaken]
  by_cases hcontains : index.byId.contains ability.id
  · left
    exact ⟨_, if_pos hcontains, if_pos hcontains⟩
  · right
    have hfree : index.byId[ability.id]? = none := by
      rw [Std.HashMap.contains_eq_isSome_getElem?] at hcontains
      simpa using hcontains
    exact ⟨_, _, if_neg hcontains, if_neg hcontains, h.insert hnil hfree⟩

theorem Describes.registerAll (h : index.Describes registry.abilities) (abilities : List Ability) :
    ∃ changed,
      (Indexed.registerAll abilities).outcome index =
        (match (registry.registerAll abilities).1 with
          | some fault => .error fault
          | none => .ok (abilities.map (·.id)), changed) ∧
      changed.Describes (registry.registerAll abilities).2.abilities := by
  induction abilities generalizing index registry with
  | nil => exact ⟨index, rfl, h⟩
  | cons ability abilities ih =>
    rw [Indexed.registerAll, Registry.registerAll]
    rcases h.register_cases ability with
      ⟨fault, hlist, hindex⟩ | ⟨after, changed, hlist, hindex, hafter⟩
    · rw [hlist, outcome_bind_error hindex]
      exact ⟨index, rfl, h⟩
    · obtain ⟨all, hall, hdescribes⟩ := ih hafter
      rw [hlist, outcome_bind_ok hindex]
      refine ⟨all, ?_, hdescribes⟩
      cases hfault : (after.registerAll abilities).1 with
      | some fault =>
        rw [hfault] at hall
        rw [outcome_bind_error hall]
      | none =>
        rw [hfault] at hall
        rw [outcome_bind_ok hall]
        rfl

theorem Describes.outcome_unregister (h : index.Describes registry.abilities) (source : CardId) :
    ∃ changed,
      (Indexed.unregister source).outcome index = (.ok (registry.ofSource source), changed) ∧
      changed.Describes (registry.dropSource source).abilities := by
  refine ⟨_, ?_, h.erase source⟩
  have hdistinct : (index.bySource.getD source []).Nodup := by
    rw [h.bySource]
    exact (List.filter_sublist.map _).nodup h.distinct
  rw [Indexed.unregister, outcome_bind_ok (outcome_get _), outcome_bind_ok (outcome_modify _ _),
    outcome_takeAll hdistinct]
  exact congrArg (fun abilities => (Except.ok abilities, _)) (h.ofSource_eq source)

theorem Describes.outcome_recordUse (h : index.Describes registry.abilities) (id : AbilityId) :
    ((registry.get? id = none ∧
      (Indexed.recordUse id).outcome index = (.error (.unknownAbility id), index)) ∨
    ∃ ability changed, registry.get? id = some ability ∧
      (Indexed.recordUse id).outcome index = (.ok (), changed) ∧
      changed.Describes (registry.update id Ability.recordUse).abilities) := by
  have hget : registry.get? id = index.byId[id]? := (h.getElem?_eq id).symm
  rw [hget, Indexed.recordUse]
  cases hfound : index.byId[id]? with
  | none =>
    left
    refine ⟨rfl, ?_⟩
    rw [outcome_bind_ok (outcome_get _), hfound]
    exact outcome_bind_error (outcome_require_none _ _) _
  | some ability =>
    right
    refine ⟨ability, { index with byId := index.byId.modify id Ability.recordUse }, rfl, ?_, ?_⟩
    · rw [outcome_bind_ok (outcome_get _), hfound]
      rfl
    · refine h.map (fun ability => ?_) (fun ability => ?_) fun other => ?_
      · split <;> rfl
      · split <;> rfl
      · rw [Std.HashMap.getElem?_modify]
        by_cases hsame : id = other
        · subst hsame
          rw [if_pos (beq_self_eq_true _), hfound]
          simp [((h.byId _ _).mp hfound).2]
        · rw [if_neg (by simpa using hsame)]
          cases hother : index.byId[other]? with
          | none => rfl
          | some found => simp [((h.byId _ _).mp hother).2, Ne.symm hsame]

theorem Describes.resetTurnUsage (h : index.Describes registry.abilities) :
    Describes { index with byId := index.byId.map fun _ => Ability.resetTurnUsage }
      registry.resetTurnUsage.abilities :=
  h.map (f := Ability.resetTurnUsage) (fun _ => rfl) (fun _ => rfl) fun _ => Std.HashMap.getElem?_map

/-- An operation answers the same on both, and leaves indexes that describe the list it leaves. -/
theorem Describes.perform (h : index.Describes registry.abilities) (operation : Operation) :
    (operation.performIndexed index).result = (operation.perform registry).result ∧
      (operation.performIndexed index).state.Describes (operation.perform registry).state.abilities := by
  suffices hboth : ∃ result changed after, operation.performIndexed.outcome index = (result, changed) ∧
      operation.perform.outcome registry = (result, after) ∧ changed.Describes after.abilities by
    obtain ⟨result, changed, after, hindex, hlist, hafter⟩ := hboth
    obtain ⟨hresult, rfl⟩ := Prod.mk.inj hindex
    obtain ⟨hsame, rfl⟩ := Prod.mk.inj hlist
    exact ⟨hresult.trans hsame.symm, hafter⟩
  cases operation with
  | register ability =>
    rw [Operation.performIndexed, Operation.perform, outcome_map, outcome_bind_ok (outcome_get _)]
    rcases h.register_cases ability with
      ⟨fault, hlist, hindex⟩ | ⟨after, changed, hlist, hindex, hafter⟩
    · rw [hlist, hindex]
      exact ⟨_, _, _, rfl, rfl, h⟩
    · rw [hlist, hindex]
      exact ⟨_, _, _, rfl, rfl, hafter⟩
  | registerAll abilities =>
    obtain ⟨changed, hindex, hafter⟩ := h.registerAll abilities
    rw [Operation.performIndexed, Operation.perform, outcome_map, outcome_bind_ok (outcome_get _), hindex]
    rcases hlist : registry.registerAll abilities with ⟨_ | fault, after⟩
    · rw [hlist] at hafter
      exact ⟨_, _, _, rfl, rfl, hafter⟩
    · rw [hlist] at hafter
      exact ⟨_, _, _, rfl, rfl, hafter⟩
  | unregister source =>
    obtain ⟨changed, hindex, hafter⟩ := h.outcome_unregister source
    rw [Operation.performIndexed, outcome_map, hindex]
    exact ⟨_, _, _, rfl, rfl, hafter⟩
  | recordUse id =>
    rw [Operation.performIndexed, Operation.perform, outcome_map, outcome_bind_ok (outcome_get _)]
    rcases h.outcome_recordUse id with ⟨hlist, hindex⟩ | ⟨ability, changed, hlist, hindex, hafter⟩
    · rw [hlist, hindex]
      exact ⟨_, _, _, rfl, rfl, h⟩
    · rw [hlist, hindex]
      exact ⟨_, _, _, rfl, rfl, hafter⟩
  | resetTurnUsage => exact ⟨_, _, _, rfl, rfl, h.resetTurnUsage⟩

/-- After any operations the indexes describe the list after the same operations. -/
theorem describes_afterAll (operations : List Operation) :
    (Indexed.afterAll operations).Describes (Registry.afterAll operations).abilities := by
  induction operations using List.reverseRecOn with
  | nil => exact describes_empty
  | append_singleton operations operation ih =>
    rw [Indexed.afterAll, Registry.afterAll, List.foldl_append, List.foldl_append]
    exact (ih.perform operation).2

end Perform

end Indexed

/-! ## What waits for a trigger -/

section Waiting

variable {abilities others : List Ability} {trigger : Trigger} {source : Option CardId}

theorem mem_waitingAmong {ability : Ability} :
    ability ∈ waitingAmong abilities trigger source ↔
      ability ∈ abilities ∧ ability.trigger = some trigger ∧ ∀ id ∈ source, ability.source = id := by
  rw [waitingAmong, List.mem_mergeSort, List.mem_filter, Bool.and_eq_true, beq_iff_eq]
  cases source with
  | none => simp
  | some id => simp

theorem pairwise_waitingAmong (abilities : List Ability) (trigger : Trigger) (source : Option CardId) :
    (waitingAmong abilities trigger source).Pairwise fun a b => a.id.number ≤ b.id.number := by
  unfold waitingAmong
  refine (List.pairwise_mergeSort ?_ ?_ _).imp of_decide_eq_true
  · intro a b c hab hbc
    exact decide_eq_true (UInt32.le_trans (of_decide_eq_true hab) (of_decide_eq_true hbc))
  · intro a b
    rw [Bool.or_eq_true, decide_eq_true_iff, decide_eq_true_iff]
    exact UInt32.le_total _ _

/-- Abilities of different numbers wait in the same order, however they are enumerated. -/
theorem waitingAmong_eq_of_perm (hperm : others.Perm abilities)
    (hdistinct : (abilities.map (·.id)).Nodup) :
    waitingAmong others trigger source = waitingAmong abilities trigger source := by
  have hsorted : (waitingAmong others trigger source).Perm (waitingAmong abilities trigger source) :=
    (List.mergeSort_perm _ _).trans ((hperm.filter _).trans (List.mergeSort_perm _ _).symm)
  refine hsorted.eq_of_pairwise (fun a b ha hb hab hba => ?_) (pairwise_waitingAmong _ _ _)
    (pairwise_waitingAmong _ _ _)
  -- a tie would be between two abilities of one number
  have hsame : a.id = b.id := congrArg AbilityId.mk (UInt32.le_antisymm hab hba)
  exact List.inj_on_of_nodup_map hdistinct (hperm.subset (mem_waitingAmong.mp ha).1)
    (mem_waitingAmong.mp hb).1 hsame

/-- No two of the waiting abilities share a number. -/
theorem pairwise_lt_waitingAmong (hdistinct : (abilities.map (·.id)).Nodup) :
    (waitingAmong abilities trigger source).Pairwise fun a b => a.id.number < b.id.number := by
  have hwaiting : ((waitingAmong abilities trigger source).map (·.id)).Nodup := by
    refine ((List.mergeSort_perm _ _).map _).nodup_iff.mpr ?_
    exact (List.filter_sublist.map _).nodup hdistinct
  refine ((pairwise_waitingAmong _ _ _).and (List.pairwise_map.mp hwaiting)).imp ?_
  rintro a b ⟨hle, hne⟩
  refine UInt32.lt_of_le_of_ne hle fun hsame => hne (congrArg AbilityId.mk hsame)

end Waiting

/-! ## All runs -/

theorem state_of_register_error {index : Indexed} {ability : Ability} {fault : Fault}
    (h : ((Operation.register ability).performIndexed index).result = .error fault) :
    ((Operation.register ability).performIndexed index).state = index := by
  have hout : ((Operation.register ability).performIndexed.outcome index) =
      (.error fault, ((Operation.register ability).performIndexed index).state) := by
    rw [← h]
    rfl
  rw [Operation.performIndexed, outcome_map, Indexed.outcome_register] at hout
  split at hout
  · exact (Prod.mk.inj hout).2.symm
  split at hout
  · exact (Prod.mk.inj hout).2.symm
  · simp [Except.map] at hout

/-- After any operations, failing ones among them, both indexes describe the same abilities, those of the
list in the order of registration: each stands under its number, which is not nil, and once in the list of
its card. Operations answer on the indexes what they answer on the list; a registration that is refused
changes nothing; the abilities of a card go together, in the order of registration, and the others stay.
What waits for a trigger is what matches, sorted by number, in whatever order the hash map lists the
abilities, and is the same after any other operations that leave the same abilities registered. -/
theorem registry_consistent (operations : List Operation) :
    let index := Indexed.afterAll operations
    let registry := afterAll operations
    index.Describes registry.abilities ∧
    (∀ operation : Operation,
      (operation.performIndexed index).result = (operation.perform registry).result) ∧
    (∀ id, index.byId[id]? = registry.get? id) ∧
    (∀ source, index.ofSource source = registry.ofSource source) ∧
    (∀ ability fault, ((Operation.register ability).performIndexed index).result = .error fault →
      ((Operation.register ability).performIndexed index).state = index) ∧
    (∀ source,
      ((Operation.unregister source).performIndexed index).result =
          .ok (.forgotten (registry.abilities.filter (·.source == source))) ∧
        ((Operation.unregister source).performIndexed index).state.Describes
          (registry.abilities.filter (·.source != source))) ∧
    (∀ trigger source,
      (∀ ability, ability ∈ index.waitingFor trigger source ↔
        ability ∈ registry.abilities ∧ ability.trigger = some trigger ∧
          ∀ id ∈ source, ability.source = id) ∧
      (index.waitingFor trigger source).Pairwise (fun a b => a.id.number < b.id.number) ∧
      (∀ listing, listing.Perm index.values →
        waitingAmong listing trigger source = registry.waitingFor trigger source) ∧
      ∀ others,
        (∀ ability, ability ∈ (afterAll others).abilities ↔ ability ∈ registry.abilities) →
          (Indexed.afterAll others).waitingFor trigger source = index.waitingFor trigger source) := by
  intro index registry
  have h : index.Describes registry.abilities := Indexed.describes_afterAll operations
  refine ⟨h, fun operation => (h.perform operation).1, h.getElem?_eq, h.ofSource_eq,
    fun ability fault => state_of_register_error, fun source => h.perform (.unregister source),
    fun trigger source => ?_⟩
  have hlisted : index.waitingFor trigger source =
      waitingAmong registry.abilities trigger source :=
    waitingAmong_eq_of_perm h.perm_values h.distinct
  rw [hlisted]
  refine ⟨fun ability => mem_waitingAmong, pairwise_lt_waitingAmong h.distinct, ?_, ?_⟩
  · intro listing hlisting
    exact waitingAmong_eq_of_perm (hlisting.trans h.perm_values) h.distinct
  · intro others hsame
    have hothers := Indexed.describes_afterAll others
    refine waitingAmong_eq_of_perm (hothers.perm_values.trans ?_) h.distinct
    rw [List.perm_ext_iff_of_nodup (hothers.distinct.of_map _) (h.distinct.of_map _)]
    exact hsame

end CardRules.Registry
