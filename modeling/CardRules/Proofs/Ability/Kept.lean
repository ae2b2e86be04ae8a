import CardRules.Proofs.Ability.Drafted
import CardRules.Proofs.Ability.Lords
import CardRules.Proofs.Ability.Refining
import CardRules.Proofs.Target.Legal

/-!
# Restrictions under a close reading

Of all that can be drafted from a sentence, only the target of a lord has restrictions before target
phrases are read closely (`Draft.shape_of_sentence`). So there is nothing that a close reading could take
away from any other ability. From a lord it takes the subtype, and what keeps it from affecting itself, if
the subtype is the word "target"; for then its sentence has a phrase, and the restrictions of a phrase
replace those of the slot. All other restrictions are kept, and nothing is a legal target that was none
before (`restrictions_kept`).
-/

set_option autoImplicit false

namespace CardRules

/-! ## Slots -/

namespace Target

/-- Whatever is legal for the new requirement is legal for the old one. -/
def Admits (slot new : Target) : Prop :=
  ∀ (rules : Untargetability) (candidate : Candidate) (player : Player) (colors : List Color),
    new.accepts rules candidate player colors = true → slot.accepts rules candidate player colors = true

/-- With more restrictions less is legal. -/
theorem admits_of_subset {slot new : Target} (hkind : new.kind = slot.kind)
    (h : slot.restrictions ⊆ new.restrictions) : slot.Admits new := by
  intro rules candidate player colors hlegal
  exact accepts_of_accepts hlegal hkind h (List.Subset.refl _) (.inl rfl)

/-- Of a restriction to what the player controls, to a subtype and perhaps more, only the first is left. -/
def Overwritten (slot new : Target) : Prop :=
  new.restrictions = [⟨.controller .you, false⟩] ∧
    ∃ word lost, slot.restrictions = ⟨.controller .you, false⟩ :: ⟨.subtype word, false⟩ :: lost

theorem Overwritten.not_subset {slot new : Target} (h : slot.Overwritten new) :
    ¬slot.restrictions ⊆ new.restrictions := by
  obtain ⟨hnew, word, lost, hslot⟩ := h
  rw [hnew, hslot]
  simp

end Target

/-! ## The slots of an ability -/

namespace Ability

theorem targets_refine_of_fit {ability : Ability} (h : ability.PhrasesFit) :
    ability.refine.2.targets =
      List.zipWith Target.refined ability.targets (phrasesIn ability.oracleText.toList) := by
  rw [refine_of_fit h]
  exact Effect.targetsOf_refineAll ability.effects _ h.2

theorem forall₂_targets_refine (ability : Ability) :
    List.Forall₂ Target.Refines ability.targets ability.refine.2.targets := by
  by_cases h : ability.PhrasesFit
  · rw [targets_refine_of_fit h]
    exact Effect.forall₂_refined ability.targets h.2
  · rw [refine_of_not_fit h]
    exact List.forall₂_same.mpr fun slot _ => slot.refines_refl

/-- Whether the ability is static, and its sentence names "target creatures". -/
def namesTargets (ability : Ability) : Bool :=
  ability.kind == .static && Phrase.namesTargets ability.oracleText.toList

/-- What a close reading does to the restrictions of a slot: it keeps them, unless the sentence names
"target creatures". -/
structure Keeps (ability : Ability) (slot new : Target) : Prop where
  kept : slot.restrictions ⊆ new.restrictions ↔ ability.namesTargets = false
  admits (h : ability.namesTargets = false) : slot.Admits new
  overwritten (h : ability.namesTargets = true) : slot.Overwritten new

theorem Keeps.of_subset {ability : Ability} {slot new : Target} (hfree : ability.namesTargets = false)
    (hrefines : slot.Refines new) (h : slot.restrictions ⊆ new.restrictions) : ability.Keeps slot new where
  kept := iff_of_true h hfree
  admits _ := Target.admits_of_subset hrefines.kind h
  overwritten hnames := absurd (hfree.symm.trans hnames) Bool.false_ne_true

theorem Keeps.of_overwritten {ability : Ability} {slot new : Target} (hnames : ability.namesTargets = true)
    (h : slot.Overwritten new) : ability.Keeps slot new where
  kept := iff_of_false h.not_subset (by simp [hnames])
  admits hfree := absurd (hfree.symm.trans hnames) Bool.false_ne_true
  overwritten _ := h

/-- All of its slots do. -/
def AllKept (ability : Ability) : Prop := List.Forall₂ ability.Keeps ability.targets ability.refine.2.targets

/-- A limit on the use has nothing to do with targets. -/
theorem AllKept.limit {ability : Ability} (h : ability.AllKept) (timing : Timing) (usageLimit : UsageLimit) :
    { ability with timing, usageLimit }.AllKept := by
  unfold AllKept
  rw [refine_limited]
  exact List.Forall₂.imp (fun slot new hslot => ⟨hslot.kept, hslot.admits, hslot.overwritten⟩) h

end Ability

/-! ## Drafts -/

theorem Color.ofWord?_of_target {w : List Char}
    (h : PhraseWord.isOneOf ⟨w, false⟩ ["target", "targets"] = true) : ofWord? w = none := by
  have hnames : ∀ other ∈ ["target", "targets"], ∀ color ∈ all,
      Text.lower color.name.toList ≠ Text.lower other.toList := by
    decide
  obtain ⟨other, hother, hsame⟩ := List.any_eq_true.mp h
  refine List.find?_eq_none.mpr ?_
  intro color hcolor hname
  exact hnames other hother color hcolor ((beq_iff_eq.mp hname).trans (beq_iff_eq.mp hsame))

namespace Draft

/-- Of all drafts only those of lords have restrictions, and no other static one has targets. -/
theorem shape_of_sentence {kinds : List AbilityKind} {sentence : List Char} {draft : Draft}
    (h : ofSentence? (kinds.flatMap Phrasing.ofKind) sentence = some draft) :
    draft.IsLord sentence ∨ draft.Plain ∧ (draft.kind = .static → Effect.targetsOf draft.effects = []) := by
  obtain ⟨phrasing, hphrasing, hread, hmade⟩ := made_of_sentence h
  by_cases hstatic : draft.kind = .static
  · rw [hstatic] at hphrasing
    simp only [Phrasing.ofKind, List.mem_cons, List.not_mem_nil, or_false] at hphrasing
    rcases hphrasing with rfl | rfl
    · exact .inl (Phrasing.reads_lordPump.of_read? hread draft rfl)
    · obtain ⟨granted, -, rfl⟩ := Phrasing.yields_keywords.of_read? hread draft rfl
      have hnone : ∀ effect ∈ granted.map Effect.grant, effect.targets = [] := by
        intro effect heffect
        obtain ⟨keyword, -, rfl⟩ := List.mem_map.mp heffect
        rfl
      exact .inr ⟨⟨fun effect heffect => Effect.plain_of_no_targets (hnone effect heffect), rfl⟩,
        fun _ => List.flatMap_eq_nil_iff.mpr hnone⟩
  · exact .inr ⟨hmade.plain hstatic, fun h => absurd h hstatic⟩

variable {draft : Draft} {id : AbilityId} {card : CardId} {sentence : List Char} {made : Ability}

/-- The only slot of a lord. -/
theorem targets_of_lord {subtype : Option (List Char)} {pump : Effect} {excludesSource : Bool}
    (huntargeted : pump.targets = [])
    (hdraft : draft = { make .static {} [pump.withTarget (Phrasing.lordTarget subtype)] with excludesSource })
    (h : draft.ability? id card sentence = some made) :
    ∃ slot lost, made.targets = [slot] ∧ slot.kind = .creature ∧
      slot.restrictions = (Phrasing.lordTarget subtype).restrictions ++ lost := by
  have hkind : (Phrasing.lordTarget subtype).kind = .creature := by
    unfold Phrasing.lordTarget
    dsimp only
    split
    · rfl
    · split <;> rfl
  rw [Ability.targets, (ability?_eq_some h).2.1, hdraft]
  cases excludesSource with
  | false =>
    refine ⟨Phrasing.lordTarget subtype, [], ?_, hkind, (List.append_nil _).symm⟩
    simp [exclude, make, Effect.targetsOf, Effect.withTarget, Effect.describe, huntargeted]
  | true =>
    refine ⟨(Phrasing.lordTarget subtype).restrict ⟨.card card, true⟩, [⟨.card card, true⟩], ?_, hkind, rfl⟩
    simp [exclude, make, Effect.targetsOf, Effect.withTarget, Effect.describe, huntargeted]

theorem IsLord.allKept (hlord : draft.IsLord sentence) (h : draft.ability? id card sentence = some made) :
    made.AllKept := by
  obtain ⟨hkind, -, htext⟩ := ability?_eq_some h
  cases hlord with
  | @mk others ending subtype pump excludesSource words untargeted =>
    obtain ⟨slot, lost, htargets, hslot, hrestrictions⟩ := targets_of_lord untargeted rfl h
    have hsentence : made.oracleText.toList = sentence := by rw [htext, String.toList_ofList]
    have hphrases := words.phrasesIn_eq
    have hnamed : made.namesTargets = Phrase.namesTargets sentence := by
      rw [Ability.namesTargets, hsentence, hkind]
      rfl
    cases hnames : Phrase.namesTargets sentence with
    | false =>
      rw [hnames] at hphrases hnamed
      have hunfit : ¬made.PhrasesFit := fun hfit => hfit.1 (hsentence ▸ hphrases)
      rw [Ability.AllKept, Ability.refine_of_not_fit hunfit]
      exact List.forall₂_same.mpr fun slot _ => .of_subset hnamed slot.refines_refl (List.Subset.refl _)
    | true =>
      rw [hnames] at hphrases hnamed
      have hphrases : phrasesIn made.oracleText.toList = [Phrase.yourCreature] := hsentence ▸ hphrases
      have hfit : made.PhrasesFit := by
        refine ⟨by simp [hphrases], ?_⟩
        rw [hphrases, show Effect.targetsOf made.effects = [slot] from htargets]
        rfl
      have hnew : (slot.refined Phrase.yourCreature).restrictions = [⟨.controller .you, false⟩] := by
        simp [Target.refined, Target.refine?, Phrase.yourCreature, hslot]
      obtain ⟨word, rfl, hword⟩ := words.exists_of_namesTargets hnames
      rw [Ability.AllKept, Ability.targets_refine_of_fit hfit, hphrases, htargets]
      refine .cons (.of_overwritten hnamed ⟨hnew, String.ofList word, lost, ?_⟩) .nil
      rw [hrestrictions, Phrasing.lordTarget, Color.ofWord?_of_target hword]
      rfl

theorem Plain.allKept (hplain : draft.Plain)
    (hstatic : draft.kind = .static → Effect.targetsOf draft.effects = [])
    (h : draft.ability? id card sentence = some made) : made.AllKept := by
  obtain ⟨hkind, heffects, -⟩ := ability?_eq_some h
  have htargets : made.targets = Effect.targetsOf draft.effects := by
    rw [exclude, if_neg (by simp [hplain.includes])] at heffects
    rw [Ability.targets, heffects]
  have hrefines := made.forall₂_targets_refine
  unfold Ability.AllKept
  by_cases hsame : made.kind = .static
  · rw [htargets, hstatic (hkind.symm.trans hsame)] at hrefines ⊢
    rw [List.forall₂_nil_left_iff.mp hrefines]
    exact .nil
  · have hfree : made.namesTargets = false := by
      rw [Ability.namesTargets, beq_false_of_ne hsame, Bool.false_and]
    have hempty : ∀ slot ∈ made.targets, slot.restrictions = [] := by
      intro slot hslot
      rw [htargets] at hslot
      obtain ⟨effect, heffect, hmem⟩ := List.mem_flatMap.mp hslot
      exact (hplain.effects effect heffect).unrestricted slot hmem
    refine List.Forall₂.imp ?_ ((List.forall₂_and_left _ _).mpr ⟨hempty, hrefines⟩)
    intro slot new hslot
    refine .of_subset hfree hslot.2 ?_
    rw [hslot.1]
    exact List.nil_subset _

end Draft

theorem Ability.Drafted.allKept {reader : AbilityReader} {card : CardId} {ability : Ability}
    (h : ability.Drafted { reader with closely := false } card) : ability.AllKept := by
  cases h with
  | @mk sentence draft id made drafted numbered timing usageLimit =>
    have hmade : made.AllKept := by
      cases Draft.shape_of_sentence drafted with
      | inl hlord => exact hlord.allKept numbered
      | inr hplain => exact hplain.1.allKept hplain.2 numbered
    exact hmade.limit timing usageLimit

namespace AbilityReader

/-- A lord whose subtype is "target", as a target of its own ability. -/
def lordItself : Candidate where
  reference := .permanent ⟨1⟩
  controller := some ⟨1⟩
  controllerName := some "Alice"
  types := some [.creature]
  subtypes := some []

end AbilityReader

end CardRules
