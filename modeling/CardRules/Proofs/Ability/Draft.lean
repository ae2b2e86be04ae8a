import CardRules.Ability.Draft
import CardRules.Proofs.Text.Reader

/-!
# Drafts are well formed

Whatever the sentence, what the phrasings of a kind of ability make of it has one of a few shapes
(`Draft.Made`). This is seen once for each phrasing, in what it ends with. A draft of one of these shapes
has at least one effect, and a trigger, a cost or mana only where its kind has them
(`Draft.WellFormed`). The effects of a clause are never none, however often it is cut in two.
-/

set_option autoImplicit false

namespace CardRules

/-! ## Clauses -/

theorem Clause.effectsWithin_ne_nil {size : Nat} {s : List Char} {effects : List Effect}
    (h : effectsWithin size s = some effects) : effects ≠ [] := by
  induction size generalizing s effects with
  | zero => simp [effectsWithin] at h
  | succ size ih =>
    rw [effectsWithin] at h
    split at h
    · rw [← Option.some.inj h]
      simp
    · -- the first part alone has effects
      obtain ⟨joint, -, hcut⟩ := List.exists_of_findSome?_eq_some h
      obtain ⟨⟨first, second⟩, -, hparts⟩ := Option.bind_eq_some_iff.mp hcut
      obtain ⟨front, hfront, hrest⟩ := Option.bind_eq_some_iff.mp hparts
      obtain ⟨back, -, hback⟩ := Option.bind_eq_some_iff.mp hrest
      rw [← Option.some.inj hback]
      exact List.append_ne_nil_of_left_ne_nil (ih hfront) back

theorem Clause.effects?_ne_nil {s : List Char} {effects : List Effect}
    (h : effects? s = some effects) : effects ≠ [] :=
  effectsWithin_ne_nil h

/-! ## What a draft has to satisfy -/

/-- A single effect that adds mana and has no target. -/
def Effect.IsLoneMana (effects : List Effect) : Prop :=
  ∃ effect, effects = [effect] ∧ effect.kind = .addMana ∧ effect.targets = []

/-- The parts of a draft fit each other. -/
structure Draft.WellFormed (draft : Draft) : Prop where
  effects : draft.effects ≠ []
  trigger : draft.trigger.isSome = true ↔ draft.kind = .triggered
  timing : draft.timing = {}
  cost (h : draft.kind.isActivatable = false) : draft.cost = {}
  mana (h : draft.kind = .mana) : Effect.IsLoneMana draft.effects

/-! ## What a phrasing can make -/

/-- The shapes of the drafts of a kind of ability. -/
inductive Draft.Made : AbilityKind → Draft → Prop
  | mana {cost : Cost} {lone : Effect} (adds : lone.kind = .addMana) (untargeted : lone.targets = []) :
      Made .mana (make .mana cost [lone])
  | activated {cost : Cost} {clause : List Char} {effects : List Effect}
      (read : Clause.effects? clause = some effects) : Made .activated (make .activated cost effects)
  | triggered {trigger : Trigger} {clause : List Char} {effects : List Effect}
      (read : Clause.effects? clause = some effects) :
      Made .triggered { make .triggered {} effects with trigger := some trigger }
  | lord {power toughness : Int32} {pump : Effect} {target : Target} {excludesSource : Bool}
      (packed : Effect.pump? power toughness .permanent = some pump) :
      Made .static { make .static {} [pump.withTarget target] with excludesSource }
  | keywords {keywords : List Keyword} (nonempty : keywords ≠ []) :
      Made .static (make .static {} (keywords.map Effect.grant))
  | entersTapped :
      Made .replacement
        (make .replacement {} [(Effect.make .entersTapped 1).described "enters tapped"])
  | modal {count modes : List Char} {name : String} :
      Made .spell { make .spell {} (Phrasing.modalEffects count modes) with name }
  | spell {clause : List Char} {effects : List Effect}
      (read : Clause.effects? clause = some effects) : Made .spell (make .spell {} effects)

theorem Draft.Made.kind_eq {kind : AbilityKind} {draft : Draft} (h : Made kind draft) :
    draft.kind = kind := by
  cases h <;> rfl

namespace Phrasing

open Text Text.Reader Clause

/-- The phrasing makes drafts of the shapes of one kind only. -/
def Makes (kind : AbilityKind) (phrasing : Phrasing) : Prop :=
  phrasing.reader.Yields fun draft? => ∀ draft ∈ draft?, Draft.Made kind draft

theorem made_of_manaDraft {cost : List Char} {effect : Effect} (hkind : effect.kind = .addMana)
    (htargets : effect.targets = []) : ∀ draft ∈ manaDraft cost effect, Draft.Made .mana draft := by
  intro draft hdraft
  unfold manaDraft at hdraft
  split at hdraft
  · obtain rfl := Option.some.inj hdraft
    exact .mana hkind htargets
  · simp at hdraft

theorem makes_manaAnyColor : manaAnyColor.Makes .mana := by
  refine .bind fun cost => .bind fun n => .bind fun _ => .bind fun _ => .bind fun _ => .pure ?_
  intro draft hdraft
  obtain ⟨n, -, hmana⟩ := Option.bind_eq_some_iff.mp hdraft
  exact made_of_manaDraft rfl rfl draft hmana

theorem makes_manaChoice : manaChoice.Makes .mana := by
  refine .bind fun cost => .bind fun first => .bind fun more => .pure ?_
  intro draft hdraft
  split at hdraft
  · simp at hdraft
  · exact made_of_manaDraft rfl rfl draft hdraft

theorem makes_manaFixed : manaFixed.Makes .mana :=
  .bind fun _ => .bind fun _ => .bind fun _ => .pure (made_of_manaDraft rfl rfl)

theorem makes_activated : activated.Makes .activated := by
  refine .bind fun cost => .bind fun _ => .bind fun clause => .pure ?_
  intro draft hdraft
  split at hdraft
  · obtain ⟨effects, heffects, rfl⟩ := Option.map_eq_some_iff.mp hdraft
    exact .activated heffects
  · simp at hdraft

theorem made_of_triggeredDraft (trigger : Trigger) (clause : List Char) :
    ∀ draft ∈ triggeredDraft trigger clause, Draft.Made .triggered draft := by
  intro draft hdraft
  obtain ⟨effects, heffects, rfl⟩ := Option.map_eq_some_iff.mp hdraft
  exact .triggered heffects

theorem makes_lordPump : lordPump.Makes .static := by
  refine .bind fun other => .bind fun subtype => .bind fun _ => .bind fun power => .bind fun _ =>
    .bind fun toughness => .pure ?_
  intro draft hdraft
  obtain ⟨power, -, hdraft⟩ := Option.bind_eq_some_iff.mp hdraft
  obtain ⟨toughness, -, hdraft⟩ := Option.bind_eq_some_iff.mp hdraft
  obtain ⟨effect, hpump, hdraft⟩ := Option.bind_eq_some_iff.mp hdraft
  obtain rfl := Option.some.inj hdraft
  exact .lord hpump

/-- A line of keywords has at least one, and grants them all. -/
theorem yields_keywords : keywords.reader.Yields fun draft? => ∀ draft ∈ draft?,
    ∃ granted : List Keyword, granted ≠ [] ∧ draft = Draft.make .static {} (granted.map Effect.grant) := by
  intro s way hway draft hdraft
  unfold keywords at hway
  dsimp only at hway
  split at hway
  · rename_i hline
    rw [List.mem_singleton.mp hway] at hdraft
    obtain ⟨granted, hgranted, rfl⟩ := Option.map_eq_some_iff.mp hdraft
    refine ⟨granted, ?_, rfl⟩
    unfold isKeywordLine at hline
    cases hparts : s.splitOn ',' with
    | nil => simp [hparts] at hline
    | cons first rest =>
      rw [hparts, List.mapM_cons] at hgranted
      obtain ⟨keyword, -, hrest⟩ := Option.bind_eq_some_iff.mp hgranted
      obtain ⟨others, -, hall⟩ := Option.bind_eq_some_iff.mp hrest
      rw [← Option.some.inj hall]
      exact List.cons_ne_nil keyword others
  · simp at hway

theorem makes_keywords : keywords.Makes .static := by
  intro s way hway draft hdraft
  obtain ⟨granted, hne, rfl⟩ := yields_keywords s way hway draft hdraft
  exact .keywords hne

theorem makes_entersTapped : entersTapped.Makes .replacement := by
  refine .bind fun _ => .bind fun _ => .bind fun _ => .bind fun _ => .pure ?_
  intro draft hdraft
  obtain rfl := Option.some.inj hdraft
  exact .entersTapped

theorem makes_modal : modal.Makes .spell := by
  refine .bind fun _ => .bind fun count => .bind fun _ => .bind fun _ => .bind fun _ =>
    .bind fun modes => .pure ?_
  intro draft hdraft
  obtain rfl := Option.some.inj hdraft
  exact .modal

theorem makes_spellEffect : spellEffect.Makes .spell := by
  refine .bind fun clause => .pure ?_
  intro draft hdraft
  obtain ⟨effects, heffects, rfl⟩ := Option.map_eq_some_iff.mp hdraft
  exact .spell heffects

theorem makes_of_mem {kind : AbilityKind} {phrasing : Phrasing} (h : phrasing ∈ ofKind kind) :
    phrasing.Makes kind := by
  cases kind with
  | mana =>
    simp only [ofKind, List.mem_cons, List.not_mem_nil, or_false] at h
    rcases h with rfl | rfl | rfl
    · exact makes_manaAnyColor
    · exact makes_manaChoice
    · exact makes_manaFixed
  | activated =>
    rw [List.mem_singleton.mp h]
    exact makes_activated
  | triggered =>
    simp only [ofKind, List.mem_cons, List.not_mem_nil, or_false] at h
    -- they differ in what they read before the clause
    rcases h with rfl | rfl | rfl | rfl | rfl
    · exact .bind fun _ => .bind fun _ => .bind fun _ => .bind fun _ => .bind fun _ =>
        .bind fun _ => .map (made_of_triggeredDraft _)
    · exact .bind fun _ => .bind fun _ => .bind fun _ => .map (made_of_triggeredDraft _)
    · exact .bind fun _ => .bind fun _ => .bind fun _ => .map (made_of_triggeredDraft _)
    · exact .bind fun _ => .bind fun _ => .bind fun _ => .map (made_of_triggeredDraft _)
    · exact .bind fun _ => .bind fun _ => .bind fun _ => .map (made_of_triggeredDraft _)
  | static =>
    simp only [ofKind, List.mem_cons, List.not_mem_nil, or_false] at h
    rcases h with rfl | rfl
    · exact makes_lordPump
    · exact makes_keywords
  | replacement =>
    rw [List.mem_singleton.mp h]
    exact makes_entersTapped
  | spell =>
    simp only [ofKind, List.mem_cons, List.not_mem_nil, or_false] at h
    rcases h with rfl | rfl
    · exact makes_modal
    · exact makes_spellEffect

theorem modalEffects_ne_nil (count modes : List Char) : modalEffects count modes ≠ [] := by
  unfold modalEffects
  dsimp only
  cases hread : (((modes.splitOn ';').map trim).find? (!·.isEmpty)).bind effects? with
  | none => simp
  | some effects =>
    obtain ⟨mode, -, heffects⟩ := Option.bind_eq_some_iff.mp hread
    exact effects?_ne_nil heffects

end Phrasing

namespace Draft

variable {kinds : List AbilityKind} {sentence : List Char} {draft : Draft}

/-- Whatever kinds of phrasings are tried in whatever order, the draft of a sentence has a shape of its
kind, and comes from a phrasing of that kind. -/
theorem made_of_sentence
    (h : ofSentence? (kinds.flatMap Phrasing.ofKind) sentence = some draft) :
    ∃ phrasing ∈ Phrasing.ofKind draft.kind, phrasing.reader.read? sentence = some (some draft) ∧
      Made draft.kind draft := by
  obtain ⟨phrasing, hphrasing, hdraft⟩ := List.exists_of_findSome?_eq_some h
  obtain ⟨kind, -, hkind⟩ := List.mem_flatMap.mp hphrasing
  have hread : phrasing.reader.read? sentence = some (some draft) := Option.join_eq_some_iff.mp hdraft
  have hmade : Made kind draft := (Phrasing.makes_of_mem hkind).of_read? hread draft rfl
  rw [hmade.kind_eq]
  exact ⟨phrasing, hkind, hread, hmade⟩

/-- A draft of a kind that neither waits for a trigger nor makes mana, and that is free if it cannot be
activated. -/
theorem wellFormed_make {kind : AbilityKind} {cost : Cost} {effects : List Effect}
    (heffects : effects ≠ []) (htrigger : kind ≠ .triggered) (hmana : kind ≠ .mana)
    (hcost : kind.isActivatable = false → cost = {}) : (make kind cost effects).WellFormed where
  effects := heffects
  trigger := by simp [make, htrigger]
  timing := rfl
  cost := hcost
  mana h := absurd h hmana

theorem Made.wellFormed {kind : AbilityKind} (h : Made kind draft) : draft.WellFormed := by
  cases h with
  | @mana cost lone adds untargeted =>
    exact {
      effects := List.cons_ne_nil lone []
      trigger := by simp [make]
      timing := rfl
      cost := nofun
      mana := fun _ => ⟨lone, rfl, adds, untargeted⟩ }
  | activated read => exact wellFormed_make (Clause.effects?_ne_nil read) nofun nofun nofun
  | triggered read =>
    exact {
      effects := Clause.effects?_ne_nil read
      trigger := by simp [make]
      timing := rfl
      cost := fun _ => rfl
      mana := nofun }
  | @lord _ _ pump target _ packed =>
    have hmade : (make .static {} [pump.withTarget target]).WellFormed :=
      wellFormed_make (List.cons_ne_nil _ _) nofun nofun fun _ => rfl
    exact ⟨hmade.effects, hmade.trigger, hmade.timing, hmade.cost, hmade.mana⟩
  | keywords nonempty =>
    exact wellFormed_make (mt List.map_eq_nil_iff.mp nonempty) nofun nofun fun _ => rfl
  | entersTapped => exact wellFormed_make (List.cons_ne_nil _ _) nofun nofun fun _ => rfl
  | @modal count modes name =>
    have hmade : (make .spell {} (Phrasing.modalEffects count modes)).WellFormed :=
      wellFormed_make (Phrasing.modalEffects_ne_nil count modes) nofun nofun fun _ => rfl
    exact ⟨hmade.effects, hmade.trigger, hmade.timing, hmade.cost, hmade.mana⟩
  | spell read => exact wellFormed_make (Clause.effects?_ne_nil read) nofun nofun fun _ => rfl

theorem wellFormed_of_sentence
    (h : ofSentence? (kinds.flatMap Phrasing.ofKind) sentence = some draft) : draft.WellFormed := by
  obtain ⟨phrasing, -, -, hmade⟩ := made_of_sentence h
  exact hmade.wellFormed

end Draft

end CardRules
