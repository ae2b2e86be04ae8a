import CardRules.Proofs.Ability.Draft
import CardRules.Proofs.Target.Trailing

/-!
# Descriptions and targets of effects that are read

An effect that is read from text and has targets is described by its fields and nothing else
(`Effect.PlainlyDescribed`): descriptions of their own are only given to effects without targets. And the
effects of clauses have targets without restrictions (`Effect.Plain`), since a written target is read for
its category only. This is seen in what each rule ends with, and for a draft in the shape it has: the
only draft with restrictions is that of a lord.
-/

set_option autoImplicit false

namespace CardRules

/-! ## Effects -/

/-- If the effect has targets, it is described by its fields. -/
def Effect.PlainlyDescribed (effect : Effect) : Prop :=
  effect.targets ≠ [] → effect.description = effect.text

namespace Effect

theorem plainlyDescribed_describe (effect : Effect) : effect.describe.PlainlyDescribed :=
  fun _ => rfl

theorem plainlyDescribed_of_no_targets {effect : Effect} (h : effect.targets = []) :
    effect.PlainlyDescribed :=
  fun htargets => absurd h htargets

end Effect

/-- If there is a target, it has no restrictions. -/
def Target.Unrestricted (target? : Option Target) : Prop := ∀ target ∈ target?, target.restrictions = []

theorem Target.unrestricted_named? (count : Option UInt8) (s : List Char) :
    Unrestricted (named? count s) := by
  intro target h
  unfold named? at h
  split at h
  · rw [← Option.some.inj h]
  · obtain ⟨kind, -, h⟩ := Option.bind_eq_some_iff.mp h
    cases count with
    | some n => rw [← Option.some.inj h]
    | none => rw [← Option.some.inj h]

/-- A written target is read without restrictions. -/
theorem Target.unrestricted_ofPhrase? (s : List Char) : Unrestricted (ofPhrase? s) := by
  intro target h
  rw [ofPhrase?_eq] at h
  rcases ofBare?_eq_some_iff.mp h with ⟨-, rfl⟩ | ⟨count, rest, name, -, -, hname⟩
  · rfl
  · exact unrestricted_named? count name target hname

/-- Its targets have no restrictions, and if there are any then it is described by its fields. -/
structure Effect.Plain (effect : Effect) : Prop where
  described : effect.PlainlyDescribed
  unrestricted : ∀ target ∈ effect.targets, target.restrictions = []

namespace Effect

theorem plain_of_no_targets {effect : Effect} (h : effect.targets = []) : effect.Plain where
  described := plainlyDescribed_of_no_targets h
  unrestricted target htarget := by
    rw [h] at htarget
    exact absurd htarget List.not_mem_nil

theorem Plain.withTarget {effect : Effect} (h : effect.Plain) {target : Target}
    (htarget : target.restrictions = []) : (effect.withTarget target).Plain where
  described := plainlyDescribed_describe _
  unrestricted := List.forall_mem_append.mpr ⟨h.unrestricted, List.forall_mem_singleton.mpr htarget⟩

theorem Plain.withTarget? {effect : Effect} (h : effect.Plain) {target? : Option Target}
    (htarget : Target.Unrestricted target?) : (effect.withTarget? target?).Plain := by
  cases target? with
  | none => exact h
  | some target => exact h.withTarget (htarget target rfl)

theorem plain_make (kind : EffectKind) (magnitude : Int32) : (make kind magnitude).Plain :=
  plain_of_no_targets rfl

end Effect

/-! ## Clauses -/

namespace Clause

open Text Text.Reader

/-- The rule makes plain effects only. -/
def Rule.MakesPlain (rule : Rule) : Prop := rule.Yields fun effect? => ∀ effect ∈ effect?, effect.Plain

theorem plain_ofAmount (kind : EffectKind) (n : List Char) {target? : Option Target}
    (htarget : Target.Unrestricted target?) :
    ∀ effect ∈ (ofAmount kind n).map fun effect => effect.withTarget? target?, effect.Plain := by
  intro effect heffect
  obtain ⟨made, hmade, rfl⟩ := Option.map_eq_some_iff.mp heffect
  obtain ⟨amount, -, rfl⟩ := Option.map_eq_some_iff.mp hmade
  exact (Effect.plain_make kind amount).withTarget? htarget

theorem plain_onTarget (kind : EffectKind) (phrase : List Char) :
    ∀ effect ∈ onTarget kind phrase, effect.Plain := by
  intro effect heffect
  obtain ⟨target, htarget, rfl⟩ := Option.map_eq_some_iff.mp heffect
  exact (Effect.plain_make kind 1).withTarget (Target.unrestricted_ofPhrase? _ _ htarget)

/-- Who is named is a target without restrictions, or no target. -/
theorem unrestricted_phrase (phrase : String) {who : Option Target} (h : Target.Unrestricted who) :
    Yields Target.Unrestricted (do words phrase; pure who) :=
  .bind fun _ => .pure h

theorem unrestricted_some (kind : TargetKind) : Target.Unrestricted (some { kind }) := by
  intro target htarget
  rw [← Option.some.inj htarget]

theorem unrestricted_none : Target.Unrestricted none := nofun

theorem unrestricted_addressee : addressee.Yields Target.Unrestricted := by
  have hnamed : Yields Target.Unrestricted
      (Reader.oneOf [(do words "target player"; pure (some { kind := .player })),
        (do words "you"; pure none)]) := by
    refine .oneOf ?_
    simp only [List.forall_mem_cons]
    exact ⟨unrestricted_phrase _ (unrestricted_some .player), unrestricted_phrase _ unrestricted_none,
      List.forall_mem_nil _⟩
  have hgap : Yields Target.Unrestricted (do
      let who ← Reader.oneOf [(do words "target player"; pure (some { kind := .player })),
        (do words "you"; pure none)]
      words " "
      pure who) := hnamed.bind_of fun _ hwho => .bind fun _ => .pure hwho
  refine (Yields.maybe hgap).bind_of fun who hwho => .pure ?_
  cases who with
  | none => exact unrestricted_none
  | some who => exact hwho who rfl

theorem makesPlain_draw : Rule.MakesPlain draw :=
  unrestricted_addressee.bind_of fun _ hwho => .bind fun _ => .bind fun _ => .bind fun _ => .bind fun n =>
    .bind fun _ => .bind fun _ => .pure (plain_ofAmount .drawCards n hwho)

theorem makesPlain_mill : Rule.MakesPlain mill :=
  unrestricted_addressee.bind_of fun _ hwho => .bind fun _ => .bind fun _ => .bind fun _ => .bind fun n =>
    .bind fun _ => .bind fun _ => .pure (plain_ofAmount .mill n hwho)

theorem makesPlain_loseLife : Rule.MakesPlain loseLife := by
  have hwho : Yields Target.Unrestricted
      (Reader.oneOf [(do words "target player"; pure (some { kind := .player })),
        (do words "target opponent"; pure (some { kind := .opponent })), (do words "you"; pure none)]) := by
    refine .oneOf ?_
    simp only [List.forall_mem_cons]
    exact ⟨unrestricted_phrase _ (unrestricted_some .player),
      unrestricted_phrase _ (unrestricted_some .opponent), unrestricted_phrase _ unrestricted_none,
      List.forall_mem_nil _⟩
  exact hwho.bind_of fun _ hwho => .bind fun _ => .bind fun _ => .bind fun _ => .bind fun n =>
    .bind fun _ => .pure (plain_ofAmount .loseLife n hwho)

theorem makesPlain_gainLife : Rule.MakesPlain gainLife := by
  refine .bind fun _ => .bind fun _ => .bind fun _ => .bind fun _ => .bind fun n => .bind fun _ =>
    .pure ?_
  intro effect heffect
  obtain ⟨amount, -, rfl⟩ := Option.map_eq_some_iff.mp heffect
  exact Effect.plain_make .gainLife amount

theorem makesPlain_damage : Rule.MakesPlain damage := by
  refine .bind fun _ => .bind fun _ => .bind fun _ => .bind fun _ => .bind fun n => .bind fun _ =>
    .bind fun phrase => .pure ?_
  intro effect heffect
  obtain ⟨target, htarget, heffect⟩ := Option.bind_eq_some_iff.mp heffect
  obtain ⟨made, hmade, heffect⟩ := Option.bind_eq_some_iff.mp heffect
  obtain ⟨amount, -, rfl⟩ := Option.map_eq_some_iff.mp hmade
  obtain rfl := Option.some.inj heffect
  exact (Effect.plain_make .dealDamage amount).withTarget (Target.unrestricted_ofPhrase? _ _ htarget)

theorem makesPlain_pump : Rule.MakesPlain pump := by
  refine .bind fun changed => .pure ?_
  intro effect heffect
  obtain ⟨power, -, heffect⟩ := Option.bind_eq_some_iff.mp heffect
  obtain ⟨toughness, -, heffect⟩ := Option.bind_eq_some_iff.mp heffect
  obtain ⟨made, hmade, heffect⟩ := Option.bind_eq_some_iff.mp heffect
  obtain ⟨packed, -, rfl⟩ := Option.map_eq_some_iff.mp hmade
  have hplain : ((Effect.make .pump packed).withDuration changed.2.2.2).Plain :=
    Effect.plain_of_no_targets rfl
  split at heffect
  · obtain ⟨target, htarget, rfl⟩ := Option.map_eq_some_iff.mp heffect
    exact hplain.withTarget (Target.unrestricted_ofPhrase? _ _ htarget)
  · obtain rfl := Option.some.inj heffect
    exact hplain

theorem makesPlain_destroy : Rule.MakesPlain destroy :=
  .bind fun _ => .bind fun phrase => .pure (plain_onTarget .destroy phrase)

theorem makesPlain_exile : Rule.MakesPlain exile :=
  .bind fun _ => .bind fun phrase => .pure (plain_onTarget .exile phrase)

theorem makesPlain_tap : Rule.MakesPlain tap :=
  .bind fun _ => .bind fun phrase => .pure (plain_onTarget .tap phrase)

theorem makesPlain_returnToHand : Rule.MakesPlain returnToHand :=
  .bind fun _ => .bind fun _ => .pure (plain_onTarget .returnToHand _)

theorem makesPlain_counter : Rule.MakesPlain counter := by
  refine .bind fun _ => .bind fun phrase => .pure ?_
  intro effect heffect
  exact plain_onTarget .counterSpell phrase effect (Option.filter_eq_some_iff.mp heffect).1

theorem makesPlain_untap : Rule.MakesPlain untap := by
  refine .bind fun _ => .bind fun phrase? => .pure ?_
  cases phrase? with
  | some phrase => exact plain_onTarget .untap phrase
  | none =>
    intro effect heffect
    obtain rfl := Option.some.inj heffect
    exact Effect.plain_make .untap 1

theorem makesPlain_createToken : Rule.MakesPlain createToken := by
  refine .bind fun _ => .bind fun n => .bind fun _ => .bind fun _ => .pure ?_
  intro effect heffect
  obtain ⟨made, hmade, rfl⟩ := Option.map_eq_some_iff.mp heffect
  obtain ⟨amount, -, rfl⟩ := Option.map_eq_some_iff.mp hmade
  exact Effect.plain_of_no_targets rfl

theorem makesPlain_of_mem {rule : Rule} (h : rule ∈ rules) : rule.MakesPlain := by
  simp only [rules, List.mem_cons, List.not_mem_nil, or_false] at h
  rcases h with rfl | rfl | rfl | rfl | rfl | rfl | rfl | rfl | rfl | rfl | rfl | rfl | rfl
  · exact makesPlain_draw
  · exact makesPlain_damage
  · exact makesPlain_gainLife
  · exact makesPlain_loseLife
  · exact makesPlain_pump
  · exact makesPlain_destroy
  · exact makesPlain_counter
  · exact makesPlain_tap
  · exact makesPlain_untap
  · exact makesPlain_mill
  · exact makesPlain_exile
  · exact makesPlain_returnToHand
  · exact makesPlain_createToken

theorem plain_single? {s : List Char} {effect : Effect} (h : single? s = some effect) :
    effect.Plain := by
  obtain ⟨rule, hrule, hread⟩ := List.exists_of_findSome?_eq_some h
  have hread : rule.read? s = some (some effect) := Option.join_eq_some_iff.mp hread
  exact Yields.of_read? (makesPlain_of_mem hrule) hread effect rfl

theorem plain_effectsWithin {size : Nat} {s : List Char} {effects : List Effect}
    (h : effectsWithin size s = some effects) : ∀ effect ∈ effects, effect.Plain := by
  induction size generalizing s effects with
  | zero => simp [effectsWithin] at h
  | succ size ih =>
    rw [effectsWithin] at h
    split at h
    · rename_i lone hlone
      obtain rfl := Option.some.inj h
      simpa using plain_single? hlone
    · obtain ⟨joint, -, hcut⟩ := List.exists_of_findSome?_eq_some h
      obtain ⟨⟨first, second⟩, -, hparts⟩ := Option.bind_eq_some_iff.mp hcut
      obtain ⟨front, hfront, hrest⟩ := Option.bind_eq_some_iff.mp hparts
      obtain ⟨back, hback, hboth⟩ := Option.bind_eq_some_iff.mp hrest
      obtain rfl := Option.some.inj hboth
      intro effect heffect
      rcases List.mem_append.mp heffect with hmem | hmem
      · exact ih hfront effect hmem
      · exact ih hback effect hmem

theorem plain_effects? {s : List Char} {effects : List Effect}
    (h : effects? s = some effects) : ∀ effect ∈ effects, effect.Plain :=
  plain_effectsWithin h

end Clause

/-! ## Drafts -/

theorem Phrasing.plain_modalEffects (count modes : List Char) :
    ∀ effect ∈ modalEffects count modes, effect.Plain := by
  unfold modalEffects
  dsimp only
  cases hread : (((modes.splitOn ';').map Text.trim).find? (!·.isEmpty)).bind Clause.effects? with
  | none => simpa using Effect.plain_of_no_targets rfl
  | some effects =>
    obtain ⟨mode, -, heffects⟩ := Option.bind_eq_some_iff.mp hread
    exact Clause.plain_effects? heffects

namespace Draft

variable {draft : Draft}

theorem Made.plainlyDescribed {kind : AbilityKind} (h : Made kind draft) :
    ∀ effect ∈ draft.effects, effect.PlainlyDescribed := by
  cases h with
  | mana _ untargeted => simpa [make] using Effect.plainlyDescribed_of_no_targets untargeted
  | activated read | triggered read | spell read =>
    exact fun effect heffect => (Clause.plain_effects? read effect heffect).described
  | lord =>
    intro effect heffect
    rw [List.mem_singleton.mp heffect]
    exact Effect.plainlyDescribed_describe _
  | keywords =>
    intro effect heffect
    obtain ⟨keyword, -, rfl⟩ := List.mem_map.mp heffect
    exact Effect.plainlyDescribed_of_no_targets rfl
  | entersTapped => simpa [make] using Effect.plainlyDescribed_of_no_targets rfl
  | modal => exact fun effect heffect => (Phrasing.plain_modalEffects _ _ effect heffect).described

theorem plainlyDescribed_of_sentence {kinds : List AbilityKind} {sentence : List Char}
    (h : ofSentence? (kinds.flatMap Phrasing.ofKind) sentence = some draft) :
    ∀ effect ∈ draft.effects, effect.PlainlyDescribed := by
  obtain ⟨phrasing, -, -, hmade⟩ := made_of_sentence h
  exact hmade.plainlyDescribed

/-- Its effects are plain, and their targets are not to be restricted later. -/
structure Plain (draft : Draft) : Prop where
  effects : ∀ effect ∈ draft.effects, effect.Plain
  includes : draft.excludesSource = false

theorem Made.plain {kind : AbilityKind} (h : Made kind draft) (hstatic : kind ≠ .static) :
    draft.Plain := by
  cases h with
  | mana _ untargeted => exact ⟨by simpa [make] using Effect.plain_of_no_targets untargeted, rfl⟩
  | activated read | triggered read | spell read => exact ⟨Clause.plain_effects? read, rfl⟩
  | lord | keywords => exact absurd rfl hstatic
  | entersTapped => exact ⟨by simpa [make] using Effect.plain_of_no_targets rfl, rfl⟩
  | modal => exact ⟨Phrasing.plain_modalEffects _ _, rfl⟩

end Draft

end CardRules
