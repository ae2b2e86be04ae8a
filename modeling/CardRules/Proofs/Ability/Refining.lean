import CardRules.Proofs.Ability.Descriptions
import CardRules.Proofs.Ability.Reading
import Mathlib.Data.List.Forall2
import Mathlib.Data.List.Induction

/-!
# Reading targets closely only refines

Two readers that differ only in whether they read target phrases closely give the same abilities, one
refined and one not (`sideBySide_read`): a sentence that limits an earlier ability looks at nothing that
the refinement touches. So what is to be said of the two readings is said of a single ability and its
refinement.

A refinement hands restrictions to target slots, and it describes the effect anew if it does. As effects
with targets are described by their fields, the description differs only where the restrictions do.
-/

set_option autoImplicit false

namespace CardRules

/-- What a draft becomes is described as the draft is. -/
theorem Draft.plainlyDescribed_of_ability? {draft : Draft} {id : AbilityId} {card : CardId}
    {sentence : List Char} {ability : Ability} (hdraft : ∀ effect ∈ draft.effects, effect.PlainlyDescribed)
    (h : draft.ability? id card sentence = some ability) :
    ∀ effect ∈ ability.effects, effect.PlainlyDescribed := by
  have hexclude : ∀ effect ∈ (draft.exclude card).effects, effect.PlainlyDescribed := by
    unfold Draft.exclude
    split
    · intro effect heffect
      obtain ⟨excluded, -, rfl⟩ := List.mem_map.mp heffect
      exact Effect.plainlyDescribed_describe _
    · exact hdraft
  rw [(Draft.ability?_eq_some h).2.1]
  exact hexclude

/-! ## What a refinement leaves alone -/

/-- A requirement that is another one but for its restrictions. -/
structure Target.Refines (basic close : Target) : Prop where
  kind : close.kind = basic.kind
  required : close.required = basic.required
  count : close.count = basic.count

/-- An effect that is another one but for the restrictions of its targets, and for its description if
those differ. -/
structure Effect.Refines (basic close : Effect) : Prop where
  kind : close.kind = basic.kind
  magnitude : close.magnitude = basic.magnitude
  duration : close.duration = basic.duration
  targets : List.Forall₂ Target.Refines basic.targets close.targets
  description (same : close.targets = basic.targets) : close.description = basic.description

/-- An ability that is another one but for its effects, which refine those of the other. -/
structure Ability.Refines (basic close : Ability) : Prop where
  id : close.id = basic.id
  name : close.name = basic.name
  kind : close.kind = basic.kind
  source : close.source = basic.source
  cost : close.cost = basic.cost
  trigger : close.trigger = basic.trigger
  timing : close.timing = basic.timing
  usageLimit : close.usageLimit = basic.usageLimit
  uses : close.usesThisTurn = basic.usesThisTurn ∧ close.usesThisGame = basic.usesThisGame
  oracleText : close.oracleText = basic.oracleText
  parsed : close.parsed = basic.parsed
  effects : List.Forall₂ Effect.Refines basic.effects close.effects

/-- A slot that is handed a phrase, whether or not it takes the restrictions. -/
def Target.refined (slot phrase : Target) : Target := (slot.refine? phrase).getD slot

/-- An effect whose slots are handed phrases. -/
def Effect.refined (effect : Effect) (phrases : List Target) : Effect :=
  (effect.refine? phrases).getD effect

namespace Target

variable (slot phrase : Target)

theorem refines_refl : Refines slot slot := ⟨rfl, rfl, rfl⟩

theorem refines_refined : Refines slot (slot.refined phrase) := by
  unfold refined refine?
  split
  · exact ⟨rfl, rfl, rfl⟩
  · exact slot.refines_refl

/-- A slot that has taken the restrictions of a phrase takes them again, and no other slot does. -/
theorem refine?_refined : (slot.refined phrase).refine? phrase = slot.refine? phrase := by
  by_cases h : phrase.kind = slot.kind ∧ phrase.restrictions ≠ []
  · simp [refined, refine?, h]
  · simp [refined, refine?, h]

theorem refined_refined : (slot.refined phrase).refined phrase = slot.refined phrase := by
  rw [refined, refine?_refined, refined]
  cases slot.refine? phrase with
  | none => rfl
  | some new => rfl

end Target

namespace Effect

theorem refines_refl (effect : Effect) : Refines effect effect where
  kind := rfl
  magnitude := rfl
  duration := rfl
  targets := List.forall₂_same.mpr fun slot _ => slot.refines_refl
  description _ := rfl

section Refined

variable {effect : Effect} {phrases : List Target}

/-- The slots that are handed phrases are those that `refine?` computes. -/
theorem zipWith_refined (targets phrases : List Target) :
    (targets.zip ((targets.zip phrases).map fun (slot, phrase) => slot.refine? phrase)).map
        (fun (slot, new) => new.getD slot) =
      List.zipWith Target.refined targets phrases := by
  induction targets generalizing phrases with
  | nil => rfl
  | cons slot targets ih =>
    cases phrases with
    | nil => rfl
    | cons phrase phrases => simpa [Target.refined] using ih phrases

/-- Whether some of the targets takes the restrictions of its phrase. -/
def gains (targets phrases : List Target) : Bool :=
  (targets.zip phrases).any fun (slot, phrase) => (slot.refine? phrase).isSome

theorem refine?_eq (effect : Effect) (phrases : List Target) :
    effect.refine? phrases =
      if gains effect.targets phrases then
        some (describe
          { effect with targets := List.zipWith Target.refined effect.targets phrases })
      else none := by
  unfold refine? gains
  dsimp only
  rw [zipWith_refined, List.any_map]
  rfl

/-- Handed phrases, an effect stays as it is, or it has targets and gets a new description. -/
theorem refined_cases (effect : Effect) (phrases : List Target) :
    effect.refine? phrases = none ∧ effect.refined phrases = effect ∨
      effect.refine? phrases = some (effect.refined phrases) ∧ effect.targets ≠ [] ∧
        effect.refined phrases =
          describe { effect with targets := List.zipWith Target.refined effect.targets phrases } := by
  unfold refined
  rw [refine?_eq]
  split
  · rename_i hsome
    refine .inr ⟨rfl, ?_, rfl⟩
    intro hnone
    simp [hnone, gains] at hsome
  · exact .inl ⟨rfl, rfl⟩

theorem forall₂_refined (targets : List Target) (h : targets.length = phrases.length) :
    List.Forall₂ Target.Refines targets (List.zipWith Target.refined targets phrases) := by
  induction targets generalizing phrases with
  | nil => exact .nil
  | cons slot targets ih =>
    cases phrases with
    | nil => simp at h
    | cons phrase phrases => exact .cons (slot.refines_refined phrase) (ih (by simpa using h))

theorem refines_refined (h : effect.targets.length = phrases.length)
    (hplain : effect.PlainlyDescribed) : effect.Refines (effect.refined phrases) := by
  rcases effect.refined_cases phrases with ⟨-, hsame⟩ | ⟨-, htargets, hnew⟩
  · rw [hsame]
    exact effect.refines_refl
  · rw [hnew]
    refine ⟨rfl, rfl, rfl, forall₂_refined effect.targets h, ?_⟩
    -- described by its fields before and after
    intro hsame
    have hsame : List.zipWith Target.refined effect.targets phrases = effect.targets := hsame
    rw [hsame]
    exact (hplain htargets).symm

theorem zipWith_refined_eq_self {targets phrases : List Target} (h : targets.length = phrases.length)
    (hnone : gains targets phrases = false) : List.zipWith Target.refined targets phrases = targets := by
  induction targets generalizing phrases with
  | nil => rfl
  | cons slot targets ih =>
    cases phrases with
    | nil => simp at h
    | cons phrase phrases =>
      have hsplit : (slot.refine? phrase).isSome = false ∧ gains targets phrases = false :=
        Bool.or_eq_false_iff.mp hnone
      have hslot : slot.refined phrase = slot := by
        rw [Target.refined, Option.isSome_eq_false_iff.mp hsplit.1 |> Option.isNone_iff_eq_none.mp]
        rfl
      rw [List.zipWith_cons_cons, ih (by simpa using h) hsplit.2, hslot]

/-- Every slot is handed its phrase, also where none takes the restrictions. -/
theorem targets_refined (h : effect.targets.length = phrases.length) :
    (effect.refined phrases).targets = List.zipWith Target.refined effect.targets phrases := by
  unfold refined
  rw [refine?_eq]
  split
  · rfl
  · rename_i hnone
    exact (zipWith_refined_eq_self h (by simpa using hnone)).symm

/-- Slots that are handed the same phrases again answer the same again. -/
theorem gains_zipWith (targets phrases : List Target) :
    gains (List.zipWith Target.refined targets phrases) phrases = gains targets phrases := by
  unfold gains
  induction targets generalizing phrases with
  | nil => rfl
  | cons slot targets ih =>
    cases phrases with
    | nil => rfl
    | cons phrase phrases => simp [slot.refine?_refined, ih phrases]

theorem zipWith_refined_twice (targets phrases : List Target) :
    List.zipWith Target.refined (List.zipWith Target.refined targets phrases) phrases =
      List.zipWith Target.refined targets phrases := by
  induction targets generalizing phrases with
  | nil => rfl
  | cons slot targets ih =>
    cases phrases with
    | nil => rfl
    | cons phrase phrases => simpa [slot.refined_refined] using ih phrases

theorem refine?_refined (effect : Effect) (phrases : List Target) :
    (effect.refined phrases).refine? phrases = effect.refine? phrases := by
  rcases effect.refined_cases phrases with ⟨-, hsame⟩ | ⟨-, -, hnew⟩
  · rw [hsame]
  · rw [refine?_eq, hnew, refine?_eq effect]
    simp only [describe, gains_zipWith, zipWith_refined_twice]
    rfl

end Refined

/-! ## All the effects of an ability -/

/-- The phrases are handed out in order, to each effect as many as it has slots. -/
theorem snd_refineAll_cons (effect : Effect) (effects : List Effect) (phrases : List Target) :
    (refineAll (effect :: effects) phrases).2 =
      effect.refined (phrases.take effect.targets.length) ::
        (refineAll effects (phrases.drop effect.targets.length)).2 := by
  rw [refineAll, refined]
  dsimp only
  split
  · rename_i new hnew
    rw [hnew]
    rfl
  · rename_i hnone
    rw [hnone]
    rfl

theorem targetsOf_cons (effect : Effect) (effects : List Effect) :
    targetsOf (effect :: effects) = effect.targets ++ targetsOf effects := List.flatMap_cons

/-- What the phrases of an effect leave for the effects behind it is as many as those have slots. -/
theorem length_drop_phrases {effect : Effect} {effects : List Effect} {phrases : List Target}
    (h : (targetsOf (effect :: effects)).length = phrases.length) :
    effect.targets.length = (phrases.take effect.targets.length).length ∧
      (targetsOf effects).length = (phrases.drop effect.targets.length).length := by
  rw [targetsOf_cons, List.length_append] at h
  simp only [List.length_take, List.length_drop]
  omega

theorem refines_refineAll (effects : List Effect) (phrases : List Target)
    (h : (targetsOf effects).length = phrases.length)
    (hplain : ∀ effect ∈ effects, effect.PlainlyDescribed) :
    List.Forall₂ Refines effects (refineAll effects phrases).2 := by
  induction effects generalizing phrases with
  | nil => exact .nil
  | cons effect effects ih =>
    rw [snd_refineAll_cons]
    obtain ⟨hfront, hback⟩ := length_drop_phrases h
    refine .cons (refines_refined hfront (hplain effect List.mem_cons_self)) (ih _ hback ?_)
    intro other hother
    exact hplain other (List.mem_cons_of_mem effect hother)

/-- Every slot of all the effects is handed its phrase. -/
theorem targetsOf_refineAll (effects : List Effect) (phrases : List Target)
    (h : (targetsOf effects).length = phrases.length) :
    targetsOf (refineAll effects phrases).2 = List.zipWith Target.refined (targetsOf effects) phrases := by
  induction effects generalizing phrases with
  | nil => rfl
  | cons effect effects ih =>
    obtain ⟨hfront, hback⟩ := length_drop_phrases h
    rw [snd_refineAll_cons, targetsOf_cons, targetsOf_cons, ih _ hback, targets_refined hfront,
      ← List.zipWith_append hfront, List.take_append_drop]

/-- Effects that are handed the same phrases again are not changed again. -/
theorem refineAll_refineAll (effects : List Effect) (phrases : List Target)
    (h : (targetsOf effects).length = phrases.length) :
    refineAll (refineAll effects phrases).2 phrases = refineAll effects phrases := by
  induction effects generalizing phrases with
  | nil => rfl
  | cons effect effects ih =>
    obtain ⟨hfront, hback⟩ := length_drop_phrases h
    have hlength : (effect.refined (phrases.take effect.targets.length)).targets.length =
        effect.targets.length := by
      rw [targets_refined hfront, List.length_zipWith, ← hfront, Nat.min_self]
    rw [snd_refineAll_cons, refineAll, refineAll, hlength, refine?_refined, ih _ hback]
    dsimp only
    rcases effect.refined_cases (phrases.take effect.targets.length) with
      ⟨hnone, hsame⟩ | ⟨hsome, -, -⟩
    · rw [hnone, hsame]
    · rw [hsome]

end Effect

namespace Ability

/-- The sentence has target phrases, and as many as the ability has slots. -/
def PhrasesFit (ability : Ability) : Prop :=
  phrasesIn ability.oracleText.toList ≠ [] ∧
    (Effect.targetsOf ability.effects).length = (phrasesIn ability.oracleText.toList).length

theorem refine_of_fit {ability : Ability} (h : ability.PhrasesFit) :
    ability.refine =
      ((Effect.refineAll ability.effects (phrasesIn ability.oracleText.toList)).1,
        { ability with
          effects := (Effect.refineAll ability.effects (phrasesIn ability.oracleText.toList)).2 }) := by
  have hguard : ¬((phrasesIn ability.oracleText.toList).isEmpty ||
      (phrasesIn ability.oracleText.toList).length != ability.targets.length) = true := by
    rw [List.isEmpty_eq_false_iff.mpr h.1, Bool.false_or, bne_iff_ne, not_not]
    exact h.2.symm
  unfold refine
  dsimp only
  rw [if_neg hguard]

theorem refine_of_not_fit {ability : Ability} (h : ¬ability.PhrasesFit) :
    ability.refine = (false, ability) := by
  have hguard : ((phrasesIn ability.oracleText.toList).isEmpty ||
      (phrasesIn ability.oracleText.toList).length != ability.targets.length) = true := by
    rw [Bool.or_eq_true, List.isEmpty_iff, bne_iff_ne, or_iff_not_imp_left]
    exact fun hsome hfit => h ⟨hsome, hfit.symm⟩
  unfold refine
  dsimp only
  rw [if_pos hguard]

theorem refines_refl (ability : Ability) : ability.Refines ability :=
  ⟨rfl, rfl, rfl, rfl, rfl, rfl, rfl, rfl, ⟨rfl, rfl⟩, rfl, rfl,
    List.forall₂_same.mpr fun effect _ => effect.refines_refl⟩

theorem refines_refine {ability : Ability}
    (hplain : ∀ effect ∈ ability.effects, effect.PlainlyDescribed) :
    ability.Refines ability.refine.2 := by
  by_cases h : ability.PhrasesFit
  · rw [refine_of_fit h]
    exact ⟨rfl, rfl, rfl, rfl, rfl, rfl, rfl, rfl, ⟨rfl, rfl⟩, rfl, rfl,
      Effect.refines_refineAll ability.effects _ h.2 hplain⟩
  · rw [refine_of_not_fit h]
    exact ability.refines_refl

/-- A second close reading finds the same phrases and as many slots, and changes nothing. -/
theorem refine_refine (ability : Ability) : ability.refine.2.refine = ability.refine := by
  by_cases h : ability.PhrasesFit
  · have hagain : ability.refine.2.PhrasesFit := by
      rw [refine_of_fit h]
      refine ⟨h.1, ?_⟩
      dsimp only
      rw [Effect.targetsOf_refineAll ability.effects _ h.2, List.length_zipWith, h.2, Nat.min_self]
    rw [refine_of_fit hagain, refine_of_fit h]
    dsimp only
    rw [Effect.refineAll_refineAll ability.effects _ h.2]
  · rw [refine_of_not_fit h]
    exact refine_of_not_fit h

theorem kind_refine (ability : Ability) : ability.refine.2.kind = ability.kind := by
  by_cases h : ability.PhrasesFit
  · rw [refine_of_fit h]
  · rw [refine_of_not_fit h]

theorem oracleText_refine (ability : Ability) : ability.refine.2.oracleText = ability.oracleText := by
  by_cases h : ability.PhrasesFit
  · rw [refine_of_fit h]
  · rw [refine_of_not_fit h]

/-- A refinement does not look at the limits on the use, and leaves them alone. -/
theorem refine_limited (ability : Ability) (timing : Timing) (usageLimit : UsageLimit) :
    { ability with timing, usageLimit }.refine.2 = { ability.refine.2 with timing, usageLimit } := by
  by_cases h : ability.PhrasesFit
  · have hlimited : { ability with timing, usageLimit }.PhrasesFit := h
    rw [refine_of_fit hlimited, refine_of_fit h]
  · have hlimited : ¬{ ability with timing, usageLimit }.PhrasesFit := h
    rw [refine_of_not_fit hlimited, refine_of_not_fit h]

theorem limits_refine (ability : Ability) :
    ability.refine.2.timing = ability.timing ∧ ability.refine.2.usageLimit = ability.usageLimit := by
  by_cases h : ability.PhrasesFit
  · rw [refine_of_fit h]
    exact ⟨rfl, rfl⟩
  · rw [refine_of_not_fit h]
    exact ⟨rfl, rfl⟩

end Ability

/-! ## Two readers side by side -/

namespace Readings

/-- The abilities after a close reading of their target phrases. -/
def refined (abilities : List Ability) : List Ability := abilities.map fun ability => ability.refine.2

theorem limit?_refine (words : List Char) (ability : Ability) :
    limit? words ability.refine.2 = (limit? words ability).map fun limited => limited.refine.2 := by
  obtain ⟨htiming, husage⟩ := ability.limits_refine
  unfold limit?
  dsimp only
  split
  · simp only [Option.map_some, Ability.refine_limited, htiming, husage]
  · rfl

/-- It makes no difference whether an ability is limited before its targets are read closely or
after. -/
theorem limitLast?_refined (words : List Char) (abilities : List Ability) :
    limitLast? words (refined abilities) = (limitLast? words abilities).map refined := by
  have hpassive : (fun ability : Ability => !ability.kind.isActivatable) ∘
      (fun ability : Ability => ability.refine.2) = fun ability => !ability.kind.isActivatable := by
    funext ability
    simp [Ability.kind_refine]
  unfold limitLast? refined
  simp only [← List.map_reverse, List.takeWhile_map, hpassive, List.length_map, ← List.map_take,
    List.getLast?_map]
  cases (abilities.take (abilities.length -
      (abilities.reverse.takeWhile fun ability => !ability.kind.isActivatable).reverse.length)).getLast? with
  | none => rfl
  | some ability =>
    simp only [Option.map_some, limit?_refine, Option.map_map]
    cases limit? words ability with
    | none => rfl
    | some limited => simp

/-- Each of the effects is described by its fields if it has targets. -/
def PlainlyDescribed (abilities : List Ability) : Prop :=
  ∀ ability ∈ abilities, ∀ effect ∈ ability.effects, effect.PlainlyDescribed

/-- What is read without a close look at targets, beside what is read with one. -/
structure SideBySide (basic close : Readings) : Prop where
  abilities : close.abilities = refined basic.abilities
  nextId : close.nextId = basic.nextId
  plain : PlainlyDescribed basic.abilities

variable {basic close : Readings}

theorem SideBySide.addAbility (h : SideBySide basic close) (kinds : List AbilityKind)
    (first second : AbilityId) (card : CardId) (sentence : List Char) :
    SideBySide (basic.addAbility { kinds, closely := false, nextId := first } card sentence)
      (close.addAbility { kinds, closely := true, nextId := second } card sentence) := by
  unfold Readings.addAbility
  dsimp only
  rw [h.nextId]
  cases hdraft : Draft.ofSentence? (kinds.flatMap Phrasing.ofKind) sentence with
  | none => exact ⟨h.abilities, rfl, h.plain⟩
  | some draft =>
    dsimp only
    cases hability : draft.ability? basic.nextId card sentence with
    | none => exact ⟨h.abilities, rfl, h.plain⟩
    | some ability =>
      refine ⟨?_, rfl, ?_⟩
      · simp [refined, h.abilities]
      · have hnew := Draft.plainlyDescribed_of_ability? (Draft.plainlyDescribed_of_sentence hdraft)
          hability
        intro other hother
        rcases List.mem_append.mp hother with hold | hlast
        · exact h.plain other hold
        · rw [List.mem_singleton.mp hlast]
          exact hnew

/-- Limits leave the effects alone. -/
theorem plainlyDescribed_limitLast? {words : List Char} {abilities limited : List Ability}
    (h : limitLast? words abilities = some limited) (hplain : PlainlyDescribed abilities) :
    PlainlyDescribed limited := by
  obtain ⟨front, ability, behind, changed, rfl, -, hlimit, rfl⟩ := limitLast?_eq_some h
  obtain ⟨timing, usageLimit, rfl⟩ := limit?_eq_some hlimit
  intro other hother
  rcases List.mem_append.mp hother with hfront | hrest
  · exact hplain other (List.mem_append_left _ hfront)
  · rcases List.mem_cons.mp hrest with rfl | hbehind
    · exact hplain ability (by simp)
    · exact hplain other (by simp [hbehind])

theorem SideBySide.add (h : SideBySide basic close) (kinds : List AbilityKind)
    (first second : AbilityId) (card : CardId) (sentence : List Char) :
    SideBySide (basic.add { kinds, closely := false, nextId := first } card sentence)
      (close.add { kinds, closely := true, nextId := second } card sentence) := by
  unfold Readings.add
  cases hwords : activationLimit? sentence with
  | none => exact h.addAbility kinds first second card sentence
  | some words =>
    rw [Option.bind_some, Option.bind_some, h.abilities, limitLast?_refined]
    cases hlimited : limitLast? words basic.abilities with
    | none => exact h.addAbility kinds first second card sentence
    | some limited => exact ⟨rfl, h.nextId, plainlyDescribed_limitLast? hlimited h.plain⟩

end Readings

namespace AbilityReader

/-- Sentence by sentence, a close reading gives the refinement of every ability. -/
theorem sideBySide_read (reader : AbilityReader) (text : String) (name : Option String)
    (card : CardId) :
    Readings.SideBySide ({ reader with closely := false }.read text name card)
      ({ reader with closely := true }.read text name card) := by
  unfold read readPlain
  induction Sentence.split (Sentence.normalize text.toList (name.map String.toList))
    using List.reverseRecOn with
  | nil => exact ⟨rfl, rfl, fun ability hability => absurd hability List.not_mem_nil⟩
  | append_singleton sentences sentence ih =>
    rw [List.foldl_append, List.foldl_append]
    exact ih.add reader.kinds reader.nextId reader.nextId card sentence

/-- Only the close reading sees the color. -/
example :
    [false, true].map (fun closely =>
      (({ closely } : AbilityReader).read "Destroy target nonblack creature." none ⟨1⟩).abilities.map
        fun ability => ability.targets.map (·.restrictions)) =
      [[[[]]], [[[⟨.color .black, true⟩]]]] := by
  decide +kernel

end AbilityReader

end CardRules
