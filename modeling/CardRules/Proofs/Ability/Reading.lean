import CardRules.Ability.Reading
import CardRules.Proofs.Ability.Draft
import CardRules.Proofs.Engine.Usage

/-!
# Abilities as they are read

`Ability.ReadFrom` says what is known of an ability by the mere fact that it was read from a sentence.
It comes with the draft and is kept by what is done to the ability afterwards: target phrases are read
once more and closely, and a later sentence may limit the use.

`Readings.Step` is all that a sentence can do to what was read before it: it limits an ability that can
be activated, it is passed over, it becomes an ability, or the numbers have run out. The last one is the
only way to lose a number, since a draft always has effects.
-/

set_option autoImplicit false

namespace CardRules

/-! ## One ability -/

/-- An ability of a card as it is read from a sentence. -/
structure Ability.ReadFrom (card : CardId) (sentence : List Char) (ability : Ability) : Prop where
  parsed : ability.parsed = true
  source : ability.source = card
  text : ability.oracleText = String.ofList sentence
  fresh : ability.Fresh
  effects : ability.effects ≠ []
  trigger : ability.trigger.isSome = true ↔ ability.kind = .triggered
  passive (h : ability.kind.isActivatable = false) :
    ability.cost = {} ∧ ability.timing = {} ∧ ability.usageLimit = {}
  mana (h : ability.kind = .mana) : Effect.IsLoneMana ability.effects

theorem Effect.IsLoneMana.map {effects : List Effect} (h : IsLoneMana effects) {f : Effect → Effect}
    (hkind : ∀ effect, (f effect).kind = effect.kind)
    (htargets : ∀ effect, effect.targets = [] → (f effect).targets = []) :
    IsLoneMana (effects.map f) := by
  obtain ⟨effect, rfl, hmana, hnone⟩ := h
  exact ⟨f effect, rfl, (hkind effect).trans hmana, htargets effect hnone⟩

namespace Draft

variable {draft : Draft}

theorem WellFormed.exclude (h : draft.WellFormed) (card : CardId) :
    (draft.exclude card).WellFormed := by
  unfold Draft.exclude
  split
  · refine ⟨?_, h.trigger, h.timing, h.cost, ?_⟩
    · simpa using h.effects
    · intro hmana
      apply (h.mana hmana).map
      · intro effect
        rfl
      · -- without targets there is nothing to restrict
        intro effect hnone
        show effect.targets.map _ = []
        rw [hnone, List.map_nil]
  · exact h

/-- As long as there are numbers a well-formed draft becomes an ability. -/
theorem WellFormed.exists_ability (h : draft.WellFormed) {id : AbilityId} (hid : id ≠ .nil)
    (card : CardId) (sentence : List Char) :
    ∃ ability, draft.ability? id card sentence = some ability ∧ ability.id = id ∧
      ability.ReadFrom card sentence := by
  have hdraft := h.exclude card
  unfold ability? Ability.make
  dsimp only
  rw [if_neg hid, if_neg (mt List.isEmpty_iff.mp hdraft.effects)]
  refine ⟨_, rfl, rfl, ?_⟩
  exact {
    parsed := rfl
    source := rfl
    text := rfl
    fresh := ⟨rfl, rfl⟩
    effects := hdraft.effects
    trigger := hdraft.trigger
    passive := fun hpassive => ⟨hdraft.cost hpassive, hdraft.timing, rfl⟩
    mana := hdraft.mana }

/-- An ability has the kind, the effects, the sentence and the cost of its draft. -/
theorem fields_of_ability? {id : AbilityId} {card : CardId} {sentence : List Char} {ability : Ability}
    (h : draft.ability? id card sentence = some ability) :
    ability.kind = draft.kind ∧ ability.effects = (draft.exclude card).effects ∧
      ability.oracleText = String.ofList sentence ∧ ability.cost = draft.cost := by
  have hsame : (draft.exclude card).kind = draft.kind ∧ (draft.exclude card).cost = draft.cost := by
    unfold Draft.exclude
    split
    · exact ⟨rfl, rfl⟩
    · exact ⟨rfl, rfl⟩
  unfold ability? at h
  dsimp only at h
  split at h
  · simp at h
  · rename_i made hmade
    obtain rfl := Option.some.inj h
    unfold Ability.make at hmade
    split at hmade
    · simp at hmade
    · split at hmade
      · simp at hmade
      · obtain rfl := Except.ok.inj hmade
        exact ⟨hsame.1, rfl, rfl, hsame.2⟩

theorem ability?_eq_some {id : AbilityId} {card : CardId} {sentence : List Char} {ability : Ability}
    (h : draft.ability? id card sentence = some ability) :
    ability.kind = draft.kind ∧ ability.effects = (draft.exclude card).effects ∧
      ability.oracleText = String.ofList sentence := by
  obtain ⟨hkind, heffects, htext, -⟩ := fields_of_ability? h
  exact ⟨hkind, heffects, htext⟩

theorem ability?_nil (draft : Draft) (card : CardId) (sentence : List Char) :
    draft.ability? .nil card sentence = none := rfl

end Draft

namespace Effect

theorem length_refineAll (effects : List Effect) (phrases : List Target) :
    (refineAll effects phrases).2.length = effects.length := by
  induction effects generalizing phrases with
  | nil => rfl
  | cons effect effects ih =>
    rw [refineAll]
    dsimp only
    split
    · simp [ih]
    · simp [ih]

/-- An effect without targets has nothing to refine. -/
theorem refineAll_of_loneMana {effects : List Effect} (h : IsLoneMana effects)
    (phrases : List Target) : (refineAll effects phrases).2 = effects := by
  obtain ⟨effect, rfl, -, htargets⟩ := h
  have hnone : effect.refine? (phrases.take effect.targets.length) = none := by
    unfold refine?
    simp [htargets]
  rw [refineAll, hnone]
  rfl

end Effect

namespace Ability

variable {card : CardId} {sentence : List Char} {ability : Ability}

theorem id_refine (ability : Ability) : ability.refine.2.id = ability.id := by
  unfold refine
  dsimp only
  split
  · rfl
  · rfl

theorem ReadFrom.refine (h : ability.ReadFrom card sentence) :
    ability.refine.2.ReadFrom card sentence := by
  unfold Ability.refine
  dsimp only
  split
  · exact h
  · refine ⟨h.parsed, h.source, h.text, h.fresh, ?_, h.trigger, h.passive, ?_⟩
    · intro hnil
      have hlength := Effect.length_refineAll ability.effects (phrasesIn ability.oracleText.toList)
      rw [show (Effect.refineAll ability.effects _).2 = [] from hnil] at hlength
      exact h.effects (List.eq_nil_of_length_eq_zero hlength.symm)
    · intro hmana
      show Effect.IsLoneMana (Effect.refineAll _ _).2
      rw [Effect.refineAll_of_loneMana (h.mana hmana)]
      exact h.mana hmana

/-- Whatever limits its use, an ability that can be activated is as it was read. -/
theorem ReadFrom.limit (h : ability.ReadFrom card sentence)
    (hactive : ability.kind.isActivatable = true) (timing : Timing) (usageLimit : UsageLimit) :
    { ability with timing, usageLimit }.ReadFrom card sentence := by
  refine ⟨h.parsed, h.source, h.text, h.fresh, h.effects, h.trigger, ?_, h.mana⟩
  intro hpassive
  exact absurd (hactive.symm.trans hpassive) (by decide)

end Ability

/-! ## Limits -/

namespace Readings

theorem limit?_eq_some {words : List Char} {ability limited : Ability}
    (h : limit? words ability = some limited) :
    ∃ timing usageLimit, limited = { ability with timing, usageLimit } := by
  unfold limit? at h
  dsimp only at h
  split at h
  · exact ⟨_, _, (Option.some.inj h).symm⟩
  · simp at h

/-- What limits an ability finds the last one that can be activated. -/
theorem limitLast?_eq_some {words : List Char} {abilities limited : List Ability}
    (h : limitLast? words abilities = some limited) :
    ∃ front ability behind changed, abilities = front ++ ability :: behind ∧
      ability.kind.isActivatable = true ∧ limit? words ability = some changed ∧
      limited = front ++ changed :: behind := by
  let passive (ability : Ability) : Bool := !ability.kind.isActivatable
  -- the abilities up to the one that is looked for, and those behind it
  obtain ⟨upto, behind, hupto, hbehind, hsplit⟩ : ∃ upto behind,
      (abilities.reverse.dropWhile passive).reverse = upto ∧
      (abilities.reverse.takeWhile passive).reverse = behind ∧ abilities = upto ++ behind := by
    refine ⟨_, _, rfl, rfl, ?_⟩
    rw [← List.reverse_append, List.takeWhile_append_dropWhile, List.reverse_reverse]
  have htake : abilities.take (abilities.length - behind.length) = upto := by
    rw [hsplit, List.length_append, Nat.add_sub_cancel, List.take_left]
  unfold limitLast? at h
  dsimp only at h
  rw [show (abilities.reverse.takeWhile fun ability => !ability.kind.isActivatable).reverse = behind
    from hbehind, htake] at h
  split at h
  · simp at h
  · rename_i ability hlast
    obtain ⟨changed, hchanged, rfl⟩ := Option.map_eq_some_iff.mp h
    obtain ⟨front, rfl⟩ := List.getLast?_eq_some_iff.mp hlast
    have hactive : passive ability = false := by
      have hstops := List.head?_dropWhile_not passive abilities.reverse
      rw [← List.getLast?_reverse, hupto, hlast] at hstops
      exact hstops
    have hwhole : abilities = front ++ ability :: behind := by
      rw [hsplit, List.append_assoc, List.singleton_append]
    have hcount : abilities.length - behind.length - 1 = front.length := by
      rw [hwhole, List.length_append, List.length_cons]
      omega
    refine ⟨front, ability, behind, changed, hwhole, by simpa [passive] using hactive, hchanged, ?_⟩
    rw [hcount, hwhole, List.take_left]

/-! ## One sentence -/

/-- All that a sentence can do to the readings before it. -/
inductive Step (card : CardId) (sentence : List Char) (before : Readings) : Readings → Prop
  /-- It limits an ability that can be activated, which is otherwise as it was. -/
  | limited {front behind : List Ability} {ability changed : Ability}
      (split : before.abilities = front ++ ability :: behind) (number : changed.id = ability.id)
      (read : ∀ {sentence}, ability.ReadFrom card sentence → changed.ReadFrom card sentence) :
      Step card sentence before { before with abilities := front ++ changed :: behind }
  | passed (events : List Event) : Step card sentence before { before with events }
  | made {ability : Ability} (events : List Event) (number : ability.id = before.nextId)
      (read : ability.ReadFrom card sentence) :
      Step card sentence before
        { abilities := before.abilities ++ [ability], events, nextId := before.nextId.next }
  /-- There was no number for it. -/
  | unnumbered (events : List Event) (none : before.nextId = .nil) :
      Step card sentence before { before with events, nextId := before.nextId.next }

theorem step_addAbility (reader : AbilityReader) (card : CardId) (before : Readings)
    (sentence : List Char) : Step card sentence before (before.addAbility reader card sentence) := by
  unfold addAbility
  dsimp only
  split
  · exact .passed _
  · rename_i draft hdraft
    have hformed := Draft.wellFormed_of_sentence hdraft
    by_cases hnone : before.nextId = .nil
    · rw [show draft.ability? before.nextId card sentence = none from
        hnone ▸ draft.ability?_nil card sentence]
      exact .unnumbered _ hnone
    · obtain ⟨ability, hability, hnumber, hread⟩ := hformed.exists_ability hnone card sentence
      rw [hability]
      dsimp only
      split
      · exact .made _ (ability.id_refine.trans hnumber) hread.refine
      · exact .made _ hnumber hread

theorem step_add (reader : AbilityReader) (card : CardId) (before : Readings)
    (sentence : List Char) : Step card sentence before (before.add reader card sentence) := by
  unfold add
  split
  · rename_i limited hlimited
    obtain ⟨words, -, hlast⟩ := Option.bind_eq_some_iff.mp hlimited
    obtain ⟨front, ability, behind, changed, hsplit, hactive, hlimit, rfl⟩ :=
      limitLast?_eq_some hlast
    obtain ⟨timing, usageLimit, rfl⟩ := limit?_eq_some hlimit
    exact .limited hsplit rfl fun hread => hread.limit hactive timing usageLimit
  · exact step_addAbility reader card before sentence

namespace Step

variable {card : CardId} {sentence : List Char} {before after : Readings}

theorem length_le (h : Step card sentence before after) :
    before.abilities.length ≤ after.abilities.length := by
  cases h with
  | limited split number read => simp [split]
  | passed events => exact Nat.le_refl _
  | made events number read => simp
  | unnumbered events none => exact Nat.le_refl _

/-- Every ability is what some sentence says, the new one included. -/
theorem readFrom (h : Step card sentence before after) {sentences : List (List Char)}
    (hbefore : ∀ ability ∈ before.abilities, ∃ earlier ∈ sentences, ability.ReadFrom card earlier) :
    ∀ ability ∈ after.abilities,
      ∃ earlier ∈ sentences ++ [sentence], ability.ReadFrom card earlier := by
  have hearlier : ∀ ability ∈ before.abilities,
      ∃ earlier ∈ sentences ++ [sentence], ability.ReadFrom card earlier := by
    intro ability hability
    obtain ⟨earlier, hmem, hread⟩ := hbefore ability hability
    exact ⟨earlier, List.mem_append_left _ hmem, hread⟩
  cases h with
  | passed events => exact hearlier
  | unnumbered events none => exact hearlier
  | made events number read =>
    intro ability hability
    rcases List.mem_append.mp hability with hold | hnew
    · exact hearlier ability hold
    · rw [List.mem_singleton.mp hnew]
      exact ⟨sentence, by simp, read⟩
  | @limited front behind limited changed split number read =>
    rw [split] at hearlier
    intro ability hability
    rcases List.mem_append.mp hability with hfront | hrest
    · exact hearlier ability (List.mem_append_left _ hfront)
    · rcases List.mem_cons.mp hrest with rfl | hbehind
      · obtain ⟨earlier, hmem, hread⟩ := hearlier limited (by simp)
        exact ⟨earlier, hmem, read hread⟩
      · exact hearlier ability (by simp [hbehind])

end Step

end Readings

end CardRules
