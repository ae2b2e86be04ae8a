import CardRules.Proofs.Ability.Reading
import Mathlib.Data.List.Induction

/-!
# Where abilities come from

Whatever a reader reads, each ability that it gives was drafted from a single sentence
(`Ability.Drafted`). What was done to it since is little: its targets were read closely if the reader
does so, and a later sentence may have limited its use. So what is to be said of all abilities that are
read is said of drafts, and kept by a refinement and a limit.
-/

set_option autoImplicit false

namespace CardRules

/-- The ability is what a reader made of the draft of a sentence, its use perhaps limited since. -/
inductive Ability.Drafted (reader : AbilityReader) (card : CardId) : Ability → Prop
  | mk {sentence : List Char} {draft : Draft} {id : AbilityId} {made : Ability}
      (drafted : Draft.ofSentence? (reader.kinds.flatMap Phrasing.ofKind) sentence = some draft)
      (numbered : draft.ability? id card sentence = some made) (timing : Timing)
      (usageLimit : UsageLimit) :
      Drafted reader card
        { (if reader.closely then made.refine.2 else made) with timing, usageLimit }

theorem Ability.Drafted.limit {reader : AbilityReader} {card : CardId} {ability : Ability}
    (h : ability.Drafted reader card) (timing : Timing) (usageLimit : UsageLimit) :
    { ability with timing, usageLimit }.Drafted reader card := by
  cases h with
  | mk drafted numbered _ _ => exact .mk drafted numbered timing usageLimit

namespace Readings

/-- Every ability was drafted from some sentence. -/
def AllDrafted (reader : AbilityReader) (card : CardId) (readings : Readings) : Prop :=
  ∀ ability ∈ readings.abilities, ability.Drafted reader card

variable {reader : AbilityReader} {card : CardId} {readings : Readings}

theorem AllDrafted.addAbility (h : readings.AllDrafted reader card) (sentence : List Char) :
    (readings.addAbility reader card sentence).AllDrafted reader card := by
  unfold Readings.addAbility
  dsimp only
  split
  · exact h
  · rename_i draft hdraft
    split
    · exact h
    · rename_i made hmade
      have hnew := Ability.Drafted.mk hdraft hmade
      intro ability hability
      cases List.mem_append.mp hability with
      | inl hold => exact h ability hold
      | inr hlast =>
        rw [List.mem_singleton.mp hlast]
        cases hclosely : reader.closely with
        | true =>
          have hrefined := hnew made.refine.2.timing made.refine.2.usageLimit
          rw [if_pos hclosely] at hrefined
          exact hrefined
        | false =>
          have hbasic := hnew made.timing made.usageLimit
          rw [if_neg (by simp [hclosely])] at hbasic
          exact hbasic

theorem AllDrafted.add (h : readings.AllDrafted reader card) (sentence : List Char) :
    (readings.add reader card sentence).AllDrafted reader card := by
  unfold Readings.add
  split
  · rename_i limited hlimited
    obtain ⟨words, -, hlast⟩ := Option.bind_eq_some_iff.mp hlimited
    obtain ⟨front, ability, behind, changed, hsplit, -, hlimit, rfl⟩ := limitLast?_eq_some hlast
    obtain ⟨timing, usageLimit, rfl⟩ := limit?_eq_some hlimit
    have hall : ∀ other ∈ front ++ ability :: behind, other.Drafted reader card := hsplit ▸ h
    rw [List.forall_mem_append, List.forall_mem_cons] at hall
    refine List.forall_mem_append.mpr ⟨hall.1, List.forall_mem_cons.mpr ⟨?_, hall.2.2⟩⟩
    exact hall.2.1.limit timing usageLimit
  · exact h.addAbility sentence

end Readings

/-- Sentence by sentence, all that is read is drafted. -/
theorem AbilityReader.drafted_of_mem {reader : AbilityReader} {text : String} {name : Option String}
    {card : CardId} {ability : Ability} (h : ability ∈ (reader.read text name card).abilities) :
    ability.Drafted reader card := by
  have hall : (reader.read text name card).AllDrafted reader card := by
    unfold read readPlain
    induction Sentence.split (Sentence.normalize text.toList (name.map String.toList))
      using List.reverseRecOn with
    | nil => exact fun ability hability => absurd hability List.not_mem_nil
    | append_singleton sentences sentence ih =>
      rw [List.foldl_append]
      exact ih.add sentence
  exact hall ability h

end CardRules
