import CardRules.Ability.Reading
import CardRules.Proofs.Text.Letters
import CardRules.Proofs.Text.Normal
import CardRules.Proofs.Text.Sentence

/-!
# Texts on lines of their own

Two texts with a line end between them have the sentences of the first and then those of the second,
unless the second one opens with a mode, which would belong to a choice at the end of the first one.
Reading goes from sentence to sentence, and what was read before only matters to a sentence that limits
the use of an ability; other sentences are read the same behind anything (`Readings.foldl_add_behind`).
So two texts are read as one after the other.

All of this needs the line end, which is lost behind a delete character.
-/

set_option autoImplicit false

namespace CardRules

namespace Sentence

open Text

/-- Whether the first line of a text that is not blank is a mode. -/
def opensWithMode (text : List Char) : Bool := (nonBlank (lines text)).head?.any isBullet

theorem opensWithMode_eq (text : List Char) :
    opensWithMode text = ((nonBlank (lines text)).head?.bind List.head?).any isBulletMark := by
  unfold opensWithMode isBullet
  cases (nonBlank (lines text)).head? with
  | none => rfl
  | some line => rfl

/-- Text without a delete character opens with a mode only if it did so before it was made plain. -/
theorem opensWithMode_normalize {text : List Char} (hplain : ∀ c ∈ text, isPlain c = true)
    (hopen : '(' ∉ text) (h : opensWithMode text = false) :
    opensWithMode (normalize text none) = false := by
  rw [opensWithMode_eq, head?_nonBlank_lines] at h
  rw [opensWithMode_eq]
  have hself : plain text = text := plain_of_isPlain hplain
  rcases head?_normalize (hself.symm ▸ hopen) with hsame | hname
  · rw [hsame, hself]
    exact h
  · rw [hname]
    rfl

theorem split_of_lines {text first second : List Char} (hmode : opensWithMode second = false)
    (h : nonBlank (lines text) = nonBlank (lines first) ++ nonBlank (lines second)) :
    split text = split first ++ split second := by
  show cutLines none (nonBlank (lines text)) = _
  rw [h]
  exact cutLines_append hmode none

end Sentence

namespace Readings

/-- Some readings with others before them. -/
def behind (before readings : Readings) : Readings where
  abilities := before.abilities ++ readings.abilities
  events := before.events ++ readings.events
  nextId := readings.nextId

variable (reader : AbilityReader) (card : CardId)

theorem addAbility_behind (before readings : Readings) (sentence : List Char) :
    (before.behind readings).addAbility reader card sentence =
      before.behind (readings.addAbility reader card sentence) := by
  unfold addAbility behind
  dsimp only
  split
  · rw [List.append_assoc]
  · split
    · rw [List.append_assoc]
    · cases reader.closely with
      | true => simp only [List.append_assoc]
      | false => simp only [List.append_assoc]

/-- Sentences that limit nothing are read the same behind anything. -/
theorem foldl_add_behind (before start : Readings) {sentences : List (List Char)}
    (h : ∀ sentence ∈ sentences, activationLimit? sentence = none) :
    sentences.foldl (add reader card) (before.behind start) =
      before.behind (sentences.foldl (add reader card) start) := by
  induction sentences generalizing start with
  | nil => rfl
  | cons sentence sentences ih =>
    have hadd (readings : Readings) :
        readings.add reader card sentence = readings.addAbility reader card sentence := by
      unfold add
      rw [h sentence List.mem_cons_self]
      rfl
    rw [List.foldl_cons, List.foldl_cons, hadd, hadd, addAbility_behind]
    exact ih _ fun other hother => h other (List.mem_cons_of_mem sentence hother)

end Readings

namespace AbilityReader

open Sentence Text

/-- A text whose sentences are those of two other texts is read as one after the other, if the second
one limits nothing. -/
theorem readPlain_of_split (reader : AbilityReader) (card : CardId) {text first second : List Char}
    (hsplit : split text = split first ++ split second)
    (hlimit : ∀ sentence ∈ split second, Readings.activationLimit? sentence = none) :
    reader.readPlain text card =
      (reader.readPlain first card).behind
        ((reader.after (reader.readPlain first card)).readPlain second card) := by
  -- behind the first reading stands at first an empty one, with the next number
  have hstart : reader.readPlain first card =
      (reader.readPlain first card).behind { nextId := (reader.readPlain first card).nextId } := by
    unfold Readings.behind
    rw [List.append_nil, List.append_nil]
  have hfold : reader.readPlain text card =
      (split second).foldl (Readings.add reader card) (reader.readPlain first card) := by
    unfold readPlain
    rw [hsplit, List.foldl_append]
  rw [hfold, hstart, Readings.foldl_add_behind reader card _ _ hlimit, ← hstart]
  rfl

/-- A mana ability and a choice of modes. -/
def elfWithChoice : String := "\x7bT\x7d: Add \x7bG\x7d.\nChoose one --\n* Draw a card."

/-- A keyword and two effects. -/
def wingsAndSnare : String := "Flying. You gain 2 life.\nTap target creature"

end AbilityReader

end CardRules
