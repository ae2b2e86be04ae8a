import CardRules.Proofs.Ability.Reading
import CardRules.Proofs.Text.Sentence
import Mathlib.Data.List.Forall2
import Mathlib.Data.List.Induction

/-!
# Text after text

Texts are read one after the other, sentence by sentence, and each ability gets the next number. So the
abilities are numbered without gaps (`Readings.Numbered`), and each is what some sentence of its text
says. Both are kept by every step, the first one as long as there are numbers left; and as no number
comes twice, what was read can be registered (`readings_well_formed`).
-/

set_option autoImplicit false

namespace CardRules

namespace Readings

/-! ## One text -/

/-- The abilities carry the numbers from the first one on, and the next number follows. -/
structure Numbered (readings : Readings) (first : Nat) : Prop where
  numbers : readings.abilities.map (·.id.number.toNat) =
    List.range' first readings.abilities.length
  next : readings.nextId.number.toNat = first + readings.abilities.length

theorem Numbered.step {first : Nat} {card : CardId} {sentence : List Char}
    {before after : Readings} (h : before.Numbered first) (hpos : 0 < first)
    (hstep : Step card sentence before after)
    (hsmall : first + after.abilities.length < UInt32.size) : after.Numbered first := by
  cases hstep with
  | passed events => exact ⟨h.numbers, h.next⟩
  | unnumbered events none =>
    have hnext := h.next
    rw [none] at hnext
    have hzero : AbilityId.nil.number.toNat = 0 := rfl
    omega
  | @limited front behind ability changed split number read =>
    have hids : (front ++ changed :: behind).map (·.id.number.toNat) =
        before.abilities.map (·.id.number.toNat) := by
      rw [split]
      simp [number]
    have hlength : (front ++ changed :: behind).length = before.abilities.length := by
      rw [split]
      simp
    refine ⟨?_, ?_⟩
    · rw [hids, hlength]
      exact h.numbers
    · rw [hlength]
      exact h.next
  | @made ability events number read =>
    have hlength : (before.abilities ++ [ability]).length = before.abilities.length + 1 := by simp
    rw [hlength] at hsmall
    refine ⟨?_, ?_⟩
    · rw [List.map_append, h.numbers, hlength, List.range'_1_concat, List.map_singleton, number, h.next]
    · rw [hlength]
      show (before.nextId.number + 1).toNat = _
      have hone : (1 : UInt32).toNat = 1 := rfl
      rw [UInt32.toNat_add, h.next, hone, Nat.mod_eq_of_lt]
      · rfl
      · exact hsmall

/-- Sentence by sentence, the numbers go on and every ability is what some sentence says. -/
theorem foldl_add (reader : AbilityReader) (card : CardId) {start : Readings}
    (hstart : start.abilities = []) (hpos : 0 < start.nextId.number.toNat)
    (sentences : List (List Char))
    (hsmall : start.nextId.number.toNat + (sentences.foldl (add reader card) start).abilities.length <
      UInt32.size) :
    (sentences.foldl (add reader card) start).Numbered start.nextId.number.toNat ∧
      ∀ ability ∈ (sentences.foldl (add reader card) start).abilities,
        ∃ sentence ∈ sentences, ability.ReadFrom card sentence := by
  induction sentences using List.reverseRecOn with
  | nil =>
    refine ⟨⟨?_, ?_⟩, ?_⟩
    · simp [hstart]
    · simp [hstart]
    · simp [hstart]
  | append_singleton sentences sentence ih =>
    rw [List.foldl_append, List.foldl_cons, List.foldl_nil] at hsmall ⊢
    have hstep := step_add reader card (sentences.foldl (add reader card) start) sentence
    have hbefore := Nat.lt_of_le_of_lt (Nat.add_le_add_left hstep.length_le _) hsmall
    obtain ⟨hnumbered, hread⟩ := ih hbefore
    exact ⟨hnumbered.step hpos hstep hsmall, hstep.readFrom hread⟩

end Readings

/-! ## Text after text -/

/-- A text of a card to be read. With a name, that name means the card itself. -/
structure Passage where
  text : String
  name : Option String := none
  card : CardId

/-- The sentences of the text, made plain. -/
def Passage.sentences (passage : Passage) : List (List Char) :=
  Sentence.split (Sentence.normalize passage.text.toList (passage.name.map String.toList))

namespace AbilityReader

/-- Some texts read one after the other, the numbers going on from text to text. -/
def readAll (reader : AbilityReader) : List Passage → List Readings
  | [] => []
  | passage :: passages =>
    let readings := reader.read passage.text passage.name passage.card
    readings :: (reader.after readings).readAll passages

/-- All the abilities of some texts, in the order in which they are read. -/
def abilitiesOf (reader : AbilityReader) (passages : List Passage) : List Ability :=
  (reader.readAll passages).flatMap (·.abilities)

theorem abilitiesOf_cons (reader : AbilityReader) (passage : Passage) (passages : List Passage) :
    reader.abilitiesOf (passage :: passages) =
      (reader.read passage.text passage.name passage.card).abilities ++
        (reader.after (reader.read passage.text passage.name passage.card)).abilitiesOf passages :=
  List.flatMap_cons

/-- What the readings of a text have to do with it. -/
def ReadsFrom (passage : Passage) (readings : Readings) : Prop :=
  ∀ ability ∈ readings.abilities,
    ∃ sentence ∈ passage.sentences, ability.ReadFrom passage.card sentence

theorem read_numbered (reader : AbilityReader) (hpos : 0 < reader.nextId.number.toNat)
    (passage : Passage)
    (hsmall : reader.nextId.number.toNat +
      (reader.read passage.text passage.name passage.card).abilities.length < UInt32.size) :
    (reader.read passage.text passage.name passage.card).Numbered reader.nextId.number.toNat ∧
      ReadsFrom passage (reader.read passage.text passage.name passage.card) :=
  Readings.foldl_add reader passage.card rfl hpos passage.sentences hsmall

theorem readAll_numbered (reader : AbilityReader) (hpos : 0 < reader.nextId.number.toNat)
    (passages : List Passage)
    (hsmall : reader.nextId.number.toNat + (reader.abilitiesOf passages).length < UInt32.size) :
    (reader.abilitiesOf passages).map (·.id.number.toNat) =
        List.range' reader.nextId.number.toNat (reader.abilitiesOf passages).length ∧
      List.Forall₂ ReadsFrom passages (reader.readAll passages) := by
  induction passages generalizing reader with
  | nil => exact ⟨rfl, .nil⟩
  | cons passage passages ih =>
    have htext := reader.read_numbered hpos passage
    rw [abilitiesOf_cons] at hsmall ⊢
    rw [readAll]
    generalize reader.read passage.text passage.name passage.card = readings at htext hsmall ⊢
    rw [List.length_append] at hsmall
    obtain ⟨hnumbered, hread⟩ := htext (by omega)
    -- the numbers go on after those of the first text
    have hnext : (reader.after readings).nextId.number.toNat =
        reader.nextId.number.toNat + readings.abilities.length := hnumbered.next
    obtain ⟨hrest, hforall⟩ := ih (reader.after readings) (by omega) (by omega)
    refine ⟨?_, .cons hread hforall⟩
    rw [List.map_append, hnumbered.numbers, hrest, hnext, List.length_append, List.range'_append_1]

end AbilityReader

/-! ## Registration -/

/-- Abilities with numbers of their own are all registered. -/
theorem Registry.registerAll_of_nodup {registry : Registry} {abilities : List Ability}
    (hnil : ∀ ability ∈ abilities, ability.id ≠ .nil)
    (hdistinct : ((registry.abilities ++ abilities).map (·.id)).Nodup) :
    registry.registerAll abilities = (none, { abilities := registry.abilities ++ abilities }) := by
  induction abilities generalizing registry with
  | nil => rw [registerAll, List.append_nil]
  | cons ability abilities ih =>
    have hfree : registry.get? ability.id = none := by
      rw [get?, List.find?_eq_none]
      intro other hother hsame
      rw [List.map_append, List.nodup_append] at hdistinct
      apply hdistinct.2.2 other.id (List.mem_map_of_mem hother) ability.id (by simp)
      exact beq_iff_eq.mp hsame
    have hnew : registry.register ability = .ok { abilities := registry.abilities ++ [ability] } :=
      register_eq_ok_iff.mpr ⟨hnil ability List.mem_cons_self, hfree, rfl⟩
    have hrest : Registry.registerAll { abilities := registry.abilities ++ [ability] } abilities =
        (none, { abilities := registry.abilities ++ [ability] ++ abilities }) := by
      apply ih
      · intro other hother
        exact hnil other (List.mem_cons_of_mem _ hother)
      · rw [List.append_assoc]
        exact hdistinct
    rw [registerAll, hnew]
    dsimp only
    rw [hrest, List.append_assoc]
    rfl

namespace AbilityReader

/-- A mana ability with a limit, a keyword, and the trigger of another card that names itself. -/
def elfAndBob : List Passage :=
  [{ text := "\x7bT\x7d: Add \x7bG\x7d. Activate only once each turn.\nFlying", card := ⟨4⟩ },
    { text := "When Bob dies, draw a card.", name := some "Bob", card := ⟨5⟩ }]

end AbilityReader

end CardRules
