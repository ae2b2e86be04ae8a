import CardRules.Proofs.Text.Settled

/-!
# Names that do not matter

A text that does not have its card's name is read as without a name, and so is every text if the name is
blank. What counts as blank is the name as it is given, while the text is searched for the name in plain
letters. Of a name that turns blank only in plain letters, every occurrence is taken for the card itself, and
without any letters it occurs everywhere.

That this always makes a difference (`normalizeBy_eq_iff`) is seen by counting: "this permanent" and the two
marks of a name each have one of three characters (`isTally`), no blank has any of them, and so a blank that is
replaced adds one that nothing later takes away (`tally_normalizeBy`).
-/

set_option autoImplicit false

namespace CardRules.Sentence

open Text

variable {fold : List Char → List Char} {text name s : List Char}

/-- A name in plain letters occurs in what is left of a text in plain letters without its reminder text. -/
def Mentions (fold : List Char → List Char) (text name : List Char) : Prop :=
  fold name <:+: dropReminders (fold text)

instance (fold : List Char → List Char) (text name : List Char) : Decidable (Mentions fold text name) :=
  inferInstanceAs (Decidable (_ <:+: _))

/-! ## Names without effect -/

theorem replaceNameBy_of_blank (hblank : trim name = []) : replaceNameBy fold (some name) s = s := by
  rw [replaceNameBy, if_pos (by rw [hblank]; rfl)]

theorem replaceNameBy_of_absent (h : ¬fold name <:+: s) : replaceNameBy fold (some name) s = s := by
  have hmark : fold name ≠ [] := by
    intro hnil
    rw [hnil] at h
    exact h List.nil_infix
  rw [replaceNameBy, replace_eq_self hmark self h, ite_self]

theorem normalizeBy_of_irrelevant (h : trim name = [] ∨ ¬Mentions fold text name) :
    normalizeBy fold text (some name) = normalizeBy fold text none := by
  rcases h with hblank | habsent
  · exact congrArg (tidy ∘ unmarked) (replaceNameBy_of_blank hblank)
  · exact congrArg (tidy ∘ unmarked) (replaceNameBy_of_absent habsent)

/-! ## Names with an effect -/

/-- Three characters of which "this permanent" has one, as has each mark of a name. -/
def isTally (c : Char) : Bool := c == 'h' || c == '~' || c == 'N'

theorem not_isBlank_of_isTally {c : Char} (h : isTally c = true) : isBlank c = false := by
  simp only [isTally, Bool.or_eq_true, beq_iff_eq] at h
  obtain (rfl | rfl) | rfl := h
  · rfl
  · rfl
  · rfl

theorem tally_replace_mark {mark : List Char} (hmark : mark.countP isTally = 1) (s : List Char) :
    (replace mark self s).countP isTally = s.countP isTally := by
  obtain ⟨found, -, hcount⟩ := countP_replace isTally mark self s
  have hself : self.countP isTally = 1 := by decide
  rw [hmark, hself] at hcount
  exact Nat.add_right_cancel hcount

theorem tally_unmarked (s : List Char) : (unmarked s).countP isTally = s.countP isTally := by
  rw [unmarked, tally_replace_mark (by decide), tally_replace_mark (by decide)]

theorem tally_normalizeBy (fold : List Char → List Char) (text : List Char) (name : Option (List Char)) :
    (normalizeBy fold text name).countP isTally =
      (replaceNameBy fold name (dropReminders (fold text))).countP isTally := by
  rw [normalizeBy, List.countP_eq_length_filter, filter_tidy fun c => not_isBlank_of_isTally,
    ← List.countP_eq_length_filter, tally_unmarked]

theorem tally_lt_replace {mark : List Char} (hblank : trim mark = []) (hoccurs : mark <:+: s) :
    s.countP isTally < (replace mark self s).countP isTally := by
  obtain ⟨found, hpos, hcount⟩ := countP_replace isTally mark self s
  have hblanks : ∀ c ∈ mark, isBlank c = true := by simpa using trim_eq_nil_iff.mp hblank
  have hmark : mark.countP isTally = 0 := by
    rw [List.countP_eq_zero]
    intro c hc htally
    exact absurd (hblanks c hc) (by rw [not_isBlank_of_isTally htally]; exact Bool.false_ne_true)
  have hself : self.countP isTally = 1 := by decide
  have := hpos hoccurs
  rw [hmark, hself] at hcount
  omega

/-- Of the names that are blank in plain letters or do not occur, those that are blank as they are given or do
not occur make no difference, and all others do. -/
theorem normalizeBy_eq_iff (h : trim (fold name) = [] ∨ ¬Mentions fold text name) :
    normalizeBy fold text (some name) = normalizeBy fold text none ↔
      trim name = [] ∨ ¬Mentions fold text name := by
  refine ⟨fun hsame => ?_, normalizeBy_of_irrelevant⟩
  by_contra hmatters
  obtain ⟨hname, hoccurs⟩ := not_or.mp hmatters
  have hoccurs : Mentions fold text name := not_not.mp hoccurs
  have hblank : trim (fold name) = [] := h.resolve_right (not_not.mpr hoccurs)
  have hreplaced : replaceNameBy fold (some name) (dropReminders (fold text)) =
      replace (fold name) self (dropReminders (fold text)) := by
    rw [replaceNameBy, if_neg (by simpa using hname)]
  have htally := congrArg (List.countP isTally) hsame
  rw [tally_normalizeBy, tally_normalizeBy, hreplaced] at htally
  exact absurd htally (Nat.ne_of_gt (tally_lt_replace hblank hoccurs))

/-- A name that is irrelevant to a text, and exactly when it changes nothing: if it is blank already as it is
given, or does not occur. This holds for every way to write text in plain letters, and with the library's own
every reader then reads the same abilities, for every card. -/
theorem irrelevant_name (text name : String) :
    (∀ fold : List Char → List Char,
      trim (fold name.toList) = [] ∨ ¬Mentions fold text.toList name.toList →
        (normalizeBy fold text.toList (some name.toList) = normalizeBy fold text.toList none ↔
          trim name.toList = [] ∨ ¬Mentions fold text.toList name.toList)) ∧
    (trim name.toList = [] ∨ ¬Mentions plain text.toList name.toList →
      ∀ (reader : AbilityReader) (card : CardId),
        reader.read text (some name) card = reader.read text none card) := by
  refine ⟨fun fold => normalizeBy_eq_iff, fun h reader card => ?_⟩
  have hsame : normalize text.toList (some name.toList) = normalize text.toList none :=
    normalizeBy_of_irrelevant h
  exact congrArg (reader.readPlain · card) hsame

/-- A hard space stands in the text, in plain letters, and is blank; another name does not stand in it. -/
theorem irrelevant_name_hardSpace :
    let text := "Draw a card."
    trim "\u00a0".toList = [] ∧ Mentions plain text.toList "\u00a0".toList ∧
      ¬Mentions plain text.toList "Bolt".toList ∧
      normalizeBy plain text.toList (some "Bolt".toList) = normalizeBy plain text.toList none ∧
      ∀ (reader : AbilityReader) (card : CardId),
        reader.read text (some "\u00a0") card = reader.read text none card := by
  intro text
  have hblank : trim "\u00a0".toList = [] := by decide +kernel
  have habsent : ¬Mentions plain text.toList "Bolt".toList := by decide +kernel
  refine ⟨hblank, by decide +kernel, habsent, ?_, ?_⟩
  · exact ((irrelevant_name text "Bolt").1 plain (.inr habsent)).mpr (.inr habsent)
  · exact (irrelevant_name text "\u00a0").2 (.inl hblank)

/-- An accent by itself is no blank and leaves nothing in plain letters, so it is found between all letters of
a text and the keyword in it is lost. -/
theorem folded_away_name_replaced :
    plain "\u0301".toList = [] ∧ trim (plain "\u0301".toList) = [] ∧
      normalize "Flying".toList none = "Flying".toList ∧
      normalize "Flying".toList (some "\u0301".toList) ≠ "Flying".toList ∧
      (({} : AbilityReader).read "Flying" none ⟨1⟩).abilities.length = 1 ∧
      (({} : AbilityReader).read "Flying" (some "\u0301") ⟨1⟩).abilities = [] := by
  decide +kernel

end CardRules.Sentence
