import CardRules.Proofs.Cost.Rows
import CardRules.Proofs.Mana.Payment

/-!
# The notation of a cost

A cost is written as fragments with commas between them. Each fragment is read as the part of the cost that it
was written for, and the text as the sum of its fragments (`ofText_joined`). So a cost is read back from its text
(`text_read_back`), as long as no cards are to be discarded: "card(s)" is no noun that a reading knows.
-/

set_option autoImplicit false

namespace CardRules

open Text

namespace Cost

/-! ## Fragments joined -/

theorem split_space (s : List Char) : split (' ' :: s) = split s := by
  have hspace : ∀ c ∈ [' '], isBlank c = true := forall_mem_of_all (by decide)
  exact split_blanks_append hspace s

theorem ofText_space (s : List Char) : ofText (' ' :: s) = ofText s := by
  rw [ofText, split_space, ofText]

theorem isWritten_space {s : List Char} : isWritten (' ' :: s) = true ↔ isWritten s = true := by
  rw [isWritten_iff, isWritten_iff, split_space]

theorem toList_joined (first second : String) (rest : List String) :
    (", ".intercalate (first :: second :: rest)).toList =
      first.toList ++ ',' :: ' ' :: (", ".intercalate (second :: rest)).toList := by
  rw [String.intercalate_cons_cons, String.toList_append, String.toList_append, List.append_assoc]
  rfl

/-- Fragments with commas between them are read as their total. -/
theorem ofText_joined (fragments : List String) :
    ofText (", ".intercalate fragments).toList =
      total (fragments.map fun fragment => ofText fragment.toList) := by
  induction fragments with
  | nil => rfl
  | cons first rest ih =>
    cases rest with
    | nil => rw [String.intercalate_singleton, List.map_singleton, total_singleton]
    | cons second rest =>
      rw [toList_joined, ofText_append, ofText_space, ih]
      rfl

theorem isWritten_joined {fragments : List String} (hne : fragments ≠ [])
    (h : ∀ fragment ∈ fragments, isWritten fragment.toList = true) :
    isWritten (", ".intercalate fragments).toList = true := by
  induction fragments with
  | nil => exact absurd rfl hne
  | cons first rest ih =>
    rw [List.forall_mem_cons] at h
    cases rest with
    | nil =>
      rw [String.intercalate_singleton]
      exact h.1
    | cons second rest =>
      rw [toList_joined, isWritten_append, isWritten_space]
      exact ⟨h.1, ih (List.cons_ne_nil second rest) h.2⟩

/-! ## One fragment -/

/-- A text that is read as a cost, and passes as one. -/
def ReadsAs (s : String) (cost : Cost) : Prop :=
  ofText s.toList = cost ∧ isWritten s.toList = true

theorem readsAs_tap : ReadsAs "\x7bT\x7d" { tap := true } := ⟨by decide, by decide⟩

theorem readsAs_sacrifice : ReadsAs "Sacrifice this permanent" { sacrifice := true } :=
  ⟨by decide, by decide⟩

theorem foldl_addSymbol {symbols : List (List Char)}
    (h : ∀ symbol ∈ symbols, ∀ cost : Cost,
      cost.addSymbol symbol = { cost with mana := cost.mana.addSymbol symbol }) (cost : Cost) :
    symbols.foldl addSymbol cost = { cost with mana := symbols.foldl ManaCost.addSymbol cost.mana } := by
  induction symbols generalizing cost with
  | nil => rfl
  | cons symbol symbols ih =>
    rw [List.forall_mem_cons] at h
    rw [List.foldl_cons, h.1, ih h.2, List.foldl_cons]

/-- No symbol of a mana cost is one for tapping or untapping. -/
theorem addSymbol_of_mem_symbols {mana : ManaCost} {symbol : List Char} (h : symbol ∈ mana.symbols)
    (cost : Cost) : cost.addSymbol symbol = { cost with mana := cost.mana.addSymbol symbol } := by
  rcases ManaCost.mem_symbols_cases h with rfl | rfl | ⟨color, rfl⟩
  · rfl
  · rw [addSymbol, sameLetters_digits (by decide), sameLetters_digits (by decide)]
    rfl
  · cases color <;> rfl

theorem readsAs_mana (mana : ManaCost) : ReadsAs mana.text (ofMana mana) := by
  have hsymbols : ∀ symbol ∈ mana.symbols, symbol ≠ [] ∧ '}' ∉ symbol := fun symbol hsymbol =>
    ⟨(ManaCost.isAlphanum_of_mem_symbols hsymbol).1, (ManaCost.not_brace_of_mem_symbols hsymbol).2⟩
  have hcomma : ∀ symbol ∈ mana.symbols, ',' ∉ symbol := fun symbol hsymbol hc =>
    absurd ((ManaCost.isAlphanum_of_mem_symbols hsymbol).2 ',' hc) (by decide)
  have hrow : IsRow mana.text.toList mana.symbols := by
    rw [ManaCost.text, String.toList_ofList]
    exact isRow_braced hsymbols
  have hread : CostPart.ofText? (trim mana.text.toList) = some (.symbols mana.symbols) :=
    CostPart.ofText?_eq_some_iff.mpr (.symbols mana.symbols_ne_nil hrow.trim)
  refine ⟨?_, (ofText_of_fragment (hrow.comma_notMem hcomma) hread).2⟩
  rw [ofText_of_isRow hrow hcomma, foldl_addSymbol fun symbol => addSymbol_of_mem_symbols,
    ManaCost.foldl_symbols]
  rfl

theorem toList_life {n : Int32} (h : 0 ≤ n.toInt) :
    (s!"Pay {n.toInt} life").toList = "Pay ".toList ++ (digits n.toInt.toNat ++ " life".toList) := by
  have hnumber : (toString n.toInt).toList = digits n.toInt.toNat := by
    rw [← toList_toString_ofNat, Int.toNat_of_nonneg h]
  have hwhole : s!"Pay {n.toInt} life" = "Pay " ++ toString n.toInt ++ " life" := rfl
  rw [hwhole, String.toList_append, String.toList_append, hnumber, List.append_assoc]

theorem says_life {n : Int32} (h : 0 ≤ n.toInt) :
    CostPart.Says ("Pay ".toList ++ (digits n.toInt.toNat ++ " life".toList)) (.life n) := by
  have hgap : ∀ c ∈ [' '], CostPart.isGap c = true := forall_mem_of_all (by decide)
  have hspaced : CostPart.Spaced ["Pay".toList, digits n.toInt.toNat, "life".toList]
      ("Pay".toList ++ ([' '] ++ (digits n.toInt.toNat ++ ([' '] ++ ("life".toList ++ []))))) :=
    .more (by simp) hgap (.more (by simp) hgap (.last (by simp)))
  exact .life ⟨"pay", by decide⟩ (fun _ => isDigit_of_mem_digits) (int?_digits h)
    ⟨"life", by decide⟩ hspaced

theorem readsAs_life {n : Int32} (h : 0 ≤ n.toInt) :
    ReadsAs s!"Pay {n.toInt} life" { life := n } := by
  have hread := CostPart.ofText?_eq_some_iff.mpr (says_life h)
  have htrim : trim (s!"Pay {n.toInt} life").toList = (s!"Pay {n.toInt} life").toList := by
    rw [toList_life h]
    apply trim_eq_self
    · intro c hc
      rw [List.head?_append_of_ne_nil _ (by decide)] at hc
      obtain rfl : 'P' = c := Option.some.inj hc
      decide
    · intro c hc
      rw [← List.append_assoc, List.getLast?_append_of_ne_nil _ (by decide)] at hc
      obtain rfl : 'e' = c := Option.some.inj hc
      decide
  have hcomma : ',' ∉ (s!"Pay {n.toInt} life").toList := by
    have hdigits : ',' ∉ digits n.toInt.toNat := fun hc => absurd (isDigit_of_mem_digits hc) (by decide)
    rw [toList_life h, List.mem_append, List.mem_append, not_or, not_or]
    exact ⟨by decide, hdigits, by decide⟩
  rw [← toList_life h, ← htrim] at hread
  obtain ⟨hcost, hwritten⟩ := ofText_of_fragment hcomma hread
  refine ⟨?_, hwritten⟩
  rw [hcost, addFragment, hread]
  simp

/-! ## The text of a cost -/

/-- A fragment that is left out is read as nothing. -/
theorem total_optional {p : Prop} [Decidable p] {fragment : String} {cost : Cost}
    (h : p → ReadsAs fragment cost) :
    total ((if p then [fragment] else []).map fun fragment => ofText fragment.toList) =
      if p then cost else {} := by
  split
  · rename_i hp
    rw [List.map_singleton, total_singleton, (h hp).1]
  · rfl

section Whole

variable {cost : Cost} (hdiscard : cost.discard = 0) (hlife : 0 ≤ cost.life) (hother : cost.other = [])

include hdiscard hother in
theorem fragments_eq : cost.fragments =
    (if cost.includesMana then [cost.mana.text] else []) ++ (if cost.tap then ["\x7bT\x7d"] else []) ++
      (if cost.sacrifice then ["Sacrifice this permanent"] else []) ++
      (if 0 < cost.life then [s!"Pay {cost.life.toInt} life"] else []) := by
  have hcards : ¬ 0 < cost.discard := by
    rw [hdiscard]
    decide
  rw [fragments, hother, if_neg hcards, List.append_nil, List.append_nil]

include hdiscard hlife hother

/-- The fragments of a cost add up to it. -/
theorem total_fragments : total (cost.fragments.map fun fragment => ofText fragment.toList) = cost := by
  have hpaid : 0 ≤ cost.life.toInt := Int32.le_iff_toInt_le.mp hlife
  have hmana : (if cost.includesMana then ofMana cost.mana else {}) = ofMana cost.mana := by
    split
    · rfl
    · rename_i hnone
      have hfree : cost.mana.isFree = true := by simpa [includesMana] using hnone
      rw [ManaCost.eq_empty_of_isFree hfree]
      rfl
  have htap : (if cost.tap then ({ tap := true } : Cost) else {}) = { tap := cost.tap } := by
    cases cost.tap with
    | true => rfl
    | false => rfl
  have hsacrifice :
      (if cost.sacrifice then ({ sacrifice := true } : Cost) else {}) = { sacrifice := cost.sacrifice } := by
    cases cost.sacrifice with
    | true => rfl
    | false => rfl
  have hsum : (if 0 < cost.life then ({ life := cost.life } : Cost) else {}) = { life := cost.life } := by
    split
    · rfl
    · rename_i hnone
      rw [Int32.le_antisymm (Int32.not_lt.mp hnone) hlife]
  rw [fragments_eq hdiscard hother, List.map_append, List.map_append, List.map_append, total_append,
    total_append, total_append, total_optional fun _ => readsAs_mana cost.mana,
    total_optional fun _ => readsAs_tap, total_optional fun _ => readsAs_sacrifice,
    total_optional fun _ => readsAs_life hpaid, hmana, htap, hsacrifice, hsum]
  obtain ⟨mana, tap, sacrifice, discard, life, other⟩ := cost
  subst hdiscard hother
  simp [combine, ofMana]

theorem isWritten_of_mem_fragments {fragment : String} (h : fragment ∈ cost.fragments) :
    isWritten fragment.toList = true := by
  have hpaid : 0 ≤ cost.life.toInt := Int32.le_iff_toInt_le.mp hlife
  rw [fragments_eq hdiscard hother] at h
  simp only [List.mem_append, List.mem_ite_nil_right, List.mem_singleton] at h
  rcases h with ((⟨-, rfl⟩ | ⟨-, rfl⟩) | ⟨-, rfl⟩) | ⟨-, rfl⟩
  · exact (readsAs_mana cost.mana).2
  · exact readsAs_tap.2
  · exact readsAs_sacrifice.2
  · exact (readsAs_life hpaid).2

end Whole

/-- A cost that is not free is read back from its text, and the text passes as a cost, as long as no cards are to
be discarded and nothing is kept word for word. -/
theorem text_read_back (cost : Cost) (hfree : cost.isFree = false) (hdiscard : cost.discard = 0)
    (hlife : 0 ≤ cost.life) (hother : cost.other = []) :
    ofText cost.text.toList = cost ∧ isWritten cost.text.toList = true := by
  have htotal := total_fragments hdiscard hlife hother
  have hne : cost.fragments ≠ [] := by
    intro hnil
    rw [hnil] at htotal
    rw [← htotal] at hfree
    exact absurd hfree (by decide)
  rw [text, if_neg (by simpa using hne), ofText_joined]
  exact ⟨htotal, isWritten_joined hne fun fragment => isWritten_of_mem_fragments hdiscard hlife hother⟩

/-- Everything that can be read back: X, two mana and a red one, tapping, sacrificing, and the most life. -/
def dearCost : Cost where
  mana := { x := 1, generic := 2, red := 1 }
  tap := true
  sacrifice := true
  life := 2147483647

theorem text_read_back_dearCost :
    dearCost.text = "\x7bX\x7d\x7b2\x7d\x7bR\x7d, \x7bT\x7d, Sacrifice this permanent, Pay 2147483647 life" ∧
      dearCost.isFree = false ∧ dearCost.discard = 0 ∧ 0 ≤ dearCost.life ∧ dearCost.other = [] ∧
      ofText dearCost.text.toList = dearCost ∧ isWritten dearCost.text.toList = true := by
  have hfree : dearCost.isFree = false := by decide
  have hlife : 0 ≤ dearCost.life := by decide
  exact ⟨by decide, hfree, rfl, hlife, rfl, text_read_back dearCost hfree rfl hlife rfl⟩

example : ofText ({ discard := 2 } : Cost).text.toList = { other := ["Discard 2 card(s)"] } := by decide

end Cost

end CardRules
