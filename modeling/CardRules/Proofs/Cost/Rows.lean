import CardRules.Proofs.Cost.Joined
import CardRules.Proofs.Mana.Notation

/-!
# Rows of symbols

Three scanners look for the symbols of a text: one accepts a row of symbols and nothing else, one finds symbols
wherever they stand, and one cuts the text at its open braces. On a row they find the same symbols. The second
finds whatever the first accepts (`symbolsFrom_of_symbolRunFrom`), and the third does so too as long as no
symbol holds an open brace (`IsRow.symbolParts`).

So a row can be read as a mana cost or as the cost of an ability, and the mana is the same (`row_read_alike`):
the symbols for tapping and untapping, which only the second reading knows, are no mana in the first.
-/

set_option autoImplicit false

namespace CardRules

open Text

variable {s : List Char} {symbols : List (List Char)}

theorem isRow_braced (h : ∀ symbol ∈ symbols, symbol ≠ [] ∧ '}' ∉ symbol) :
    IsRow (braced symbols) symbols := by
  induction symbols with
  | nil => exact .nil
  | cons symbol symbols ih =>
    rw [List.forall_mem_cons] at h
    rw [braced_cons]
    exact .symbol h.1.1 h.1.2 (ih h.2)

/-! ## The scanners -/

/-- What is accepted as a row is found wherever it stands. -/
theorem symbolsFrom_of_symbolRunFrom {inside : Option (List Char)}
    (h : symbolRunFrom inside s = some symbols) : symbolsFrom inside s = symbols := by
  fun_induction symbolRunFrom inside s generalizing symbols with
  | case1 => exact Option.some.inj h
  | case2 => simp at h
  | case3 s ih => rw [symbolsFrom, if_pos rfl, ih h]
  | case4 c s hopen _ ih => rw [symbolsFrom, if_neg hopen, ih h]
  | case5 => simp at h
  | case6 => simp at h
  | case7 seen s hne ih =>
    obtain ⟨more, hmore, rfl⟩ := Option.map_eq_some_iff.mp h
    rw [symbolsFrom, if_pos rfl, if_neg hne, ih hmore]
  | case8 seen c s hclose ih => rw [symbolsFrom, if_neg hclose, ih h]

theorem IsRow.symbolsIn (h : IsRow s symbols) : symbolsIn s = symbols :=
  symbolsFrom_of_symbolRunFrom h.symbolRunFrom

theorem IsRow.symbolParts (h : IsRow s symbols) (hopen : ∀ symbol ∈ symbols, '{' ∉ symbol) :
    symbolParts s = symbols := by
  induction h with
  | nil => rfl
  | gap hc h ih =>
    rw [symbolParts_cons, ih hopen]
    rintro rfl
    exact absurd hc (by decide)
  | symbol hne hinside h ih =>
    rw [List.forall_mem_cons] at hopen
    rw [symbolParts_symbol hopen.1 hinside, ih hopen.2]

/-! ## A row as a mana cost -/

theorem IsRow.forall_isGap (h : IsRow s symbols) (hnil : symbols = []) :
    ∀ c ∈ s, CostPart.isGap c = true := by
  induction h with
  | nil => simp
  | gap hc h ih => exact List.forall_mem_cons.mpr ⟨hc, ih hnil⟩
  | symbol => simp at hnil

theorem IsRow.brace_mem (h : IsRow s symbols) (hne : symbols ≠ []) : '{' ∈ s := by
  induction h with
  | nil => exact absurd rfl hne
  | gap hc h ih => exact List.mem_cons_of_mem _ (ih hne)
  | symbol => exact List.mem_cons_self

theorem ofCompact_of_gaps (h : ∀ c ∈ s, CostPart.isGap c = true) : ManaCost.ofCompact s = {} := by
  have hgap : ∀ c ∈ s, c = ' ' ∨ c = '\t' := fun c hc => CostPart.isGap_iff.mp (h c hc)
  have hdigits : s.filter Char.isDigit = [] := by
    rw [List.filter_eq_nil_iff]
    intro c hc
    rcases hgap c hc with rfl | rfl
    · decide
    · decide
  have hletters : s.foldl ManaCost.addLetter {} = {} := by
    apply ManaCost.foldl_idle
    intro c hc cost
    rcases hgap c hc with rfl | rfl
    · rfl
    · rfl
  rw [ManaCost.ofCompact, hdigits, hletters]
  rfl

/-- A row is the sum of its symbols, read as a mana cost. -/
theorem IsRow.manaCost (h : IsRow s symbols) (hopen : ∀ symbol ∈ symbols, '{' ∉ symbol) :
    ManaCost.ofText s = symbols.foldl ManaCost.addSymbol {} := by
  by_cases hne : symbols = []
  · have hgaps := h.forall_isGap hne
    have hbrace : '{' ∉ s := fun hmem => absurd (hgaps '{' hmem) (by decide)
    rw [ManaCost.ofText, if_neg (mt List.contains_iff_mem.mp hbrace), ofCompact_of_gaps hgaps, hne]
    rfl
  · rw [ManaCost.ofText, if_pos (List.contains_iff_mem.mpr (h.brace_mem hne)), h.symbolParts hopen]

/-! ## A row as the cost of an ability -/

theorem isBlank_of_isGap {c : Char} (h : CostPart.isGap c = true) : isBlank c = true := by
  rcases CostPart.isGap_iff.mp h with rfl | rfl
  · decide
  · decide

theorem IsRow.dropFront (h : IsRow s symbols) : IsRow (s.dropWhile isBlank) symbols := by
  induction h with
  | nil => exact .nil
  | gap hc h ih =>
    rw [List.dropWhile_cons_of_pos (isBlank_of_isGap hc)]
    exact ih
  | symbol hne hinside h ih => exact .symbol hne hinside h

theorem IsRow.dropBack (h : IsRow s symbols) : IsRow (dropBack isBlank s) symbols := by
  induction h with
  | nil => exact .nil
  | @gap c s symbols hc h ih =>
    by_cases hrest : Text.dropBack isBlank s = []
    · -- then the gap is dropped with the rest
      have hnone : Text.dropBack isBlank (c :: s) = [] := by
        obtain ⟨dropped, hs, hdropped⟩ := dropBack_split isBlank s
        rw [hrest, List.nil_append] at hs
        have hall : ∀ d ∈ c :: s, isBlank d = true :=
          List.forall_mem_cons.mpr ⟨isBlank_of_isGap hc, hs ▸ hdropped⟩
        exact dropBack_append_of_forall hall []
      rw [hnone, ← hrest]
      exact ih
    · rw [← List.singleton_append, dropBack_append hrest]
      exact .gap hc ih
  | @symbol inside s symbols hne hinside h ih =>
    have hlast : ∀ c ∈ ('{' :: inside ++ ['}']).getLast?, isBlank c = false := by
      intro c hc
      rw [List.getLast?_append, List.getLast?_singleton, Option.some_or] at hc
      obtain rfl : '}' = c := Option.some.inj hc
      decide
    rw [List.append_cons, dropBack_append_of_getLast? hlast, ← List.append_cons]
    exact .symbol hne hinside ih

/-- What is trimmed from a row are gaps. -/
theorem IsRow.trim (h : IsRow s symbols) : IsRow (trim s) symbols := h.dropFront.dropBack

theorem IsRow.comma_notMem (h : IsRow s symbols) (hcomma : ∀ symbol ∈ symbols, ',' ∉ symbol) :
    ',' ∉ s := by
  induction h with
  | nil => exact List.not_mem_nil
  | gap hc h ih =>
    rw [List.mem_cons, not_or]
    refine ⟨?_, ih hcomma⟩
    rintro rfl
    exact absurd hc (by decide)
  | symbol hne hinside h ih =>
    rw [List.forall_mem_cons] at hcomma
    simp [hcomma.1, ih hcomma.2]

namespace Cost

/-- The symbols for tapping and untapping are no mana. -/
theorem mana_addSymbol (cost : Cost) (symbol : List Char) :
    (cost.addSymbol symbol).mana = cost.mana.addSymbol symbol := by
  rw [addSymbol]
  split
  · rename_i htap
    rcases eq_of_lower_singleton 'T' (sameLetters_iff.mp htap) rfl with rfl | rfl
    · rfl
    · rfl
  · split
    · rename_i huntap
      rcases eq_of_lower_singleton 'Q' (sameLetters_iff.mp huntap) rfl with rfl | rfl
      · rfl
      · rfl
    · rfl

theorem tap_addSymbol (cost : Cost) (symbol : List Char) :
    (cost.addSymbol symbol).tap = (cost.tap || sameLetters symbol ['t']) := by
  rw [addSymbol]
  split
  · rename_i htap
    rw [htap, Bool.or_true]
  · rename_i htap
    rw [Bool.eq_false_iff.mpr htap, Bool.or_false]
    split
    · rfl
    · rfl

theorem mana_foldl_addSymbol (symbols : List (List Char)) (cost : Cost) :
    (symbols.foldl addSymbol cost).mana = symbols.foldl ManaCost.addSymbol cost.mana :=
  (List.foldl_hom Cost.mana fun cost symbol => (mana_addSymbol cost symbol).symm).symm

theorem tap_foldl_addSymbol (symbols : List (List Char)) (cost : Cost) :
    (symbols.foldl addSymbol cost).tap = (cost.tap || symbols.any (sameLetters · ['t'])) := by
  induction symbols generalizing cost with
  | nil => exact (Bool.or_false _).symm
  | cons symbol symbols ih => rw [List.foldl_cons, ih, tap_addSymbol, List.any_cons, Bool.or_assoc]

theorem isTap_iff {symbol : List Char} :
    sameLetters symbol ['t'] = true ↔ symbol = ['t'] ∨ symbol = ['T'] := by
  constructor
  · exact fun h => eq_of_lower_singleton 'T' (sameLetters_iff.mp h) rfl
  · rintro (rfl | rfl)
    · decide
    · decide

/-- A row is the sum of its symbols, read as the cost of an ability. -/
theorem ofText_of_isRow (h : IsRow s symbols) (hcomma : ∀ symbol ∈ symbols, ',' ∉ symbol) :
    ofText s = symbols.foldl addSymbol {} := by
  have hrow := h.trim
  by_cases hne : symbols = []
  · have hblank : Text.trim s = [] := by
      rw [trim_eq_nil_iff, List.find?_eq_none]
      intro c hc
      simp [isBlank_of_isGap (h.forall_isGap hne c hc)]
    rw [ofText, split_of_notMem (h.comma_notMem hcomma), hblank, hne]
    rfl
  · have hread : CostPart.ofText? (Text.trim s) = some (.symbols symbols) :=
      CostPart.ofText?_eq_some_iff.mpr (.symbols hne hrow)
    rw [(ofText_of_fragment (h.comma_notMem hcomma) hread).1, addFragment, hread]

end Cost

/-- A row of symbols that hold no brace and no comma is read alike as a mana cost and as the cost of an
ability: the mana of both is the sum of the symbols. The cost asks for tapping exactly if one of the symbols does,
and looking for symbols anywhere finds these symbols in order. -/
theorem row_read_alike {s : List Char} {symbols : List (List Char)} (h : IsRow s symbols)
    (hplain : ∀ symbol ∈ symbols, '{' ∉ symbol ∧ ',' ∉ symbol) :
    ManaCost.ofText s = (Cost.ofText s).mana ∧
      (Cost.ofText s).mana = symbols.foldl ManaCost.addSymbol {} ∧
      ((Cost.ofText s).tap = true ↔ ∃ symbol ∈ symbols, symbol = ['t'] ∨ symbol = ['T']) ∧
      symbolsIn s = symbols := by
  have hcost := Cost.ofText_of_isRow h fun symbol hsymbol => (hplain symbol hsymbol).2
  have hmana : (Cost.ofText s).mana = symbols.foldl ManaCost.addSymbol {} := by
    rw [hcost, Cost.mana_foldl_addSymbol]
  refine ⟨?_, hmana, ?_, h.symbolsIn⟩
  · rw [hmana, h.manaCost fun symbol hsymbol => (hplain symbol hsymbol).1]
  · rw [hcost, Cost.tap_foldl_addSymbol, Bool.false_or, List.any_eq_true]
    simp only [Cost.isTap_iff]

/-- A padded number, a symbol for tapping, one without a meaning and a color, with gaps between them and behind. -/
def paddedRow : List Char := "\x7b2 \x7d \x7bt\x7d\x7bW/U\x7d\t\x7bg\x7d ".toList

/-- The symbols of that row. -/
def paddedSymbols : List (List Char) := ["2 ".toList, "t".toList, "W/U".toList, "g".toList]

theorem row_read_alike_padded :
    IsRow paddedRow paddedSymbols ∧
      (∀ symbol ∈ paddedSymbols, '{' ∉ symbol ∧ ',' ∉ symbol) ∧
      ManaCost.ofText paddedRow = (Cost.ofText paddedRow).mana ∧
      (Cost.ofText paddedRow).mana = { generic := 2, green := 1 } ∧
      (Cost.ofText paddedRow).tap = true ∧ symbolsIn paddedRow = paddedSymbols := by
  have hrow : IsRow paddedRow paddedSymbols := symbolRunFrom_eq_some_iff.mp (by decide)
  have hplain : ∀ symbol ∈ paddedSymbols, '{' ∉ symbol ∧ ',' ∉ symbol := by decide
  obtain ⟨hsame, hmana, htap, hfound⟩ := row_read_alike hrow hplain
  exact ⟨hrow, hplain, hsame, hmana, htap.mpr (by decide), hfound⟩

end CardRules
