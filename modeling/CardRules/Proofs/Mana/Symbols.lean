import CardRules.Mana.Symbol

/-!
# Symbols in a text

A text is scanned for symbols from one open brace to the next (`Scans`). Behind a brace there is a symbol,
up to the next closing brace, unless that brace comes at once or never comes; then the scan goes on right
behind the open brace. So braces may stand inside one another, be empty or be left open, and a symbol may
itself hold open braces.

What is found are pieces of the text in the order in which they stand there, each with a brace on either
side (`interleaved`), and where nothing else has an open brace there is just one way to cut the text up so
(`scan_exact`).
-/

set_option autoImplicit false

namespace CardRules

/-! ## The scan -/

/-- Symbols in braces, each with what stands before it, and what stands behind the last one. -/
def interleaved : (parts : List (List Char × List Char)) → (tail : List Char) → List Char
  | [], tail => tail
  | (gap, symbol) :: parts, tail => gap ++ '{' :: (symbol ++ '}' :: interleaved parts tail)

/-- A scan of a text, from one open brace to the next, and the symbols it finds. -/
inductive Scans : (s : List Char) → (symbols : List (List Char)) → Prop
  /-- No brace is left. -/
  | done {s : List Char} (hgap : '{' ∉ s) : Scans s []
  /-- There is a symbol behind the brace, and the scan goes on behind the symbol. -/
  | found {gap symbol rest : List Char} {symbols : List (List Char)} (hgap : '{' ∉ gap)
      (hne : symbol ≠ []) (hclose : '}' ∉ symbol) (hrest : Scans rest symbols) :
      Scans (gap ++ '{' :: (symbol ++ '}' :: rest)) (symbol :: symbols)
  /-- The brace is never closed, or at once, and the scan goes on behind the brace. -/
  | skipped {gap s : List Char} {symbols : List (List Char)} (hgap : '{' ∉ gap)
      (hnone : '}' ∉ s ∨ s.head? = some '}') (hrest : Scans s symbols) :
      Scans (gap ++ '{' :: s) symbols

/-- Every scan comes to its end, as it goes on with a shorter text. -/
theorem exists_scans (s : List Char) : ∃ symbols, Scans s symbols := by
  induction hlength : s.length using Nat.strongRecOn generalizing s with
  | ind length ih =>
    subst hlength
    by_cases hopen : '{' ∈ s
    · obtain ⟨gap, behind, rfl, hgap⟩ := List.eq_append_cons_of_mem hopen
      by_cases hnone : '}' ∉ behind ∨ behind.head? = some '}'
      · obtain ⟨symbols, hrest⟩ := ih behind.length (by simp; omega) behind rfl
        exact ⟨symbols, .skipped hgap hnone hrest⟩
      · rw [not_or, Classical.not_not] at hnone
        obtain ⟨hmem, hhead⟩ := hnone
        obtain ⟨symbol, rest, rfl, hclose⟩ := List.eq_append_cons_of_mem hmem
        have hne : symbol ≠ [] := by
          rintro rfl
          exact hhead rfl
        obtain ⟨symbols, hrest⟩ := ih rest.length (by simp; omega) rest rfl
        exact ⟨symbol :: symbols, .found hgap hne hclose hrest⟩
    · exact ⟨[], .done hopen⟩

/-! ## What is found -/

theorem symbolsFrom_append {gap : List Char} (h : '{' ∉ gap) (s : List Char) :
    symbolsFrom none (gap ++ s) = symbolsFrom none s := by
  induction gap with
  | nil => rfl
  | cons c gap ih =>
    rw [List.mem_cons, not_or] at h
    rw [List.cons_append, symbolsFrom, if_neg (Ne.symm h.1), ih h.2]

theorem symbolsFrom_inside {symbol : List Char} (h : '}' ∉ symbol) (seen s : List Char) :
    symbolsFrom (some seen) (symbol ++ s) = symbolsFrom (some (symbol.reverse ++ seen)) s := by
  induction symbol generalizing seen with
  | nil => rfl
  | cons c symbol ih =>
    rw [List.mem_cons, not_or] at h
    rw [List.cons_append, symbolsFrom, if_neg (Ne.symm h.1), ih h.2, List.reverse_cons,
      List.append_assoc]
    rfl

theorem symbolsFrom_symbol {symbol : List Char} (hne : symbol ≠ []) (hclose : '}' ∉ symbol)
    (rest : List Char) :
    symbolsFrom none ('{' :: (symbol ++ '}' :: rest)) = symbol :: symbolsFrom none rest := by
  have hseen : (symbol.reverse ++ []).isEmpty = false := by
    rw [List.append_nil, List.isEmpty_reverse, List.isEmpty_eq_false_iff]
    exact hne
  rw [symbolsFrom, if_pos rfl, symbolsFrom_inside hclose, symbolsFrom, if_pos rfl, hseen,
    if_neg Bool.false_ne_true, List.append_nil, List.reverse_reverse]

/-- Without a closing brace there is no symbol, wherever the text starts. -/
theorem symbolsFrom_of_not_closed {s : List Char} (h : '}' ∉ s) (inside : Option (List Char)) :
    symbolsFrom inside s = [] := by
  induction s generalizing inside with
  | nil => cases inside <;> rfl
  | cons c s ih =>
    rw [List.mem_cons, not_or] at h
    cases inside with
    | none =>
      rw [symbolsFrom]
      split
      · exact ih h.2 _
      · exact ih h.2 _
    | some seen => rw [symbolsFrom, if_neg (Ne.symm h.1), ih h.2]

/-- A brace that starts no symbol makes no difference. -/
theorem symbolsFrom_skip {s : List Char} (h : '}' ∉ s ∨ s.head? = some '}') :
    symbolsFrom none ('{' :: s) = symbolsFrom none s := by
  rw [symbolsFrom, if_pos rfl]
  rcases h with hopen | hclosed
  · rw [symbolsFrom_of_not_closed hopen, symbolsFrom_of_not_closed hopen]
  · obtain ⟨rest, rfl⟩ := List.head?_eq_some_iff.mp hclosed
    rfl

theorem Scans.eq_symbolsIn {s : List Char} {symbols : List (List Char)} (h : Scans s symbols) :
    symbols = symbolsIn s := by
  unfold symbolsIn
  induction h with
  | @done s hgap =>
    have hnone := symbolsFrom_append hgap []
    rw [List.append_nil] at hnone
    rw [hnone, symbolsFrom]
  | found hgap hne hclose hrest ih => rw [symbolsFrom_append hgap, symbolsFrom_symbol hne hclose, ih]
  | skipped hgap hnone hrest ih => rw [symbolsFrom_append hgap, symbolsFrom_skip hnone, ih]

theorem scans_iff {s : List Char} {symbols : List (List Char)} :
    Scans s symbols ↔ symbols = symbolsIn s := by
  constructor
  · exact Scans.eq_symbolsIn
  · rintro rfl
    obtain ⟨symbols, hscan⟩ := exists_scans s
    exact hscan.eq_symbolsIn ▸ hscan

/-! ## Where it stands -/

/-- These symbols stand in a text one behind the other, each in braces and none with a closing brace in
it. -/
def StandIn (symbols : List (List Char)) (s : List Char) : Prop :=
  ∃ parts tail, s = interleaved parts tail ∧ symbols = parts.map Prod.snd ∧
    ∀ part ∈ parts, part.2 ≠ [] ∧ '}' ∉ part.2

theorem StandIn.append {symbols : List (List Char)} {s : List Char} (h : StandIn symbols s)
    (front : List Char) : StandIn symbols (front ++ s) := by
  obtain ⟨parts, tail, rfl, rfl, hparts⟩ := h
  cases parts with
  | nil => exact ⟨[], front ++ tail, rfl, rfl, nofun⟩
  | cons part parts =>
    obtain ⟨hpart, hparts⟩ := List.forall_mem_cons.mp hparts
    refine ⟨(front ++ part.1, part.2) :: parts, tail, ?_, rfl, List.forall_mem_cons.mpr ⟨hpart, hparts⟩⟩
    exact (List.append_assoc _ _ _).symm

theorem StandIn.symbol {symbols : List (List Char)} {s symbol : List Char} (h : StandIn symbols s)
    (hne : symbol ≠ []) (hclose : '}' ∉ symbol) (gap : List Char) :
    StandIn (symbol :: symbols) (gap ++ '{' :: (symbol ++ '}' :: s)) := by
  obtain ⟨parts, tail, rfl, rfl, hparts⟩ := h
  exact ⟨(gap, symbol) :: parts, tail, rfl, rfl, List.forall_mem_cons.mpr ⟨⟨hne, hclose⟩, hparts⟩⟩

theorem Scans.standIn {s : List Char} {symbols : List (List Char)} (h : Scans s symbols) :
    StandIn symbols s := by
  induction h with
  | done hgap => exact ⟨[], _, rfl, rfl, nofun⟩
  | found hgap hne hclose hrest ih => exact ih.symbol hne hclose _
  | @skipped gap s symbols hgap hnone hrest ih =>
    have hskip := ih.append (gap ++ ['{'])
    rwa [List.append_assoc] at hskip

/-- Where no other piece of the text has an open brace, its symbols are found. -/
theorem symbolsIn_interleaved {parts : List (List Char × List Char)} {tail : List Char}
    (hparts : ∀ part ∈ parts, '{' ∉ part.1 ∧ part.2 ≠ [] ∧ '}' ∉ part.2) (htail : '{' ∉ tail) :
    symbolsIn (interleaved parts tail) = parts.map Prod.snd := by
  have hscan : Scans (interleaved parts tail) (parts.map Prod.snd) := by
    induction parts with
    | nil => exact .done htail
    | cons part parts ih =>
      obtain ⟨⟨hgap, hne, hclose⟩, hparts⟩ := List.forall_mem_cons.mp hparts
      exact .found hgap hne hclose (ih hparts)
  exact hscan.eq_symbolsIn.symm

/-- Every text is scanned to its end, in one way. The symbols that are found stand in the text in this
order, each in braces of its own, and none is empty or has a closing brace in it. Where a text is made of
such symbols and of pieces without an open brace, just these symbols are found. -/
theorem scan_exact (s : List Char) :
    (∀ symbols, Scans s symbols ↔ symbols = symbolsIn s) ∧
    StandIn (symbolsIn s) s ∧
    ∀ parts tail, s = interleaved parts tail → '{' ∉ tail →
      (∀ part ∈ parts, '{' ∉ part.1 ∧ part.2 ≠ [] ∧ '}' ∉ part.2) →
      symbolsIn s = parts.map Prod.snd := by
  refine ⟨fun symbols => scans_iff, (scans_iff.mpr rfl).standIn, ?_⟩
  rintro parts tail rfl htail hparts
  exact symbolsIn_interleaved hparts htail

/-- An open brace may be part of a symbol, and it makes no difference where it is closed at once or not at
all. -/
theorem scan_exact_nested :
    symbolsIn "Add \x7bR\x7d or \x7b\x7bG\x7d.".toList = [['R'], ['{', 'G']] ∧
    Scans "\x7b\x7d\x7bR\x7d\x7b".toList [['R']] ∧
    StandIn [['R']] "\x7b\x7d\x7bR\x7d\x7b".toList := by
  have hscan := scan_exact "\x7b\x7d\x7bR\x7d\x7b".toList
  refine ⟨?_, (hscan.1 _).mpr rfl, hscan.2.1⟩
  exact (scan_exact _).2.2 [("Add ".toList, ['R']), (" or ".toList, ['{', 'G'])] ".".toList rfl
    (by decide) (by decide)

end CardRules
