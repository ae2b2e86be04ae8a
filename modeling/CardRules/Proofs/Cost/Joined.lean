import CardRules.Proofs.Cost.Demands

/-!
# Costs joined by commas

A comma between two written costs makes one, and what is read from it is what is read from both
(`ofText_append`): no fragment reaches across a comma. So the fragments of a cost may stand in any order, and
only what is kept word for word shows it. A text passes as a cost if each of its fragments has a meaning or
starts with a verb of costs (`isWritten_iff`), and then what is kept of it starts so, or is the symbol for
untapping (`fragments_add_up`).
-/

set_option autoImplicit false

namespace CardRules

open Text

namespace Cost

/-! ## Cutting at commas -/

theorem split_append (a b : List Char) : split (a ++ ',' :: b) = split a ++ split b := by
  rw [split, List.splitOn_append_cons_self, List.map_append]
  rfl

theorem split_of_notMem {s : List Char} (h : ',' ∉ s) : split s = [trim s] := by
  rw [split, List.splitOn_eq_singleton h]
  rfl

section Blanks

variable {blanks : List Char} (h : ∀ c ∈ blanks, isBlank c = true)
include h

theorem comma_notMem_blanks : ',' ∉ blanks :=
  fun hcomma => absurd (h ',' hcomma) (by decide)

/-- Blanks in front belong to the first fragment, which is trimmed. -/
theorem split_blanks_append (s : List Char) : split (blanks ++ s) = split s := by
  have hcomma := comma_notMem_blanks h
  have htrim (t : List Char) : trim (blanks ++ t) = trim t :=
    trim_append_of_trim_eq_nil (trim_eq_nil_iff.mpr (by simpa using h)) t
  by_cases hs : ',' ∈ s
  · obtain ⟨front, back, rfl, hfront⟩ := List.eq_append_cons_of_mem hs
    have hboth : ',' ∉ blanks ++ front := by simp [hcomma, hfront]
    rw [← List.append_assoc, split_append, split_append, split_of_notMem hboth, split_of_notMem hfront,
      htrim]
  · have hboth : ',' ∉ blanks ++ s := by simp [hcomma, hs]
    rw [split_of_notMem hboth, split_of_notMem hs, htrim]

/-- Blanks at the end belong to the last fragment. -/
theorem split_append_blanks (s : List Char) : split (s ++ blanks) = split s := by
  have hcomma := comma_notMem_blanks h
  induction hn : s.length using Nat.strong_induction_on generalizing s with
  | h n ih =>
    by_cases hs : ',' ∈ s
    · obtain ⟨front, back, rfl, -⟩ := List.eq_append_cons_of_mem hs
      have hless : back.length < n := by
        rw [← hn, List.length_append, List.length_cons]
        omega
      rw [List.append_assoc, List.cons_append, split_append, split_append, ih back.length hless back rfl]
    · have hboth : ',' ∉ s ++ blanks := by simp [hcomma, hs]
      rw [split_of_notMem hboth, split_of_notMem hs, trim_append_of_blank h]

end Blanks

theorem split_trim (s : List Char) : split (trim s) = split s := by
  obtain ⟨front, back, hs, hfront, hback⟩ := trim_split s
  have hwhole : split s = split (front ++ (trim s ++ back)) := by
    rw [← List.append_assoc, ← hs]
  rw [hwhole, split_blanks_append hfront, split_append_blanks hback]

/-! ## What is read -/

theorem pieces_append (a b : List Char) : pieces (a ++ ',' :: b) = pieces a ++ pieces b := by
  rw [pieces, split_append, List.filter_append]
  rfl

theorem demands_append (a b : List Char) : demands (a ++ ',' :: b) = demands a ++ demands b := by
  rw [demands, pieces_append, List.flatMap_append]
  rfl

theorem ofText_append (a b : List Char) :
    ofText (a ++ ',' :: b) = (ofText a).combine (ofText b) := by
  rw [ofText_eq_total, ofText_eq_total, ofText_eq_total, demands_append, List.map_append, total_append]

/-- A cost that is the sum of two, field by field: flags are joined, amounts of a byte are added up to 255, X
symbols and life are added as long as their field can hold the sum, and what is kept word for word stands one
after the other. -/
structure IsSum (a b sum : Cost) : Prop where
  tap : sum.tap = (a.tap || b.tap)
  sacrifice : sum.sacrifice = (a.sacrifice || b.sacrifice)
  generic : sum.mana.generic.toNat = min 255 (a.mana.generic.toNat + b.mana.generic.toNat)
  colored (color : Color) : (sum.mana.amountOf color).toNat =
    min 255 ((a.mana.amountOf color).toNat + (b.mana.amountOf color).toNat)
  discard : sum.discard.toNat = min 255 (a.discard.toNat + b.discard.toNat)
  x (h : a.mana.x.toNat + b.mana.x.toNat ≤ 255) :
    sum.mana.x.toNat = a.mana.x.toNat + b.mana.x.toNat
  life (h : Int32.minValue.toInt ≤ a.life.toInt + b.life.toInt ∧
      a.life.toInt + b.life.toInt ≤ Int32.maxValue.toInt) :
    sum.life.toInt = a.life.toInt + b.life.toInt
  other : sum.other = a.other ++ b.other

theorem isSum_combine (a b : Cost) : IsSum a b (a.combine b) where
  tap := rfl
  sacrifice := rfl
  generic := Capped.toNat_addByte _ _
  colored color := by rw [combine, ManaCost.amountOf_combine, Capped.toNat_addByte]
  discard := Capped.toNat_addByte _ _
  x h := by
    have hsum : (a.combine b).mana.x = a.mana.x + b.mana.x := rfl
    rw [hsum, UInt8.toNat_add]
    exact Nat.mod_eq_of_lt (Nat.lt_succ_of_le h)
  life h := by
    have hsum : (a.combine b).life = a.life + b.life := rfl
    have hlow : Int32.minValue.toInt = -2147483648 := rfl
    have hhigh : Int32.maxValue.toInt = 2147483647 := rfl
    rw [hsum, Int32.toInt_add]
    apply Int.bmod_eq_of_le_mul_two
    · omega
    · omega
  other := rfl

/-! ## What is kept -/

/-- A text that starts with the verb of a cost, case disregarded. -/
def StartsAsCost (s : List Char) : Prop :=
  ∃ start rest, s = start ++ rest ∧ CostPart.Spells verbs start

theorem startsAsCost_iff {s : List Char} :
    StartsAsCost s ↔ (verbs.any fun verb => (dropFront? verb.toList s).isSome) = true := by
  simp only [List.any_eq_true, Option.isSome_iff_exists]
  constructor
  · rintro ⟨start, rest, rfl, verb, hverb, hsame⟩
    exact ⟨verb, hverb, rest, dropFront?_of_lower hsame rest⟩
  · rintro ⟨verb, hverb, rest, hfront⟩
    obtain ⟨start, hs, hsame⟩ := eq_append_of_dropFront? hfront
    exact ⟨start, rest, hs, verb, hverb, hsame⟩

/-- A text passes as a cost if its fragments do. -/
theorem isWritten_iff {s : List Char} :
    isWritten s = true ↔ ∀ fragment ∈ split s,
      (CostPart.ofText? fragment).isSome = true ∨ StartsAsCost fragment := by
  rw [isWritten, split_trim, Bool.and_eq_true, List.all_eq_true]
  simp only [Bool.or_eq_true, ← startsAsCost_iff]
  constructor
  · exact fun h => h.2
  · intro h
    refine ⟨?_, h⟩
    rw [Bool.not_eq_true', ← Bool.not_eq_true, List.isEmpty_iff]
    intro hempty
    -- a blank text is one fragment, which is empty and says nothing
    have hone : split s = [[]] := by
      rw [← split_trim, hempty]
      rfl
    rcases h [] (by simp [hone]) with hread | hverb
    · exact absurd hread (by decide)
    · rw [startsAsCost_iff] at hverb
      exact absurd hverb (by decide)

theorem isWritten_append {a b : List Char} :
    isWritten (a ++ ',' :: b) = true ↔ isWritten a = true ∧ isWritten b = true := by
  rw [isWritten_iff, isWritten_iff, isWritten_iff, split_append, List.forall_mem_append]

/-- Only a fragment that says nothing is asked for word for word. -/
theorem read_of_words_mem {fragment words : List Char} (h : .words words ∈ demandsOf fragment) :
    CostPart.ofText? fragment = none ∧ words = fragment := by
  rw [demandsOf] at h
  split at h
  · rename_i part _
    cases part with
    | symbols row =>
      obtain ⟨symbol, -, hsymbol⟩ := List.mem_map.mp h
      rcases Demand.ofSymbol_eq_iff.mp hsymbol with hmeans | ⟨hunknown, -⟩
      · cases hmeans with
        | mana hmana => cases hmana
      · exact absurd hunknown (by simp)
    | sacrifice => simp [CostPart.demands] at h
    | discard n => simp [CostPart.demands] at h
    | life n => simp [CostPart.demands] at h
  · rename_i hnone
    exact ⟨hnone, Demand.words.inj (List.mem_singleton.mp h)⟩

/-- A text without commas that says something is one fragment. -/
theorem ofText_of_fragment {s : List Char} {part : CostPart} (hcomma : ',' ∉ s)
    (h : CostPart.ofText? (trim s) = some part) :
    ofText s = addFragment {} (trim s) ∧ isWritten s = true := by
  have hsplit := split_of_notMem hcomma
  constructor
  · have hne : trim s ≠ [] := by
      have hnothing : CostPart.ofText? [] = none := by decide
      intro hempty
      rw [hempty, hnothing] at h
      exact absurd h (by simp)
    rw [ofText, hsplit, List.filter_cons_of_pos (by simpa using hne)]
    rfl
  · rw [isWritten_iff, hsplit]
    intro fragment hmem
    rw [List.mem_singleton.mp hmem, h]
    exact .inl rfl

/-- What is kept word for word is the symbol for untapping, or a fragment that says nothing. -/
theorem kept_cases {s : List Char} {entry : String} (h : entry ∈ (ofText s).other) :
    entry = "\x7bQ\x7d" ∨
      ∃ fragment ∈ split s, CostPart.ofText? fragment = none ∧ entry = String.ofList fragment := by
  rw [ofText_eq_total, other_total, List.flatMap_map] at h
  obtain ⟨demand, hdemand, hentry⟩ := List.mem_flatMap.mp h
  obtain ⟨fragment, hpiece, hmem⟩ := List.mem_flatMap.mp hdemand
  cases demand with
  | untap => exact .inl (List.mem_singleton.mp hentry)
  | words words =>
    obtain ⟨hnone, rfl⟩ := read_of_words_mem hmem
    exact .inr ⟨words, (List.mem_filter.mp hpiece).1, hnone, List.mem_singleton.mp hentry⟩
  | _ => exact absurd hentry List.not_mem_nil

theorem kept_of_isWritten {s : List Char} (h : isWritten s = true) {entry : String}
    (hentry : entry ∈ (ofText s).other) : entry = "\x7bQ\x7d" ∨ StartsAsCost entry.toList := by
  refine (kept_cases hentry).imp_right ?_
  rintro ⟨fragment, hmem, hnone, rfl⟩
  rw [String.toList_ofList]
  refine (isWritten_iff.mp h fragment hmem).resolve_left ?_
  rw [hnone]
  exact Bool.false_ne_true

/-! ## The reading as a whole -/

/-- Two written costs with a comma between them are read as their sum. Costs with the same fragments, in
whatever order, are read alike but for the order of what is kept word for word. And what is kept of a text that
passes as a cost starts as a cost does, but for the symbol for untapping. -/
theorem fragments_add_up :
    (∀ a b, IsSum (ofText a) (ofText b) (ofText (a ++ ',' :: b))) ∧
    (∀ a b, (pieces a).Perm (pieces b) →
      (ofText a).amounts = (ofText b).amounts ∧ (ofText a).other.Perm (ofText b).other) ∧
    ∀ a, isWritten a = true →
      ∀ entry ∈ (ofText a).other, entry = "\x7bQ\x7d" ∨ StartsAsCost entry.toList := by
  refine ⟨?_, ?_, fun a hwritten entry => kept_of_isWritten hwritten⟩
  · intro a b
    rw [ofText_append]
    exact isSum_combine _ _
  · intro a b h
    have hdemands : ((demands a).map Demand.cost).Perm ((demands b).map Demand.cost) :=
      (h.flatMap_right demandsOf).map Demand.cost
    rw [ofText_eq_total, ofText_eq_total]
    exact ⟨amounts_total_of_perm hdemands, perm_other_total hdemands⟩

/-- X and two mana, and a counter. -/
def counterCost : List Char := "\x7bX\x7d\x7b2\x7d, Remove a counter".toList

/-- The same fragments in the other order, with a blank one between them. -/
def counterFirst : List Char := "Remove a counter, , \x7bX\x7d\x7b2\x7d".toList

/-- Three life more, the other order, and what is kept of the cost, which starts with its verb. -/
theorem fragments_add_up_counter :
    (ofText (counterCost ++ ',' :: "pay 3 life".toList)).life.toInt = 0 + 3 ∧
      (pieces counterCost).Perm (pieces counterFirst) ∧
      (ofText counterCost).amounts = (ofText counterFirst).amounts ∧
      isWritten counterCost = true ∧ "Remove a counter" ∈ (ofText counterCost).other ∧
      StartsAsCost "Remove a counter".toList := by
  obtain ⟨hsum, horder, hkept⟩ := fragments_add_up
  have hlife := (hsum counterCost "pay 3 life".toList).life (by decide)
  have hperm : (pieces counterCost).Perm (pieces counterFirst) := by decide
  have hwritten : isWritten counterCost = true := by decide
  have hmem : "Remove a counter" ∈ (ofText counterCost).other := by decide
  have hverb := (hkept counterCost hwritten _ hmem).resolve_left (by decide)
  exact ⟨hlife, hperm, (horder _ _ hperm).1, hwritten, hmem, hverb⟩

end Cost

end CardRules
