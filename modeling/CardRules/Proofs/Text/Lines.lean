import CardRules.Text.Blank
import CardRules.Text.Search
import Mathlib.Data.List.TakeWhile

/-!
# Lines that are not blank

A text is cut into sentences line by line, and blank lines count for nothing. What is left of the
lines then is what stands between the line feeds of the text: a carriage return before a line feed is
a blank at the end of its line, and an empty last line is blank. So cutting at line feeds is enough
(`nonBlank_lines`), and two texts with a line end between them have the lines of both.

The first character that is not a blank is the first of the first line that is not blank.
-/

set_option autoImplicit false

namespace CardRules.Text

/-- Lines without the blanks at their ends, those left out that are nothing else. -/
def nonBlank (lines : List (List Char)) : List (List Char) :=
  (lines.map trim).filter (!·.isEmpty)

/-! ## Blanks at the ends -/

theorem dropEnds_append_singleton {p : Char → Bool} {c : Char} (h : p c = true) (s : List Char) :
    dropEnds p (s ++ [c]) = dropEnds p s := by
  unfold dropEnds
  rw [List.dropWhile_append]
  split
  · rename_i hall
    rw [List.isEmpty_iff.mp hall, List.dropWhile_cons_of_pos h]
    rfl
  · rw [List.reverse_append, List.reverse_singleton, List.singleton_append,
      List.dropWhile_cons_of_pos h]

/-- A text that does not start with a blank still does so without the blanks at its end. -/
theorem head?_trim (s : List Char) : (trim s).head? = s.find? (!isBlank ·) := by
  have hfirst : s.find? (!isBlank ·) = (s.dropWhile isBlank).head? := by
    rw [List.find?_eq_head?_dropWhile_not]
    simp only [Bool.not_not]
  rw [hfirst]
  unfold trim dropEnds
  cases hs : s.dropWhile isBlank with
  | nil => rfl
  | cons c rest =>
    have hc : isBlank c = false := by
      have hstops := List.head?_dropWhile_not isBlank s
      rw [hs] at hstops
      exact hstops
    rw [List.reverse_cons, List.dropWhile_append]
    split
    · rw [List.dropWhile_cons_of_neg (by simp [hc])]
      rfl
    · rw [List.reverse_append]
      rfl

/-- Trimming keeps the first character that is not a blank. -/
theorem find?_trim (s : List Char) : (trim s).find? (!isBlank ·) = s.find? (!isBlank ·) := by
  rw [← head?_trim s]
  cases htrim : trim s with
  | nil => rfl
  | cons c rest =>
    have hfirst := head?_trim s
    rw [htrim, List.head?_cons] at hfirst
    -- what trimming begins with was found as not blank, so it is found again
    have hkept : (!isBlank c) = true := List.find?_some (p := (!isBlank ·)) hfirst.symm
    exact List.find?_cons_of_pos hkept

theorem trim_eq_nil_iff {s : List Char} : trim s = [] ↔ s.find? (!isBlank ·) = none := by
  rw [← head?_trim, List.head?_eq_none_iff]

theorem mem_of_mem_trim {c : Char} {s : List Char} (h : c ∈ trim s) : c ∈ s := by
  unfold trim dropEnds at h
  have hback := (List.dropWhile_suffix _).subset (List.mem_reverse.mp h)
  exact (List.dropWhile_suffix _).subset (List.mem_reverse.mp hback)

/-! ## Lines and line feeds -/

theorem splitOn_feed (s : List Char) : ('\n' :: s).splitOn '\n' = [] :: s.splitOn '\n' := by
  rw [List.splitOn_cons_eq_if_modifyHead, if_pos (beq_self_eq_true '\n')]

theorem splitOn_cons_of_ne {c : Char} (h : c ≠ '\n') {s part : List Char} {parts : List (List Char)}
    (hs : s.splitOn '\n' = part :: parts) : (c :: s).splitOn '\n' = (c :: part) :: parts := by
  rw [List.splitOn_cons_eq_if_modifyHead, if_neg (by simpa using h), hs]
  rfl

/-- The first line up to a carriage return at its end, and the other lines up to blanks. -/
inductive SameLines : List (List Char) → List (List Char) → Prop where
  | empty : SameLines [[]] []
  | first {part line : List Char} {parts more : List (List Char)}
      (head : part = line ∨ part = line ++ ['\r']) (rest : nonBlank parts = nonBlank more) :
      SameLines (part :: parts) (line :: more)

theorem SameLines.nonBlank_eq {parts lines : List (List Char)} (h : SameLines parts lines) :
    nonBlank parts = nonBlank lines := by
  cases h with
  | empty => rfl
  | @first part line parts more head rest =>
    have htrim : trim part = trim line := by
      rcases head with rfl | rfl
      · rfl
      · exact dropEnds_append_singleton rfl line
    unfold nonBlank at rest ⊢
    rw [List.map_cons, List.map_cons, List.filter_cons, List.filter_cons, htrim, rest]

theorem sameLines_splitOn (s : List Char) : SameLines (s.splitOn '\n') (lines s) := by
  -- the first line has to be kept letter for letter: there may still be letters to come before it
  fun_induction lines s with
  | case1 => exact .empty
  | case2 rest ih =>
    rw [splitOn_feed]
    exact .first (.inl rfl) ih.nonBlank_eq
  | case3 rest ih =>
    rw [splitOn_cons_of_ne (by decide) (splitOn_feed rest)]
    exact .first (.inr rfl) ih.nonBlank_eq
  | case4 c rest hfeed hreturn hnone ih =>
    rw [hnone] at ih
    generalize hparts : rest.splitOn '\n' = parts at ih
    cases ih
    rw [splitOn_cons_of_ne hfeed hparts]
    exact .first (.inl rfl) rfl
  | case5 c rest hfeed hreturn line more hsome ih =>
    rw [hsome] at ih
    generalize hparts : rest.splitOn '\n' = parts at ih
    obtain ⟨⟩ | ⟨head, hrest⟩ := ih
    rw [splitOn_cons_of_ne hfeed hparts]
    refine .first ?_ hrest
    rcases head with rfl | rfl
    · exact .inl rfl
    · exact .inr rfl

theorem nonBlank_lines (s : List Char) : nonBlank (lines s) = nonBlank (s.splitOn '\n') :=
  (sameLines_splitOn s).nonBlank_eq.symm

/-- Two texts with a line end between them have the lines of both. -/
theorem nonBlank_lines_append (s t : List Char) :
    nonBlank (lines (s ++ '\n' :: t)) = nonBlank (lines s) ++ nonBlank (lines t) := by
  have hsplit : (s ++ '\n' :: t).splitOn '\n' = s.splitOn '\n' ++ t.splitOn '\n' :=
    List.splitOnP_append_cons s t (beq_self_eq_true '\n')
  rw [nonBlank_lines, hsplit, nonBlank_lines, nonBlank_lines]
  simp [nonBlank]

/-- Texts of one line each are the lines of the text they make. -/
theorem nonBlank_lines_joinWith {parts : List (List Char)} (h : ∀ part ∈ parts, '\n' ∉ part) :
    nonBlank (lines (joinWith ['\n'] parts)) = nonBlank parts := by
  cases parts with
  | nil => rfl
  | cons part parts => rw [nonBlank_lines, joinWith, List.splitOn_intercalate '\n' h (by simp)]

theorem feed_notMem_lines {s line : List Char} (h : line ∈ lines s) : '\n' ∉ line := by
  fun_induction lines s generalizing line with
  | case1 => simp at h
  | case2 rest ih =>
    rcases List.mem_cons.mp h with rfl | hrest
    · simp
    · exact ih hrest
  | case3 rest ih =>
    rcases List.mem_cons.mp h with rfl | hrest
    · simp
    · exact ih hrest
  | case4 c rest hfeed hreturn hnone ih =>
    obtain rfl := List.mem_singleton.mp h
    exact fun hmem => hfeed (List.mem_singleton.mp hmem).symm
  | case5 c rest hfeed hreturn first more hsome ih =>
    rw [hsome] at ih
    rcases List.mem_cons.mp h with rfl | hrest
    · rw [List.mem_cons, not_or]
      exact ⟨fun hmem => hfeed hmem.symm, ih List.mem_cons_self⟩
    · exact ih (List.mem_cons_of_mem _ hrest)

/-! ## The first character -/

theorem head?_nonBlank (parts : List (List Char)) :
    (nonBlank parts).head?.bind List.head? = parts.flatten.find? (!isBlank ·) := by
  induction parts with
  | nil => rfl
  | cons part parts ih =>
    unfold nonBlank at ih ⊢
    rw [List.map_cons, List.filter_cons, List.flatten_cons, List.find?_append]
    cases htrim : trim part with
    | nil =>
      rw [trim_eq_nil_iff.mp htrim, Option.none_or]
      exact ih
    | cons c rest =>
      rw [← head?_trim, htrim]
      rfl

theorem find?_flatten_splitOn (s : List Char) :
    (s.splitOn '\n').flatten.find? (!isBlank ·) = s.find? (!isBlank ·) := by
  induction s with
  | nil => rfl
  | cons c s ih =>
    by_cases hc : c = '\n'
    · subst hc
      rw [splitOn_feed, List.flatten_cons, List.nil_append, ih, List.find?_cons_of_neg (by decide)]
    · obtain ⟨part, parts, hs⟩ := List.exists_cons_of_ne_nil (List.splitOnP_ne_nil (· == '\n') s)
      have hs : s.splitOn '\n' = part :: parts := hs
      rw [hs] at ih
      rw [splitOn_cons_of_ne hc hs, List.flatten_cons, List.cons_append, List.find?_cons,
        List.find?_cons, ← List.flatten_cons, ih]

/-- The first line that is not blank starts with the first character that is not. -/
theorem head?_nonBlank_lines (s : List Char) :
    (nonBlank (lines s)).head?.bind List.head? = s.find? (!isBlank ·) := by
  rw [nonBlank_lines, head?_nonBlank, find?_flatten_splitOn]

end CardRules.Text
