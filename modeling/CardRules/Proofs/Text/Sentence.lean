import CardRules.Sentence
import Mathlib.Data.List.TakeWhile

/-!
# Sentences from lines

A text is cut into sentences of at least one character each. A sentence that is cut out of a line is
kept only if something is left of it without its blanks; a choice of modes starts with the line that
announces it, of which at least the word "choose" stays.

Lines are cut one after the other, but for a mode, which belongs to the choice before it
(`cutLines_append`).
-/

set_option autoImplicit false

namespace CardRules

namespace Text

/-- Some character stays if not all of them are to be dropped. -/
theorem dropBack_ne_nil {p : Char → Bool} {s : List Char} {c : Char} (hc : c ∈ s)
    (h : p c = false) : dropBack p s ≠ [] := by
  intro hnil
  rw [dropBack, List.reverse_eq_nil_iff, List.dropWhile_eq_nil_iff] at hnil
  have hdropped := hnil c (List.mem_reverse.mpr hc)
  rw [h] at hdropped
  exact Bool.false_ne_true hdropped

/-- A text with a phrase in front starts with its first letter, in either case. -/
theorem Reader.fold_of_words {c : Char} {phrase : List Char} {s : List Char} {way : Unit × List Char}
    (h : way ∈ Reader.words.go (c :: phrase) s) : ∃ first rest, s = first :: rest ∧ fold first = c := by
  cases s with
  | nil => simp [Reader.words.go] at h
  | cons first rest =>
    rw [Reader.words.go] at h
    split at h
    · rename_i hfirst
      exact ⟨first, rest, rfl, beq_iff_eq.mp hfirst⟩
    · simp at h

end Text

namespace Sentence

open Text

theorem ne_nil_of_mem_cutLine {line sentence : List Char} (h : sentence ∈ cutLine line) :
    sentence ≠ [] := by
  rw [cutLine, List.mem_filter] at h
  intro hnil
  simp [hnil] at h

/-- Without a period a line is not cut. -/
theorem cutFrom_of_notMem {depth : Nat} {seen s : List Char} (h : '.' ∉ s) :
    cutFrom depth seen s = [seen.reverse ++ s] := by
  induction s generalizing depth seen with
  | nil => rw [cutFrom, List.append_nil]
  | cons c s ih =>
    rw [List.mem_cons, not_or] at h
    rw [cutFrom, if_neg fun hperiod => h.1 hperiod.1.symm, ih h.2, List.reverse_cons, List.append_assoc]
    rfl

/-- A line that announces a choice of modes starts with the first letter of "choose". -/
theorem exists_of_isModalHeader {line : List Char} (h : isModalHeader line = true) :
    ∃ first rest, line = first :: rest ∧ fold first = 'c' := by
  unfold isModalHeader at h
  obtain ⟨way, hway, -⟩ := List.any_eq_true.mp h
  rw [Reader.bind_run, List.mem_flatMap] at hway
  obtain ⟨chosen, hchosen, -⟩ := hway
  have hwords : Reader.words "choose " line = Reader.words.go ('c' :: "hoose ".toList) line := rfl
  rw [hwords] at hchosen
  exact Reader.fold_of_words hchosen

/-- A line that announces a choice of modes is more than periods. -/
theorem header_ne_nil {line : List Char} (h : isModalHeader line = true) :
    dropBack (· == '.') line ≠ [] := by
  obtain ⟨first, rest, rfl, hfold⟩ := exists_of_isModalHeader h
  apply dropBack_ne_nil List.mem_cons_self
  rw [beq_eq_false_iff_ne]
  rintro rfl
  exact absurd hfold (by decide)

/-- A line that announces a choice of modes is no mode of another one. -/
theorem isBullet_of_isModalHeader {line : List Char} (h : isModalHeader line = true) :
    isBullet line = false := by
  obtain ⟨first, rest, rfl, hfold⟩ := exists_of_isModalHeader h
  rw [← Bool.not_eq_true]
  intro hmark
  have hmark : ((first = '*') ∨ first = '-') ∨ first = '\u2022' := by
    simpa [isBullet, isBulletMark] using hmark
  rcases hmark with (rfl | rfl) | rfl
  · exact absurd hfold (by decide)
  · exact absurd hfold (by decide)
  · exact absurd hfold (by decide)

theorem addMode_ne_nil {block : List Char} (h : block ≠ []) (line : List Char) :
    addMode block line ≠ [] := by
  unfold addMode
  simp [h]

theorem ne_nil_of_mem_cutLines {block : Option (List Char)} {lines : List (List Char)}
    (hblock : ∀ begun ∈ block, begun ≠ []) :
    ∀ sentence ∈ cutLines block lines, sentence ≠ [] := by
  -- along the lines; the choice of modes that is open is not empty
  fun_induction cutLines block lines with
  | case1 => simp
  | case2 block => simpa using hblock
  | case3 line lines hheader ih => exact ih (by simpa using header_ne_nil hheader)
  | case4 line lines hheader ih =>
    intro sentence hsentence
    rcases List.mem_append.mp hsentence with hcut | hrest
    · exact ne_nil_of_mem_cutLine hcut
    · exact ih (by simp) sentence hrest
  | case5 block line lines hbullet ih =>
    exact ih (by simpa using addMode_ne_nil (by simpa using hblock) line)
  | case6 block line lines hbullet hheader ih =>
    intro sentence hsentence
    rcases List.mem_cons.mp hsentence with rfl | hrest
    · simpa using hblock
    · exact ih (by simpa using header_ne_nil hheader) sentence hrest
  | case7 block line lines hbullet hheader ih =>
    intro sentence hsentence
    rcases List.mem_cons.mp hsentence with rfl | hrest
    · simpa using hblock
    rcases List.mem_append.mp hrest with hcut | hrest
    · exact ne_nil_of_mem_cutLine hcut
    · exact ih (by simp) sentence hrest

theorem ne_nil_of_mem_split {text sentence : List Char} (h : sentence ∈ split text) :
    sentence ≠ [] :=
  ne_nil_of_mem_cutLines (by simp) sentence h

/-! ## Lines behind each other -/

/-- A line that is no mode ends the choice of modes before it. -/
theorem cutLines_append {front back : List (List Char)} (hback : back.head?.any isBullet = false)
    (block : Option (List Char)) :
    cutLines block (front ++ back) = cutLines block front ++ cutLines none back := by
  fun_induction cutLines block front with
  | case1 => rfl
  | case2 block =>
    -- a choice is still open where the front ends; the first line of the back closes it
    cases back with
    | nil => rfl
    | cons line rest =>
      have hline : ¬isBullet line = true := Bool.eq_false_iff.mp hback
      rw [List.nil_append]
      by_cases hheader : isModalHeader line = true
      · simp only [cutLines, if_neg hline, if_pos hheader, List.singleton_append]
      · simp only [cutLines, if_neg hline, if_neg hheader, List.singleton_append]
  | case3 line lines hheader ih => rw [List.cons_append, cutLines, if_pos hheader, ih]
  | case4 line lines hheader ih => rw [List.cons_append, cutLines, if_neg hheader, ih, List.append_assoc]
  | case5 block line lines hbullet ih => rw [List.cons_append, cutLines, if_pos hbullet, ih]
  | case6 block line lines hbullet hheader ih =>
    rw [List.cons_append, cutLines, if_neg hbullet, if_pos hheader, ih, List.cons_append]
  | case7 block line lines hbullet hheader ih =>
    rw [List.cons_append, cutLines, if_neg hbullet, if_neg hheader, ih, List.cons_append,
      List.append_assoc]

end Sentence

end CardRules
