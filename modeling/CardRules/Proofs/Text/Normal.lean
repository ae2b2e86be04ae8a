import CardRules.Proofs.Text.Lines
import CardRules.Sentence

/-!
# Plain text, line by line

Making a text plain works on each line by itself, as long as the lines are there: below the delete
character a text keeps its characters, and neither reminder text nor the marks of a card's own name go
over the end of a line (`split_normalize_append`). From a delete character on, line ends are left out
with the other control characters (`plain_append_of_delete`), and what stands behind it is one line.

A line that is no mode stays none. Its first letter is kept, or it was a mark of the name and becomes
the first letter of "this permanent".
-/

set_option autoImplicit false

namespace CardRules

namespace Text

/-! ## Plain letters -/

theorem plain_append_of_isPlain {s : List Char} (h : ∀ c ∈ s, isPlain c = true) (t : List Char) :
    plain (s ++ t) = s ++ plain t := by
  unfold plain
  rw [List.takeWhile_append_of_pos h, List.dropWhile_append_of_pos h, List.append_assoc]

theorem isPlain_of_isAscii {c : Char} (h : isAscii c = true) (hdelete : c ≠ '\x7f') :
    isPlain c = true := by
  unfold isAscii at h
  unfold isPlain
  have hne : c.toNat ≠ 0x7f := fun hsame => hdelete (Char.toNat_inj.mp hsame)
  simp only [decide_eq_true_eq] at h ⊢
  omega

/-- In ASCII, control characters are left out and nothing else is. -/
theorem spell_of_isAscii {s : List Char} (h : ∀ c ∈ s, isAscii c = true) :
    spell s = s.filter (!isControl ·) := by
  induction s with
  | nil => rfl
  | cons c s ih =>
    have hfit (next : Option (List Char)) : fitSpelling (spelling c) next = spelling c := by
      unfold fitSpelling
      rw [if_neg]
      unfold spelling
      split
      · simp
      · rw [if_pos (h c List.mem_cons_self)]
        simp
    rw [spell, hfit, ih fun d hd => h d (List.mem_cons_of_mem c hd), List.filter_cons]
    unfold spelling
    cases hc : isControl c with
    | true => rfl
    | false =>
      rw [if_neg Bool.false_ne_true, if_pos (h c List.mem_cons_self)]
      rfl

theorem mem_of_mem_plain {s : List Char} (h : ∀ c ∈ s, isAscii c = true) {c : Char}
    (hc : c ∈ plain s) : c ∈ s := by
  unfold plain at hc
  rcases List.mem_append.mp hc with hfront | hback
  · exact ( List.takeWhile_prefix isPlain).subset hfront
  · have hsuffix := (List.dropWhile_suffix isPlain (l := s)).subset
    rw [spell_of_isAscii fun d hd => h d (hsuffix hd)] at hback
    exact hsuffix (List.mem_filter.mp hback).1

/-- Behind a delete character the line ends are lost. -/
theorem plain_append_of_delete {s t : List Char} (hs : ∀ c ∈ s, isAscii c = true)
    (ht : ∀ c ∈ t, isAscii c = true) (hdelete : '\x7f' ∈ s) :
    plain (s ++ t) = plain s ++ t.filter (!isControl ·) := by
  have hdrop : s.dropWhile isPlain ≠ [] := by
    intro hnil
    exact absurd (List.dropWhile_eq_nil_iff.mp hnil _ hdelete) (by decide)
  have hback : ∀ c ∈ s.dropWhile isPlain, isAscii c = true :=
    fun c hc => hs c ((List.dropWhile_suffix _).subset hc)
  -- the plain letters in front end before `t` does begin
  have htake : (s ++ t).takeWhile isPlain = s.takeWhile isPlain := by
    rw [List.takeWhile_append, if_neg]
    intro hlength
    apply hdrop
    have hsplit := congrArg List.length (List.takeWhile_append_dropWhile (p := isPlain) (l := s))
    rw [List.length_append] at hsplit
    exact List.eq_nil_of_length_eq_zero (by omega)
  have hrest : (s ++ t).dropWhile isPlain = s.dropWhile isPlain ++ t := by
    rw [List.dropWhile_append, if_neg (by simpa using hdrop)]
  unfold plain
  rw [htake, hrest, spell_of_isAscii, List.filter_append, ← spell_of_isAscii hback, List.append_assoc]
  intro c hc
  rcases List.mem_append.mp hc with hc | hc
  · exact hback c hc
  · exact ht c hc

/-! ## Replacing -/

/-- A text does not go on with a mark over a character that the mark does not have. -/
theorem isSome_after?_append {mark : List Char} {c : Char} (hmark : c ∉ mark) (s t : List Char) :
    (after? mark (s ++ c :: t)).isSome = (after? mark s).isSome := by
  induction mark generalizing s with
  | nil => rfl
  | cons a mark ih =>
    rw [List.mem_cons, not_or] at hmark
    cases s with
    | nil =>
      show (if a == c then after? mark t else none).isSome = false
      rw [if_neg (by simpa using Ne.symm hmark.1)]
      rfl
    | cons b s =>
      rw [List.cons_append, after?, after?]
      split
      · exact ih hmark.2 s
      · rfl

theorem length_le_of_after? {mark s : List Char} (h : (after? mark s).isSome = true) :
    mark.length ≤ s.length := by
  obtain ⟨rest, hrest⟩ := Option.isSome_iff_exists.mp h
  rw [eq_append_of_after? hrest]
  simp

/-- A mark is replaced before and behind a character that it does not have. -/
theorem replaceFrom_append {mark new : List Char} {c : Char} (hmark : c ∉ mark) (hne : mark ≠ [])
    (t : List Char) {inside : Nat} {s : List Char} (hinside : inside ≤ s.length) :
    replaceFrom mark new inside (s ++ c :: t) =
      replaceFrom mark new inside s ++ c :: replaceFrom mark new 0 t := by
  -- along the text in front; an occurrence that has begun there ends there
  induction s generalizing inside with
  | nil =>
    obtain rfl := Nat.le_zero.mp hinside
    have hnone : (after? mark (c :: t)).isSome = false := by
      have hsame := isSome_after?_append hmark [] t
      rw [List.nil_append] at hsame
      rw [hsame]
      cases mark with
      | nil => exact absurd rfl hne
      | cons a mark => rfl
    show replaceFrom mark new 0 (c :: t) = c :: replaceFrom mark new 0 t
    rw [replaceFrom, if_neg (Bool.eq_false_iff.mp hnone)]
  | cons d s ih =>
    cases inside with
    | succ inside =>
      rw [List.cons_append, replaceFrom, replaceFrom]
      exact ih (Nat.le_of_succ_le_succ hinside)
    | zero =>
      rw [List.cons_append, replaceFrom, replaceFrom, ← List.cons_append,
        isSome_after?_append hmark (d :: s) t]
      split
      · rename_i hthere
        have hlength := length_le_of_after? hthere
        rw [List.length_cons] at hlength
        rw [ih (by omega), List.append_assoc]
      · rw [ih (Nat.zero_le _), List.cons_append]

theorem replace_append {mark : List Char} {c : Char} (hmark : c ∉ mark) (hne : mark ≠ [])
    (new s t : List Char) :
    replace mark new (s ++ c :: t) = replace mark new s ++ c :: replace mark new t := by
  unfold replace
  rw [if_neg (by simpa using hne), if_neg (by simpa using hne), if_neg (by simpa using hne)]
  exact replaceFrom_append hmark hne t (Nat.zero_le _)

/-- The first character that is not a blank stays, or a mark in its place has been replaced. -/
theorem find?_replace {mark new : List Char}
    (hne : mark ≠ []) {first : Char} (hnew : new.head? = some first)
    (hfirst : isBlank first = false) (s : List Char) :
    (replace mark new s).find? (!isBlank ·) = s.find? (!isBlank ·) ∨
      (replace mark new s).find? (!isBlank ·) = some first := by
  unfold replace
  rw [if_neg (by simpa using hne)]
  induction s with
  | nil => exact .inl rfl
  | cons c s ih =>
    rw [replaceFrom]
    split
    · obtain ⟨rest, rfl⟩ := List.head?_eq_some_iff.mp hnew
      exact .inr (List.find?_cons_of_pos (by simp [hfirst]))
    · rw [List.find?_cons, List.find?_cons]
      split
      · exact .inl rfl
      · exact ih

end Text

namespace Sentence

open Text

/-! ## Normal text -/

/-- Somewhere in the text a parenthesis is opened and, at whatever distance, one is closed. -/
def HasReminder (s : List Char) : Prop := List.Sublist ['(', ')'] s

theorem dropReminders_eq_self {s : List Char} (h : ¬HasReminder s) : dropReminders s = s := by
  -- blanks are held back until it is known whether a reminder follows them
  have hgap (gap : List Char) : dropRemindersFrom false gap s = gap.reverse ++ s := by
    induction s generalizing gap with
    | nil => rw [dropRemindersFrom, List.append_nil]
    | cons c s ih =>
      have hrest : ¬HasReminder s := fun hs => h (hs.cons c)
      rw [dropRemindersFrom]
      split
      · rw [ih hrest, List.reverse_cons, List.append_assoc, List.singleton_append]
      · rw [if_neg, ih hrest]
        · rfl
        · rintro ⟨rfl, hclosed⟩
          exact h (List.Sublist.cons_cons '(' (List.singleton_sublist.mpr (by simpa using hclosed)))
  exact hgap []

theorem dropReminders_of_notMem {s : List Char} (h : '(' ∉ s) : dropReminders s = s :=
  dropReminders_eq_self fun hpair => h (hpair.subset List.mem_cons_self)

/-- A text in which the marks of a card's own name are replaced. -/
def unmarked (s : List Char) : List Char :=
  Text.replace ['~'] self (Text.replace "CARDNAME".toList self s)

theorem unmarked_append (s t : List Char) :
    unmarked (s ++ '\n' :: t) = unmarked s ++ '\n' :: unmarked t := by
  unfold unmarked
  rw [replace_append (by decide) (by decide), replace_append (by decide) (by decide)]

theorem find?_unmarked (s : List Char) :
    (unmarked s).find? (!isBlank ·) = s.find? (!isBlank ·) ∨
      (unmarked s).find? (!isBlank ·) = some 't' := by
  have hself : self.head? = some 't' := rfl
  unfold unmarked
  -- both marks are replaced by the same words, so the letter they leave in front is the same too
  rcases @find?_replace ['~'] self (by decide) 't' hself (by decide)
    (Text.replace "CARDNAME".toList self s) with hsame | hself'
  · rw [hsame]
    exact find?_replace (by decide) hself (by decide) s
  · exact .inr hself'

theorem mem_of_mem_squeeze {c : Char} {s : List Char} (h : c ∈ squeeze s) : c ∈ s ∨ c = ' ' := by
  induction s with
  | nil => simp [squeeze] at h
  | cons d s ih =>
    rw [squeeze] at h
    split at h
    · split at h
      · rcases ih h with hs | hspace
        · exact .inl (List.mem_cons_of_mem d hs)
        · exact .inr hspace
      · rcases List.mem_cons.mp h with hspace | hrest
        · exact .inr hspace
        · rcases ih hrest with hs | hspace
          · exact .inl (List.mem_cons_of_mem d hs)
          · exact .inr hspace
    · rcases List.mem_cons.mp h with rfl | hrest
      · exact .inl List.mem_cons_self
      · rcases ih hrest with hs | hspace
        · exact .inl (List.mem_cons_of_mem d hs)
        · exact .inr hspace

/-- Squeezing a line keeps its first character that is not a blank. -/
theorem find?_squeeze (s : List Char) :
    (squeeze s).find? (!isBlank ·) = s.find? (!isBlank ·) := by
  induction s with
  | nil => rfl
  | cons c s ih =>
    rw [squeeze]
    split
    · rename_i hspace
      have hblank : isBlank c = true := by
        rcases hspace with rfl | rfl
        · rfl
        · rfl
      rw [List.find?_cons_of_neg (by simp [hblank])]
      split
      · exact ih
      · rw [List.find?_cons_of_neg (by decide)]
        exact ih
    · rw [List.find?_cons, List.find?_cons, ih]

/-- A text with its lines trimmed, and without rows of spaces in them. -/
def tidy (s : List Char) : List Char := joinWith ['\n'] ((lines s).map fun line => squeeze (trim line))

theorem feed_notMem_squeeze_trim {s line : List Char} (h : line ∈ lines s) : '\n' ∉ squeeze (trim line) := by
  intro hmem
  rcases mem_of_mem_squeeze hmem with htrim | hspace
  · exact feed_notMem_lines h (mem_of_mem_trim htrim)
  · exact absurd hspace (by decide)

theorem nonBlank_lines_tidy (s : List Char) :
    nonBlank (lines (tidy s)) = nonBlank ((lines s).map fun line => squeeze (trim line)) := by
  apply nonBlank_lines_joinWith
  intro part hpart
  obtain ⟨line, hline, rfl⟩ := List.mem_map.mp hpart
  exact feed_notMem_squeeze_trim hline

/-- What is left of the lines of a text once it is made plain. -/
theorem nonBlank_normalize {text : List Char} (h : '(' ∉ plain text) :
    nonBlank (lines (normalize text none)) =
      nonBlank ((lines (unmarked (plain text))).map fun line => squeeze (trim line)) := by
  have hnormal : normalize text none = tidy (unmarked (dropReminders (plain text))) := rfl
  rw [hnormal, nonBlank_lines_tidy, dropReminders_of_notMem h]

/-- The blank lines may as well be left out before. -/
theorem nonBlank_map_squeeze (parts : List (List Char)) :
    nonBlank (parts.map fun line => squeeze (trim line)) = nonBlank ((nonBlank parts).map squeeze) := by
  induction parts with
  | nil => rfl
  | cons line rest ih =>
    unfold nonBlank at ih ⊢
    rw [List.map_cons, List.map_cons, List.map_cons, List.filter_cons, List.filter_cons, ih]
    cases htrim : trim line with
    | nil => rfl
    | cons c more =>
      have hkept : (!(c :: more).isEmpty) = true := rfl
      rw [if_pos hkept, List.map_cons, List.map_cons, List.filter_cons]

/-- Texts with a line end between them are made plain one by one, as long as the line end is there. -/
theorem nonBlank_normalize_append {first second : List Char}
    (hfirst : ∀ c ∈ first, isPlain c = true) (hopen : '(' ∉ first) (hopen' : '(' ∉ plain second) :
    nonBlank (lines (normalize (first ++ '\n' :: second) none)) =
      nonBlank (lines (normalize first none)) ++ nonBlank (lines (normalize second none)) := by
  have hfeed : plain (first ++ '\n' :: second) = first ++ '\n' :: plain second := by
    have hjoint : ∀ c ∈ first ++ ['\n'], isPlain c = true := by
      intro c hc
      rcases List.mem_append.mp hc with hc | hc
      · exact hfirst c hc
      · rw [List.mem_singleton.mp hc]
        rfl
    have hplain := plain_append_of_isPlain hjoint second
    rw [List.append_assoc, List.append_assoc, List.singleton_append, List.singleton_append] at hplain
    exact hplain
  have hself : plain first = first := plain_of_isPlain hfirst
  have hboth : '(' ∉ first ++ '\n' :: plain second := by
    rw [List.mem_append, List.mem_cons, not_or, not_or]
    exact ⟨hopen, by decide, hopen'⟩
  rw [nonBlank_normalize (hfeed ▸ hboth), hfeed, unmarked_append, nonBlank_map_squeeze,
    nonBlank_lines_append, nonBlank_normalize (hself.symm ▸ hopen), hself, nonBlank_map_squeeze,
    nonBlank_normalize hopen', nonBlank_map_squeeze]
  unfold nonBlank
  simp only [List.map_append, List.filter_append]

/-- The first line that is not blank starts with the letter it started with before the text was made
plain, or with one that stands for a mark of the card's name. -/
theorem head?_normalize {text : List Char} (h : '(' ∉ plain text) :
    (nonBlank (lines (normalize text none))).head?.bind List.head? =
        (plain text).find? (!isBlank ·) ∨
      (nonBlank (lines (normalize text none))).head?.bind List.head? = some 't' := by
  have hsame (parts : List (List Char)) :
      (parts.map fun line => squeeze (trim line)).flatten.find? (!isBlank ·) =
        parts.flatten.find? (!isBlank ·) := by
    induction parts with
    | nil => rfl
    | cons part parts ih =>
      rw [List.map_cons, List.flatten_cons, List.flatten_cons, List.find?_append, List.find?_append,
        ih, find?_squeeze, find?_trim]
  rw [nonBlank_normalize h, head?_nonBlank, hsame, ← head?_nonBlank, head?_nonBlank_lines]
  exact find?_unmarked (plain text)

end Sentence

end CardRules
