import CardRules.Ability.Reading
import CardRules.Proofs.Text.Normal
import CardRules.Proofs.Text.Replaced
import CardRules.Proofs.Text.Splitting

/-!
# Plain text is settled

Text is made plain in five steps: it is written in plain letters, loses its reminder text, its card's name
and the marks of that name become words, and its lines are trimmed and squeezed. No step brings back what an
earlier one has taken away (`IsSettled`), although each of them joins pieces of text that were apart before:
the words put in share no character with the marks, and lines are only put together at line ends.

Of plain letters no more is needed than that a text is written in some class of characters, and that text in
these characters stays as it is (`WritesIn`). Then settled text stays as it is, but for empty lines at its
end, which have no sentences (`normal_text_settles`).
-/

set_option autoImplicit false

open scoped List

namespace CardRules

/-! ## Plain letters -/

namespace Text

/-- A way to write any text in the characters of a class, which leaves texts in these characters as they
are. -/
structure WritesIn (p : Char → Bool) (fold : List Char → List Char) : Prop where
  yields (s : List Char) : ∀ c ∈ fold s, p c = true
  leaves {s : List Char} (h : ∀ c ∈ s, p c = true) : fold s = s

theorem isPlain_of_mem_spelling {c d : Char} (h : d ∈ spelling c) : isPlain d = true := by
  have htable : ∀ entry ∈ spellings, entry.2.toList.all isPlain = true := by decide +kernel
  rw [spelling] at h
  split at h
  · simp at h
  · rename_i hcontrol
    split at h
    · rename_i hascii
      rw [List.mem_singleton.mp h]
      refine isPlain_of_isAscii hascii ?_
      rintro rfl
      exact hcontrol rfl
    · cases hlookup : spellings.lookup c with
      | none =>
        rw [hlookup] at h
        exact forall_mem_of_all (P := fun d => isPlain d = true) (s := "[?]".toList) (by decide) d h
      | some spelled =>
        rw [hlookup] at h
        obtain ⟨front, back, htable', -⟩ := List.lookup_eq_some_iff.mp hlookup
        exact List.all_eq_true.mp (htable (c, spelled) (by rw [htable']; simp)) d h

theorem mem_of_mem_fitSpelling {s : List Char} {next : Option (List Char)} {c : Char}
    (h : c ∈ fitSpelling s next) : c ∈ s := by
  have hcases (short : Bool) (hmem : c ∈ if short then s.dropLast else s) : c ∈ s := by
    cases short with
    | true => exact List.mem_of_mem_dropLast hmem
    | false => exact hmem
  exact hcases _ h

theorem isPlain_of_mem_spell {s : List Char} {c : Char} (h : c ∈ spell s) : isPlain c = true := by
  induction s with
  | nil => simp [spell] at h
  | cons d s ih =>
    rw [spell] at h
    rcases List.mem_append.mp h with hfirst | hrest
    · exact isPlain_of_mem_spelling (mem_of_mem_fitSpelling hfirst)
    · exact ih hrest

theorem writesIn_plain : WritesIn isPlain plain where
  yields s c hc := by
    rcases List.mem_append.mp hc with hfront | hback
    · exact List.all_eq_true.mp List.all_takeWhile c hfront
    · exact isPlain_of_mem_spell hback
  leaves h := plain_of_isPlain h

end Text

namespace Sentence

open Text

variable {s : List Char}

/-! ## Parentheses -/

/-- The parentheses of a text. -/
def parens (s : List Char) : List Char := s.filter fun c => c == '(' || c == ')'

theorem hasReminder_of_parens {t : List Char} (h : parens s <+ parens t) (hs : HasReminder s) :
    HasReminder t := by
  have hpair : ['(', ')'] <+ parens s := List.Sublist.filter (fun c => c == '(' || c == ')') hs
  exact (hpair.trans h).trans List.filter_sublist

theorem parens_append (s t : List Char) : parens (s ++ t) = parens s ++ parens t := List.filter_append ..

theorem parens_eq_nil (h : ∀ c ∈ s, c ≠ '(' ∧ c ≠ ')') : parens s = [] := by
  rw [parens, List.filter_eq_nil_iff]
  intro c hc
  simp [h c hc]

theorem parens_of_blank (h : ∀ c ∈ s, isBlank c = true) : parens s = [] := by
  apply parens_eq_nil
  intro c hc
  have hblank := h c hc
  constructor
  · rintro rfl
    exact absurd hblank (by decide)
  · rintro rfl
    exact absurd hblank (by decide)

theorem parens_self : parens self = [] := by decide

theorem mem_of_mem_dropReminders {inside : Bool} {gap : List Char} {c : Char}
    (h : c ∈ dropRemindersFrom inside gap s) : c ∈ gap ∨ c ∈ s := by
  fun_induction dropRemindersFrom inside gap s with
  | case1 inside gap => exact .inl (List.mem_reverse.mp h)
  | case2 gap d s ih => exact (ih h).imp_right (List.mem_cons_of_mem d)
  | case3 gap d s hblank ih =>
    rcases ih h with hgap | hs
    · rcases List.mem_cons.mp hgap with rfl | hgap
      · exact .inr List.mem_cons_self
      · exact .inl hgap
    · exact .inr (List.mem_cons_of_mem d hs)
  | case4 gap d s hblank hopen ih =>
    rcases ih h with hgap | hs
    · exact absurd hgap List.not_mem_nil
    · exact .inr (List.mem_cons_of_mem d hs)
  | case5 gap d s hblank hopen ih =>
    rcases List.mem_append.mp h with hgap | hrest
    · exact .inl (List.mem_reverse.mp hgap)
    · rcases List.mem_cons.mp hrest with rfl | hrest
      · exact .inr List.mem_cons_self
      · rcases ih hrest with hgap | hs
        · exact absurd hgap List.not_mem_nil
        · exact .inr (List.mem_cons_of_mem d hs)

/-- Every parenthesis that is still open has none behind it that could close it. -/
theorem not_hasReminder_dropRemindersFrom {inside : Bool} {gap : List Char}
    (hgap : ∀ c ∈ gap, isBlank c = true) : ¬HasReminder (dropRemindersFrom inside gap s) := by
  have hreverse : ∀ {gap : List Char}, (∀ c ∈ gap, isBlank c = true) → parens gap.reverse = [] := by
    exact fun hgap => parens_of_blank fun c hc => hgap c (List.mem_reverse.mp hc)
  fun_induction dropRemindersFrom inside gap s with
  | case1 inside gap =>
    intro h
    have hnil : HasReminder [] := hasReminder_of_parens (by rw [hreverse hgap]; exact List.nil_sublist _) h
    exact absurd (List.sublist_nil.mp hnil) (by simp)
  | case2 gap d s ih => exact ih hgap
  | case3 gap d s hblank ih =>
    apply ih
    intro c hc
    rcases List.mem_cons.mp hc with rfl | hc
    · exact hblank
    · exact hgap c hc
  | case4 gap d s hblank hopen ih => exact ih fun c hc => absurd hc List.not_mem_nil
  | case5 gap d s hblank hopen ih =>
    intro h
    have hrest : HasReminder (d :: dropRemindersFrom false [] s) := by
      refine hasReminder_of_parens ?_ h
      rw [parens_append, hreverse hgap, List.nil_append]
    cases hrest with
    | cons _ hrest => exact ih (fun c hc => absurd hc List.not_mem_nil) hrest
    | cons_cons _ hclosed =>
      -- the parenthesis was kept, so nothing closes it
      rcases mem_of_mem_dropReminders (List.singleton_sublist.mp hclosed) with hgap | hs
      · exact absurd hgap List.not_mem_nil
      · exact hopen ⟨rfl, by simpa using hs⟩

theorem not_hasReminder_dropReminders (s : List Char) : ¬HasReminder (dropReminders s) :=
  not_hasReminder_dropRemindersFrom fun _ hc => absurd hc List.not_mem_nil

theorem parens_replaceFrom (mark : List Char) (inside : Nat) :
    parens (replaceFrom mark self inside s) <+ parens s := by
  have hskip (c : Char) (s : List Char) : parens s <+ parens (c :: s) :=
    List.Sublist.filter _ (List.sublist_cons_self c s)
  fun_induction replaceFrom mark self inside s with
  | case1 => exact List.Sublist.refl _
  | case2 inside c s ih => exact ih.trans (hskip c s)
  | case3 c s hfound ih =>
    rw [parens_append, parens_self, List.nil_append]
    exact ih.trans (hskip c s)
  | case4 c s hfound ih =>
    rw [← List.singleton_append, ← List.singleton_append (x := c) (l := s), parens_append, parens_append]
    exact List.Sublist.append_left ih _

theorem parens_replace (mark s : List Char) : parens (replace mark self s) <+ parens s := by
  rw [replace]
  split
  · -- the words stand between all the characters
    rw [parens_append, parens_self, List.nil_append]
    induction s with
    | nil => exact List.Sublist.refl _
    | cons c s ih =>
      rw [List.flatMap_cons, ← List.singleton_append, ← List.singleton_append (x := c) (l := s),
        parens_append, parens_append, parens_append, parens_self, List.append_nil]
      exact List.Sublist.append_left ih _
  · exact parens_replaceFrom mark 0

/-! ## Lines put in order -/

theorem letters_squeeze (s : List Char) : letters (squeeze s) = letters s := by
  fun_induction squeeze s with
  | case1 => rfl
  | case2 c s hgap hmore ih =>
    rw [ih]
    rcases hgap with rfl | rfl
    · rfl
    · rfl
  | case3 c s hgap hlast ih =>
    rcases hgap with rfl | rfl
    · exact ih
    · exact ih
  | case4 c s hgap ih =>
    rw [← List.singleton_append, ← List.singleton_append (x := c) (l := s), letters_append, letters_append, ih]

theorem letters_lines (s : List Char) : letters (lines s).flatten = letters s := by
  fun_induction lines s with
  | case1 => rfl
  | case2 rest ih => exact ih
  | case3 rest ih => exact ih
  | case4 c rest hfeed hreturn hnone ih =>
    rw [hnone] at ih
    have hsame : letters [c] = letters ([c] ++ rest) := by
      rw [letters_append, ← ih]
      exact (List.append_nil _).symm
    exact hsame
  | case5 c rest hfeed hreturn first more hsome ih =>
    rw [hsome] at ih
    rw [← List.singleton_append (x := c) (l := rest), letters_append, ← ih, ← letters_append]
    rfl

/-- Putting the lines of a text in order only changes its blanks. -/
theorem letters_tidy (s : List Char) : letters (tidy s) = letters s := by
  have hjoin (parts : List (List Char)) :
      letters (joinWith ['\n'] (parts.map fun line => squeeze (trim line))) = letters parts.flatten := by
    induction parts with
    | nil => rfl
    | cons first rest ih =>
      rw [List.flatten_cons, letters_append, ← ih]
      cases rest with
      | nil =>
        rw [List.map_singleton, joinWith, List.intercalate_singleton, letters_squeeze, letters_trim]
        exact (List.append_nil _).symm
      | cons second rest =>
        rw [List.map_cons, List.map_cons, joinWith, List.intercalate_cons_cons, ← joinWith, letters_append,
          letters_append, letters_squeeze, letters_trim]
        exact congrArg (· ++ _) (List.append_nil _)
  rw [tidy, hjoin, letters_lines]

theorem filter_tidy {p : Char → Bool} (h : ∀ c, p c = true → isBlank c = false) (s : List Char) :
    (tidy s).filter p = s.filter p := by
  have hletters (s : List Char) : (letters s).filter p = s.filter p := by
    rw [letters, List.filter_filter]
    refine List.filter_congr fun c _ => ?_
    rw [Bool.and_eq_left_iff_imp, Bool.not_eq_true']
    exact h c
  rw [← hletters, letters_tidy, hletters]

theorem parens_tidy (s : List Char) : parens (tidy s) = parens s := by
  refine filter_tidy (fun c hc => ?_) s
  rcases Bool.or_eq_true_iff.mp hc with hc | hc
  · rw [eq_of_beq hc]
    rfl
  · rw [eq_of_beq hc]
    rfl

/-! ## Spaces -/

theorem squeeze_ne_nil (h : s ≠ []) : squeeze s ≠ [] := by
  fun_induction squeeze s with
  | case1 => exact absurd rfl h
  | case2 c s hgap hmore ih =>
    apply ih
    rintro rfl
    simp at hmore
  | case3 c s hgap hlast ih => exact List.cons_ne_nil _ _
  | case4 c s hgap ih => exact List.cons_ne_nil _ _

theorem tab_notMem_squeeze (s : List Char) : '\t' ∉ squeeze s := by
  fun_induction squeeze s with
  | case1 => exact List.not_mem_nil
  | case2 c s hgap hmore ih => exact ih
  | case3 c s hgap hlast ih =>
    rw [List.mem_cons, not_or]
    exact ⟨by decide, ih⟩
  | case4 c s hgap ih =>
    rw [List.mem_cons, not_or]
    exact ⟨fun htab => hgap (.inr htab.symm), ih⟩

theorem head?_squeeze (h : (squeeze s).head? = some ' ') : s.head? = some ' ' ∨ s.head? = some '\t' := by
  rw [← or_self (s.head? = some ' ' ∨ s.head? = some '\t')]
  fun_induction squeeze s with
  | case1 => simp at h
  | case2 c s hgap hmore ih =>
    rcases hgap with rfl | rfl
    · simp
    · simp
  | case3 c s hgap hlast ih =>
    rcases hgap with rfl | rfl
    · simp
    · simp
  | case4 c s hgap ih => simp_all

theorem not_infix_spaces_squeeze (s : List Char) : ¬[' ', ' '] <:+: squeeze s := by
  fun_induction squeeze s with
  | case1 => simp
  | case2 c s hgap hmore ih => exact ih
  | case3 c s hgap hlast ih =>
    intro h
    rcases List.infix_cons_iff.mp h with hstart | hwithin
    · obtain ⟨rest, hrest⟩ := (List.cons_prefix_cons.mp hstart).2
      exact hlast (head?_squeeze (by rw [← hrest]; rfl))
    · exact ih hwithin
  | case4 c s hgap ih =>
    intro h
    rcases List.infix_cons_iff.mp h with hstart | hwithin
    · exact hgap (.inl (List.cons_prefix_cons.mp hstart).1.symm)
    · exact ih hwithin

theorem squeeze_eq_self (htab : '\t' ∉ s) (hgaps : ¬[' ', ' '] <:+: s) : squeeze s = s := by
  induction s with
  | nil => rfl
  | cons c s ih =>
    rw [List.mem_cons, not_or] at htab
    have hrest : squeeze s = s := ih htab.2 fun h => hgaps (List.infix_cons h)
    rw [squeeze]
    split
    · rename_i hgap
      obtain rfl : c = ' ' := hgap.resolve_right fun h => htab.1 h.symm
      rw [if_neg, hrest]
      rintro (hspace | hhead)
      · obtain ⟨rest, rfl⟩ := List.head?_eq_some_iff.mp hspace
        exact hgaps (List.IsPrefix.isInfix ⟨rest, rfl⟩)
      · exact htab.2 (List.mem_of_mem_head? hhead)
    · rw [hrest]

theorem head?_squeeze_of_gap (h : s.head? = some ' ' ∨ s.head? = some '\t') :
    (squeeze s).head? = some ' ' := by
  fun_induction squeeze s with
  | case1 => simp at h
  | case2 c s hgap hmore ih => exact ih hmore
  | case3 c s hgap hlast ih => rfl
  | case4 c s hgap ih => exact absurd (by simpa using h) hgap

theorem prefix_of_prefix_squeeze {part : List Char} (hspace : ' ' ∉ part) (h : part <+: squeeze s) :
    part <+: s := by
  induction s generalizing part with
  | nil => exact h
  | cons c s ih =>
    cases part with
    | nil => exact List.nil_prefix
    | cons d part =>
      rw [List.mem_cons, not_or] at hspace
      by_cases hgap : c = ' ' ∨ c = '\t'
      · have hhead := head?_squeeze_of_gap (s := c :: s) (by simpa using hgap)
        obtain ⟨rest, hrest⟩ := h
        rw [← hrest] at hhead
        exact absurd (Option.some.inj hhead).symm hspace.1
      · rw [squeeze, if_neg hgap, List.cons_prefix_cons] at h
        exact List.cons_prefix_cons.mpr ⟨h.1, ih hspace.2 h.2⟩

/-- Squeezing a text makes up no part of it, unless there is a space in it. -/
theorem infix_of_infix_squeeze {part : List Char} (hne : part ≠ []) (hspace : ' ' ∉ part)
    (h : part <:+: squeeze s) : part <:+: s := by
  fun_induction squeeze s with
  | case1 => exact h
  | case2 c s hgap hmore ih => exact List.infix_cons (ih h)
  | case3 c s hgap hlast ih =>
    have hsingle : ∀ c ∈ part, c ∉ [' '] := fun c hc hmem => hspace (List.mem_singleton.mp hmem ▸ hc)
    exact List.infix_cons (ih (infix_of_infix_append hne hsingle h))
  | case4 c s hgap ih =>
    rcases List.infix_cons_iff.mp h with hstart | hwithin
    · apply List.IsPrefix.isInfix
      apply prefix_of_prefix_squeeze hspace
      rwa [squeeze, if_neg hgap]
    · exact List.infix_cons (ih hwithin)

theorem isBlank_getLast?_squeeze (h : ∀ c ∈ s.getLast?, isBlank c = false) :
    ∀ c ∈ (squeeze s).getLast?, isBlank c = false := by
  have hlonger {c : Char} {s : List Char} (hne : s ≠ []) : (c :: s).getLast? = s.getLast? := by
    obtain ⟨d, rest, rfl⟩ := List.exists_cons_of_ne_nil hne
    exact List.getLast?_cons_cons
  fun_induction squeeze s with
  | case1 => simp
  | case2 c s hgap hmore ih =>
    have hne : s ≠ [] := by
      rintro rfl
      simp at hmore
    exact ih (hlonger hne ▸ h)
  | case3 c s hgap hlast ih =>
    by_cases hne : s = []
    · subst hne
      have hblank := h c rfl
      rcases hgap with rfl | rfl
      · exact absurd hblank (by decide)
      · exact absurd hblank (by decide)
    · rw [hlonger (squeeze_ne_nil hne)]
      exact ih (hlonger hne ▸ h)
  | case4 c s hgap ih =>
    by_cases hne : s = []
    · subst hne
      exact h
    · rw [hlonger (squeeze_ne_nil hne)]
      exact ih (hlonger hne ▸ h)

theorem trim_squeeze_trim (s : List Char) : trim (squeeze (trim s)) = squeeze (trim s) := by
  have hfirst := head?_trim s
  have hlast : ∀ c ∈ (trim s).getLast?, isBlank c = false := getLast?_dropBack
  refine trim_eq_self ?_ (isBlank_getLast?_squeeze hlast)
  cases htrim : trim s with
  | nil => simp [squeeze]
  | cons c rest =>
    rw [htrim] at hfirst
    have hc : isBlank c = false := by simpa using List.find?_some hfirst.symm
    have hgap : ¬(c = ' ' ∨ c = '\t') := by
      rintro (rfl | rfl)
      · exact absurd hc (by decide)
      · exact absurd hc (by decide)
    rw [squeeze, if_neg hgap]
    simpa using hc

/-! ## Settled text -/

/-- What text is once it has been made plain. -/
structure IsSettled (s : List Char) : Prop where
  noReminder : ¬HasReminder s
  noTilde : '~' ∉ s
  noCardName : ¬"CARDNAME".toList <:+: s
  noTab : '\t' ∉ s
  noGaps : ¬[' ', ' '] <:+: s
  trimmed : ∀ line ∈ lines s, trim line = line

theorem infix_of_infix_tidy {part : List Char} (hne : part ≠ []) (hspace : ' ' ∉ part) (hfeed : '\n' ∉ part)
    (h : part <:+: tidy s) : part <:+: s := by
  obtain ⟨tidied, hmem, hpart⟩ := infix_of_infix_joinWith hfeed hne h
  obtain ⟨line, hline, rfl⟩ := List.mem_map.mp hmem
  obtain ⟨front, back, hsplit, -, -⟩ := trim_split line
  have htrim : trim line <:+: line := ⟨front, back, hsplit.symm⟩
  exact ((infix_of_infix_squeeze hne hspace hpart).trans htrim).trans (infix_of_mem_lines.2 line hline)

theorem isSettled_tidy (hreminder : ¬HasReminder s) (htilde : '~' ∉ s)
    (hname : ¬"CARDNAME".toList <:+: s) : IsSettled (tidy s) where
  noReminder h := hreminder (hasReminder_of_parens (by rw [parens_tidy]) h)
  noTilde h := by
    have hsingle : ['~'] <:+: tidy s := (List.singleton_infix_iff _ _).mpr h
    exact htilde ((List.singleton_infix_iff _ _).mp
      (infix_of_infix_tidy (by decide) (by decide) (by decide) hsingle))
  noCardName h := hname (infix_of_infix_tidy (by decide) (by decide) (by decide) h)
  noTab h := by
    rcases mem_joinWith h with hfeed | ⟨tidied, hmem, htab⟩
    · exact absurd hfeed (by decide)
    · obtain ⟨line, -, rfl⟩ := List.mem_map.mp hmem
      exact tab_notMem_squeeze _ htab
  noGaps h := by
    obtain ⟨tidied, hmem, hgap⟩ := infix_of_infix_joinWith (by decide) (by decide) h
    obtain ⟨line, -, rfl⟩ := List.mem_map.mp hmem
    exact not_infix_spaces_squeeze _ hgap
  trimmed line hline := by
    have hmem : line ∈ (lines s).map fun line => squeeze (trim line) := by
      refine mem_of_mem_lines_joinWith ?_ ?_ hline
      · intro tidied htidied
        obtain ⟨line, hline, rfl⟩ := List.mem_map.mp htidied
        exact feed_notMem_squeeze_trim hline
      · intro tidied htidied hreturn
        obtain ⟨line, -, rfl⟩ := List.mem_map.mp htidied
        rw [← trim_squeeze_trim] at hreturn
        exact absurd (getLast?_dropBack _ hreturn) (by decide)
    obtain ⟨line, -, rfl⟩ := List.mem_map.mp hmem
    exact trim_squeeze_trim line

/-- Putting the lines of settled text in order changes none of them. -/
theorem IsSettled.nonBlank_lines_tidy (h : IsSettled s) : nonBlank (lines (tidy s)) = nonBlank (lines s) := by
  have hsame : ∀ line ∈ lines s, squeeze (trim line) = line := by
    intro line hline
    have hwithin := infix_of_mem_lines.2 line hline
    rw [h.trimmed line hline]
    exact squeeze_eq_self (fun htab => h.noTab (hwithin.subset htab)) fun hgap => h.noGaps (hgap.trans hwithin)
  rw [Sentence.nonBlank_lines_tidy, List.map_congr_left hsame, List.map_id']

/-! ## Making text plain -/

/-- A text in which a name is replaced, the name being made plain in some way. -/
def replaceNameBy (fold : List Char → List Char) (name : Option (List Char)) (s : List Char) : List Char :=
  match name with
  | none => s
  | some name => if (trim name).isEmpty then s else Text.replace (fold name) self s

/-- Rules text made plain, with some way to write it in plain letters. -/
def normalizeBy (fold : List Char → List Char) (text : List Char) (name : Option (List Char)) : List Char :=
  tidy (unmarked (replaceNameBy fold name (dropReminders (fold text))))

theorem normalize_eq (text : List Char) (name : Option (List Char)) :
    normalize text name = normalizeBy plain text name := rfl

theorem parens_unmarked (s : List Char) : parens (unmarked s) <+ parens s :=
  (parens_replace _ _).trans (parens_replace _ _)

theorem parens_replaceNameBy (fold : List Char → List Char) (name : Option (List Char)) (s : List Char) :
    parens (replaceNameBy fold name s) <+ parens s := by
  unfold replaceNameBy
  split
  · exact List.Sublist.refl _
  · split
    · exact List.Sublist.refl _
    · exact parens_replace _ _

theorem isSettled_normalizeBy (fold : List Char → List Char) (text : List Char)
    (name : Option (List Char)) : IsSettled (normalizeBy fold text name) := by
  apply isSettled_tidy
  · intro h
    have hparens := (parens_unmarked _).trans (parens_replaceNameBy fold name (dropReminders (fold text)))
    exact not_hasReminder_dropReminders _ (hasReminder_of_parens hparens h)
  · intro h
    exact not_infix_replace (by decide) (by decide) (forall_mem_of_all (by decide)) _
      ((List.singleton_infix_iff _ _).mpr h)
  · intro h
    have hbefore := infix_of_infix_replace (by decide) (by decide) (by decide)
      (forall_mem_of_all (by decide)) h
    exact not_infix_replace (by decide) (by decide) (forall_mem_of_all (by decide)) _ hbefore

theorem mem_tidy {c : Char} (h : c ∈ tidy s) : c ∈ s ∨ c = ' ' ∨ c = '\n' := by
  rcases mem_joinWith h with hfeed | ⟨tidied, hmem, hc⟩
  · exact .inr (.inr (List.mem_singleton.mp hfeed))
  · obtain ⟨line, hline, rfl⟩ := List.mem_map.mp hmem
    rcases mem_of_mem_squeeze hc with htrim | hspace
    · exact .inl ((infix_of_mem_lines.2 line hline).subset (mem_of_mem_trim htrim))
    · exact .inr (.inl hspace)

/-- Making text plain keeps to the characters of the plain letters. -/
theorem mem_normalizeBy {p : Char → Bool} {fold : List Char → List Char} (hfold : WritesIn p fold)
    (hself : ∀ c ∈ '\n' :: self, p c = true) {text : List Char} {c : Char}
    (h : c ∈ normalizeBy fold text none) : p c = true := by
  have hwords : ∀ c ∈ self, p c = true := fun c hc => hself c (List.mem_cons_of_mem _ hc)
  rcases mem_tidy h with hunmarked | rfl | rfl
  · rcases mem_replace hunmarked with hnamed | hwhole
    · rcases mem_replace hnamed with hdropped | hwhole
      · rcases mem_of_mem_dropReminders hdropped with hgap | hfolded
        · exact absurd hgap List.not_mem_nil
        · exact hfold.yields text c hfolded
      · exact hwords c hwhole
    · exact hwords c hwhole
  · exact hwords ' ' (by decide)
  · exact hself '\n' List.mem_cons_self

/-- Settled text in plain letters only has its lines put in order. -/
theorem IsSettled.normalizeBy_eq {p : Char → Bool} {fold : List Char → List Char} (hfold : WritesIn p fold)
    (hplain : ∀ c ∈ s, p c = true) (h : IsSettled s) : normalizeBy fold s none = tidy s := by
  have hname : replace "CARDNAME".toList self s = s := replace_eq_self (by decide) self h.noCardName
  have htilde : replace ['~'] self s = s :=
    replace_eq_self (by decide) self fun hwithin => h.noTilde ((List.singleton_infix_iff _ _).mp hwithin)
  have hunmarked : unmarked s = s := by
    unfold unmarked
    rw [hname, htilde]
  show tidy (unmarked (dropReminders (fold s))) = tidy s
  rw [hfold.leaves hplain, dropReminders_eq_self h.noReminder, hunmarked]

theorem split_normalizeBy_normalizeBy {p : Char → Bool} {fold : List Char → List Char}
    (hfold : WritesIn p fold) (hself : ∀ c ∈ '\n' :: self, p c = true) (text : List Char) :
    split (normalizeBy fold (normalizeBy fold text none) none) = split (normalizeBy fold text none) := by
  have hsettled := isSettled_normalizeBy fold text none
  rw [hsettled.normalizeBy_eq hfold fun c hc => mem_normalizeBy hfold hself hc]
  exact congrArg (cutLines none) hsettled.nonBlank_lines_tidy

/-- Plain text is settled. Whatever the text and the name, no parenthesis in it is opened and closed again,
it has neither mark of a name, no tab and no two spaces in a row, and its lines are trimmed. And made plain
once more it has the same sentences, so that the same is read from it. All of this holds for every way to
write text in plain letters, in ASCII for instance, as long as text in these letters stays as it is. -/
theorem normal_text_settles :
    (∀ (p : Char → Bool) (fold : List Char → List Char), WritesIn p fold →
      (∀ c ∈ '\n' :: self, p c = true) → ∀ text : List Char,
        (∀ name, IsSettled (normalizeBy fold text name)) ∧
        split (normalizeBy fold (normalizeBy fold text none) none) = split (normalizeBy fold text none)) ∧
    (∀ text : List Char, (∀ name, IsSettled (normalize text name)) ∧
      split (normalize (normalize text none) none) = split (normalize text none)) ∧
    ∀ (reader : AbilityReader) (text : String) (card : CardId),
      reader.read (String.ofList (normalize text.toList none)) none card = reader.read text none card := by
  have htwice (text : List Char) :
      split (normalize (normalize text none) none) = split (normalize text none) := by
    simp only [normalize_eq]
    exact split_normalizeBy_normalizeBy writesIn_plain (forall_mem_of_all (by decide)) text
  refine ⟨fun p fold hfold hself text => ?_, fun text => ?_, fun reader text card => ?_⟩
  · exact ⟨isSettled_normalizeBy fold text, split_normalizeBy_normalizeBy hfold hself text⟩
  · exact ⟨isSettled_normalizeBy plain text, htwice text⟩
  · unfold AbilityReader.read AbilityReader.readPlain
    rw [String.toList_ofList]
    exact congrArg (List.foldl _ _) (htwice text.toList)

/-- Text in which every step has something to do, and joins what then has to be kept apart. -/
def ragged : List Char := " \tCARD(a(b)NAME\t  ~ c) (\n\n\tBolt\r\n(\u2019s Bolt".toList

theorem normal_text_settles_ragged :
    let once := normalizeBy plain ragged (some "Bolt".toList)
    once = "this permanent this permanent c) (\n\nthis permanent\n('s this permanent".toList ∧ IsSettled once ∧
      split (normalize (normalize ragged none) none) = split (normalize ragged none) := by
  obtain ⟨hsettled, hsplit⟩ := normal_text_settles.1 isPlain plain writesIn_plain
    (forall_mem_of_all (by decide)) ragged
  exact ⟨by decide +kernel, hsettled (some "Bolt".toList), hsplit⟩

end Sentence

end CardRules
