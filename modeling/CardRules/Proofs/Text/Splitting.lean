import CardRules.Proofs.Text.Lines
import CardRules.Proofs.Text.Pieces
import CardRules.Proofs.Text.Sentence
import Mathlib.Data.List.Induction

/-!
# Nothing is lost between sentences

Cutting a text into sentences takes away its blanks at the ends of sentences and the periods that end
them. Which periods these are can be said of the text itself: those outside of braces, where the depth of
braces is counted from the start of each line (`atDepth`). The sentences of a text without a choice of modes
hold all the rest in order, and none of these periods.

A choice of modes is one sentence. It holds the line that announces it and then the modes, each behind what
separates it from the ones before (`Lists`); the lines around the choice are cut without it
(`splitting_conserves`).
-/

set_option autoImplicit false

namespace CardRules

namespace Text

/-! ## Blanks -/

/-- A text without its blanks. -/
def letters (s : List Char) : List Char := s.filter (!isBlank ·)

theorem letters_append (s t : List Char) : letters (s ++ t) = letters s ++ letters t := List.filter_append ..

theorem letters_eq_nil {s : List Char} (h : ∀ c ∈ s, isBlank c = true) : letters s = [] := by
  rw [letters, List.filter_eq_nil_iff]
  intro c hc
  simp [h c hc]

theorem trim_trim (s : List Char) : trim (trim s) = trim s := by
  apply trim_eq_self
  · intro c hc
    rw [Option.mem_def, head?_trim] at hc
    simpa using List.find?_some hc
  · exact getLast?_dropBack

theorem letters_trim (s : List Char) : letters (trim s) = letters s := by
  obtain ⟨front, back, hsplit, hfront, hback⟩ := trim_split s
  conv_rhs => rw [hsplit, letters_append, letters_append, letters_eq_nil hfront, letters_eq_nil hback,
    List.nil_append, List.append_nil]

theorem letters_nonBlank (parts : List (List Char)) :
    letters (nonBlank parts).flatten = letters parts.flatten := by
  induction parts with
  | nil => rfl
  | cons part parts ih =>
    unfold nonBlank at ih ⊢
    rw [List.map_cons, List.filter_cons, List.flatten_cons, letters_append, ← ih, ← letters_trim part]
    cases trim part with
    | nil => rfl
    | cons c rest => rw [← letters_append]; rfl

theorem trim_of_mem_nonBlank {parts : List (List Char)} {line : List Char} (h : line ∈ nonBlank parts) :
    ∃ part ∈ parts, trim part = line :=
  List.mem_map.mp (List.mem_filter.mp h).1

end Text

namespace Sentence

open Text

/-! ## Depth of braces -/

/-- The depth of braces behind a character. A brace that closes nothing does not count, and each line
starts afresh. -/
def depthAfter (depth : Nat) (c : Char) : Nat :=
  if c = '{' then depth + 1 else if c = '}' then depth - 1 else if c = '\n' then 0 else depth

/-- The characters of a text, each with the depth of braces at which it stands. -/
def atDepth : (depth : Nat) → List Char → List (Char × Nat)
  | _, [] => []
  | depth, c :: s => (c, depth) :: atDepth (depthAfter depth c) s

/-- A period outside of braces. -/
def outerPeriod : Char × Nat := ('.', 0)

/-- What is left of a text without its blanks and its periods outside of braces. -/
def unstopped (depth : Nat) (s : List Char) : List Char :=
  ((atDepth depth s).filter fun place => !isBlank place.1 && place != outerPeriod).map (·.1)

theorem atDepth_append (depth : Nat) (s t : List Char) :
    atDepth depth (s ++ t) = atDepth depth s ++ atDepth (s.foldl depthAfter depth) t := by
  induction s generalizing depth with
  | nil => rfl
  | cons c s ih => rw [List.cons_append, atDepth, atDepth, ih, List.foldl_cons, List.cons_append]

theorem unstopped_append (depth : Nat) (s t : List Char) :
    unstopped depth (s ++ t) = unstopped depth s ++ unstopped (s.foldl depthAfter depth) t := by
  unfold unstopped
  rw [atDepth_append, List.filter_append, List.map_append]

theorem unstopped_cons (depth : Nat) (c : Char) (s : List Char) :
    unstopped depth (c :: s) =
      (if c = '.' ∧ depth = 0 then [] else letters [c]) ++ unstopped (depthAfter depth c) s := by
  unfold unstopped
  rw [atDepth, List.filter_cons]
  by_cases hstop : c = '.' ∧ depth = 0
  · obtain ⟨rfl, rfl⟩ := hstop
    rfl
  · have hinner : ((c, depth) != outerPeriod) = true :=
      bne_iff_ne.mpr fun hsame => hstop (Prod.mk.inj hsame)
    rw [if_neg hstop, hinner, Bool.and_true, letters, List.filter_singleton]
    cases isBlank c with
    | true => rfl
    | false => rfl

theorem unstopped_eq_nil {s : List Char} (h : ∀ c ∈ s, isBlank c = true) (depth : Nat) :
    unstopped depth s = [] := by
  induction s generalizing depth with
  | nil => rfl
  | cons c s ih =>
    rw [unstopped_cons, ih fun d hd => h d (List.mem_cons_of_mem c hd), letters_eq_nil, ite_self,
      List.append_nil]
    intro d hd
    rw [List.mem_singleton.mp hd]
    exact h c List.mem_cons_self

/-- Blanks at the front of a line open no brace. -/
theorem foldl_depthAfter_of_blank {s : List Char} (h : ∀ c ∈ s, isBlank c = true) :
    s.foldl depthAfter 0 = 0 := by
  induction s with
  | nil => rfl
  | cons c s ih =>
    have hc : c ≠ '{' := by
      rintro rfl
      exact absurd (h _ List.mem_cons_self) (by decide)
    have hdepth : depthAfter 0 c = 0 := by
      unfold depthAfter
      rw [if_neg hc]
      split
      · rfl
      · split
        · rfl
        · rfl
    rw [List.foldl_cons, hdepth]
    exact ih fun d hd => h d (List.mem_cons_of_mem c hd)

theorem unstopped_trim (s : List Char) : unstopped 0 (trim s) = unstopped 0 s := by
  obtain ⟨front, back, hsplit, hfront, hback⟩ := trim_split s
  conv_rhs => rw [hsplit, unstopped_append, unstopped_append, unstopped_eq_nil hfront,
    unstopped_eq_nil hback, foldl_depthAfter_of_blank hfront, List.nil_append, List.append_nil]

/-- What is left of a text is what is left of its lines. -/
theorem unstopped_eq_flatMap {s part : List Char} {parts : List (List Char)}
    (h : s.splitOn '\n' = part :: parts) (depth : Nat) :
    unstopped depth s = unstopped depth part ++ parts.flatMap (unstopped 0) := by
  induction s generalizing part parts depth with
  | nil =>
    obtain ⟨rfl, rfl⟩ : [] = part ∧ [] = parts := by simpa using h
    rfl
  | cons c s ih =>
    obtain ⟨first, rest, hs⟩ := List.exists_cons_of_ne_nil (List.splitOnP_ne_nil (· == '\n') s)
    by_cases hfeed : c = '\n'
    · subst hfeed
      rw [splitOn_feed] at h
      obtain ⟨rfl, rfl⟩ := List.cons.inj h
      rw [unstopped_cons, ih hs, show s.splitOn '\n' = first :: rest from hs, List.flatMap_cons]
      rfl
    · rw [splitOn_cons_of_ne hfeed hs] at h
      obtain ⟨rfl, rfl⟩ := List.cons.inj h
      rw [unstopped_cons, unstopped_cons, ih hs, List.append_assoc]

/-- Blank lines count for nothing, nor do the blanks at the ends of the others. -/
theorem flatMap_unstopped_nonBlank (parts : List (List Char)) :
    (nonBlank parts).flatMap (unstopped 0) = parts.flatMap (unstopped 0) := by
  induction parts with
  | nil => rfl
  | cons part parts ih =>
    unfold nonBlank at ih ⊢
    rw [List.map_cons, List.filter_cons, List.flatMap_cons, ← ih, ← unstopped_trim part]
    cases trim part with
    | nil => rfl
    | cons c rest => rw [← List.flatMap_cons]; rfl

theorem flatMap_unstopped_lines (s : List Char) :
    (nonBlank (lines s)).flatMap (unstopped 0) = unstopped 0 s := by
  obtain ⟨first, rest, hs⟩ := List.exists_cons_of_ne_nil (List.splitOnP_ne_nil (· == '\n') s)
  have hs : s.splitOn '\n' = first :: rest := hs
  rw [nonBlank_lines, flatMap_unstopped_nonBlank, hs, unstopped_eq_flatMap hs, List.flatMap_cons]

/-! ## Cutting a line -/

variable {line : List Char}

/-- Within a line, cutting counts braces as they stand. -/
theorem depthAfter_of_ne {c : Char} (h : c ≠ '\n') (depth : Nat) :
    depthAfter depth c = if c = '{' then depth + 1 else if c = '}' then depth - 1 else depth := by
  rw [depthAfter, if_neg h]

theorem depthAfter_period (depth : Nat) : depthAfter depth '.' = depth := rfl

/-- The two ways a character of a line is read: a period outside of braces ends a sentence, and any other
character belongs to the one that has begun. -/
theorem cutFrom_cons {c : Char} (h : c ≠ '\n') (depth : Nat) (seen s : List Char) :
    cutFrom depth seen (c :: s) =
      if c = '.' ∧ depth = 0 then seen.reverse :: cutFrom 0 [] s
      else cutFrom (depthAfter depth c) (c :: seen) s := by
  rw [cutFrom, ← depthAfter_of_ne h]
  by_cases hperiod : c = '.'
  · subst hperiod
    rw [depthAfter_period]
    split
    · rename_i hstop
      rw [hstop.2]
    · rfl
  · rw [if_neg fun hstop => hperiod hstop.1, if_neg fun hstop => hperiod hstop.1]

theorem letters_cutFrom {s : List Char} (h : '\n' ∉ s) (depth : Nat) (seen : List Char) :
    letters (cutFrom depth seen s).flatten = letters seen.reverse ++ unstopped depth s := by
  induction s generalizing depth seen with
  | nil =>
    rw [cutFrom, List.flatten_singleton]
    exact (List.append_nil _).symm
  | cons c s ih =>
    rw [List.mem_cons, not_or] at h
    rw [cutFrom_cons (Ne.symm h.1), unstopped_cons]
    split
    · rename_i hstop
      rw [List.flatten_cons, letters_append, ih h.2, hstop.1, hstop.2]
      rfl
    · rw [ih h.2, List.reverse_cons, letters_append, List.append_assoc]

theorem letters_cutLine (h : '\n' ∉ line) : letters (cutLine line).flatten = unstopped 0 line := by
  have hcut : cutLine line = nonBlank (cutFrom 0 [] line) := rfl
  rw [hcut, letters_nonBlank, letters_cutFrom h]
  rfl

/-- Every piece of a line is without periods outside of braces, and without a line end. The depth counted
along the line is that of the piece that has begun, since pieces end outside of braces. -/
theorem whole_of_mem_cutFrom {s : List Char} (h : '\n' ∉ s) {depth : Nat} {seen : List Char}
    (hdepth : seen.reverse.foldl depthAfter 0 = depth) (hseen : '\n' ∉ seen)
    (hwhole : outerPeriod ∉ atDepth 0 seen.reverse) :
    ∀ piece ∈ cutFrom depth seen s, '\n' ∉ piece ∧ outerPeriod ∉ atDepth 0 piece := by
  have hfeed : '\n' ∉ seen.reverse := fun hmem => hseen (List.mem_reverse.mp hmem)
  induction s generalizing depth seen with
  | nil =>
    intro piece hpiece
    rw [cutFrom, List.mem_singleton] at hpiece
    subst hpiece
    exact ⟨hfeed, hwhole⟩
  | cons c s ih =>
    rw [List.mem_cons, not_or] at h
    rw [cutFrom_cons (Ne.symm h.1)]
    split
    · intro piece hpiece
      rcases List.mem_cons.mp hpiece with rfl | hrest
      · exact ⟨hfeed, hwhole⟩
      · exact ih h.2 rfl List.not_mem_nil List.not_mem_nil List.not_mem_nil piece hrest
    · rename_i hinner
      have hnext : '\n' ∉ c :: seen := by
        rw [List.mem_cons, not_or]
        exact ⟨h.1, hseen⟩
      apply ih h.2 _ hnext _ fun hmem => hnext (List.mem_reverse.mp hmem)
      · rw [List.reverse_cons, List.foldl_append, hdepth]
        rfl
      · rw [List.reverse_cons, atDepth_append, List.mem_append, hdepth]
        rintro (hmem | hmem)
        · exact hwhole hmem
        · obtain ⟨rfl, rfl⟩ := Prod.mk.inj (List.mem_singleton.mp hmem)
          exact hinner ⟨rfl, rfl⟩

/-- What every sentence is that is no choice of modes: it is trimmed, stands on one line, and is neither
empty nor has a period outside of braces. -/
structure IsWhole (sentence : List Char) : Prop where
  filled : sentence ≠ []
  trimmed : trim sentence = sentence
  oneLine : '\n' ∉ sentence
  unstopped : outerPeriod ∉ atDepth 0 sentence

theorem isWhole_of_mem_cutLine (h : '\n' ∉ line) {sentence : List Char} (hmem : sentence ∈ cutLine line) :
    IsWhole sentence := by
  have hfilled := ne_nil_of_mem_cutLine hmem
  obtain ⟨piece, hpiece, rfl⟩ := trim_of_mem_nonBlank (show sentence ∈ nonBlank (cutFrom 0 [] line) from hmem)
  obtain ⟨hfeed, hwhole⟩ :=
    whole_of_mem_cutFrom h rfl List.not_mem_nil List.not_mem_nil piece hpiece
  refine ⟨hfilled, trim_trim piece, fun hmem => hfeed (mem_of_mem_trim hmem), ?_⟩
  obtain ⟨front, back, hsplit, hfront, -⟩ := trim_split piece
  rw [hsplit, List.append_assoc, atDepth_append, atDepth_append, foldl_depthAfter_of_blank hfront] at hwhole
  exact fun hmem => hwhole (List.mem_append_right _ (List.mem_append_left _ hmem))

theorem cutLines_of_no_header {lines : List (List Char)}
    (h : ∀ line ∈ lines, isModalHeader line = false) : cutLines none lines = lines.flatMap cutLine := by
  induction lines with
  | nil => rfl
  | cons line lines ih =>
    rw [cutLines, h line List.mem_cons_self, if_neg Bool.false_ne_true,
      ih fun other hother => h other (List.mem_cons_of_mem line hother), List.flatMap_cons]

/-! ## Choices of modes -/

/-- A sentence that holds the line that announces a choice, without the periods at its end, and then some
modes in order, each without the marks in front and the periods at the end. Before each mode stands a
semicolon, or nothing but a space behind a dash. -/
inductive Lists (header : List Char) : List (List Char) → List Char → Prop where
  | header {start periods : List Char} (split : header = start ++ periods)
      (dropped : ∀ c ∈ periods, c = '.') (kept : ∀ c ∈ start.getLast?, c ≠ '.') : Lists header [] start
  | mode {bullets : List (List Char)} {block bullet marks text periods joint : List Char}
      (before : Lists header bullets block) (split : bullet = marks ++ text ++ periods)
      (marked : ∀ c ∈ marks, isBulletMark c = true ∨ c = ' ')
      (unmarked : ∀ c ∈ text.head?, ¬(isBulletMark c = true ∨ c = ' '))
      (dropped : ∀ c ∈ periods, c = '.') (kept : ∀ c ∈ text.getLast?, c ≠ '.')
      (joined : joint = if block.getLast? = some '-' then [' '] else [';', ' ']) :
      Lists header (bullets ++ [bullet]) (block ++ joint ++ text)

theorem dropPeriods_split (s : List Char) : ∃ periods, s = dropBack (· == '.') s ++ periods ∧
    (∀ c ∈ periods, c = '.') ∧ ∀ c ∈ (dropBack (· == '.') s).getLast?, c ≠ '.' := by
  obtain ⟨periods, hsplit, hperiods⟩ := dropBack_split (· == '.') s
  exact ⟨periods, hsplit, fun c hc => beq_iff_eq.mp (hperiods c hc),
    fun c hc => beq_eq_false_iff_ne.mp (getLast?_dropBack (p := (· == '.')) c hc)⟩

theorem Lists.addMode {header block : List Char} {bullets : List (List Char)}
    (h : Lists header bullets block) (bullet : List Char) :
    Lists header (bullets ++ [bullet]) (addMode block bullet) := by
  let isMark (c : Char) : Bool := isBulletMark c || c == ' '
  have hmark (c : Char) : isMark c = true ↔ isBulletMark c = true ∨ c = ' ' := by simp [isMark]
  obtain ⟨periods, hsplit, hperiods, hkept⟩ := dropPeriods_split (bullet.dropWhile isMark)
  have hwhole : bullet = bullet.takeWhile isMark ++ dropBack (· == '.') (bullet.dropWhile isMark) ++ periods := by
    rw [List.append_assoc, ← hsplit, List.takeWhile_append_dropWhile]
  refine .mode h hwhole ?_ ?_ hperiods hkept rfl
  · exact fun c hc => (hmark c).mp (List.all_eq_true.mp List.all_takeWhile c hc)
  · intro c hc
    have hfirst : (bullet.dropWhile isMark).head? = some c := by
      rw [hsplit, List.head?_append, show (dropBack (· == '.') (bullet.dropWhile isMark)).head? = some c from hc,
        Option.some_or]
    have hstops := List.head?_dropWhile_not isMark bullet
    rw [hfirst] at hstops
    rw [← hmark]
    exact Bool.eq_false_iff.mp hstops

theorem lists_foldl_addMode (header : List Char) (bullets : List (List Char)) :
    Lists header bullets (bullets.foldl Sentence.addMode (dropBack (· == '.') header)) := by
  induction bullets using List.reverseRecOn with
  | nil =>
    obtain ⟨periods, hsplit, hperiods, hkept⟩ := dropPeriods_split header
    exact .header hsplit hperiods hkept
  | append_singleton bullets bullet ih =>
    rw [List.foldl_append]
    exact ih.addMode bullet

theorem cutLines_bullets {bullets rest : List (List Char)} (h : ∀ bullet ∈ bullets, isBullet bullet = true)
    (block : List Char) :
    cutLines (some block) (bullets ++ rest) = cutLines (some (bullets.foldl addMode block)) rest := by
  induction bullets generalizing block with
  | nil => rfl
  | cons bullet bullets ih =>
    rw [List.cons_append, cutLines, if_pos (h bullet List.mem_cons_self), List.foldl_cons]
    exact ih (fun other hother => h other (List.mem_cons_of_mem bullet hother)) _

/-- A choice with all its modes is one sentence, between those of the lines before and behind it. -/
theorem cutLines_choice {header : List Char} {front bullets rest : List (List Char)}
    (hheader : isModalHeader header = true) (hbullets : ∀ bullet ∈ bullets, isBullet bullet = true)
    (hrest : rest.head?.any isBullet = false) :
    cutLines none (front ++ (header :: bullets ++ rest)) =
      cutLines none front ++ bullets.foldl addMode (dropBack (· == '.') header) :: cutLines none rest := by
  have hhead : (header :: bullets ++ rest).head?.any isBullet = false := isBullet_of_isModalHeader hheader
  have hclosed (block : List Char) : cutLines (some block) ([] ++ rest) = [block] ++ cutLines none rest :=
    cutLines_append hrest (some block)
  rw [cutLines_append hhead, List.cons_append, cutLines, if_pos hheader, cutLines_bullets hbullets]
  exact congrArg _ (hclosed _)

/-! ## Whole texts -/

/-- Splitting a text into sentences loses nothing. If no line announces a choice of modes, then all
sentences together hold what is left of the text without its blanks and its periods outside of braces; and
every sentence is trimmed, stands on one line, and is neither empty nor has such a period. Where a line
announces a choice, it and the modes below it make one sentence that lists them in order, and the lines
before and behind are split as if they stood alone. -/
theorem splitting_conserves (text : List Char) :
    ((∀ line ∈ lines text, isModalHeader (trim line) = false) →
      letters (split text).flatten = unstopped 0 text ∧ ∀ sentence ∈ split text, IsWhole sentence) ∧
    ∀ (front rest header : List Char) (bullets : List (List Char)),
      nonBlank (lines text) = nonBlank (lines front) ++ (header :: bullets ++ nonBlank (lines rest)) →
      isModalHeader header = true → (∀ bullet ∈ bullets, isBullet bullet = true) →
      (∀ line ∈ (nonBlank (lines rest)).head?, isBullet line = false) →
      ∃ block, Lists header bullets block ∧ split text = split front ++ block :: split rest := by
  constructor
  · intro hplain
    have hfeed : ∀ line ∈ nonBlank (lines text), '\n' ∉ line := by
      intro line hline
      obtain ⟨part, hpart, rfl⟩ := trim_of_mem_nonBlank hline
      exact fun hmem => feed_notMem_lines hpart (mem_of_mem_trim hmem)
    have hsplit : split text = (nonBlank (lines text)).flatMap cutLine := by
      apply cutLines_of_no_header
      intro line hline
      obtain ⟨part, hpart, rfl⟩ := trim_of_mem_nonBlank hline
      exact hplain part hpart
    rw [hsplit]
    constructor
    · rw [← flatMap_unstopped_lines]
      generalize nonBlank (lines text) = parts at hfeed
      induction parts with
      | nil => rfl
      | cons line parts ih =>
        rw [List.flatMap_cons, List.flatten_append, letters_append, List.flatMap_cons,
          letters_cutLine (hfeed line List.mem_cons_self),
          ih fun other hother => hfeed other (List.mem_cons_of_mem line hother)]
    · intro sentence hsentence
      obtain ⟨line, hline, hmem⟩ := List.mem_flatMap.mp hsentence
      exact isWhole_of_mem_cutLine (hfeed line hline) hmem
  · intro front rest header bullets hlines hheader hbullets hrest
    refine ⟨_, lists_foldl_addMode header bullets, ?_⟩
    have hclosed : (nonBlank (lines rest)).head?.any isBullet = false := by
      rw [Option.any_eq_false]
      simpa using hrest
    show cutLines none (nonBlank (lines text)) = _
    rw [hlines, cutLines_choice hheader hbullets hclosed]
    rfl

/-- Three costs with braces, one of which closes nothing, and periods inside and outside of them. -/
def braces : String := " \x7bT\x7d: Add \x7bG\x7d.  Haste..\n\x7d\x7b1\x7d\x7b.\x7d: Draw a card."

/-- Two lines with a choice of modes between them. -/
def charm : String := "Flying. Haste.\nChoose one --\n* Draw a card.\n\n- Gain 3 life..\nReach."

theorem splitting_conserves_charm :
    letters (split braces.toList).flatten = "\x7bT\x7d:Add\x7bG\x7dHaste\x7d\x7b1\x7d\x7b.\x7d:Drawacard".toList ∧
    (∀ sentence ∈ split braces.toList, IsWhole sentence) ∧
    ∃ block, Lists "Choose one --".toList ["* Draw a card.".toList, "- Gain 3 life..".toList] block ∧
      split charm.toList = split "Flying. Haste.".toList ++ block :: split "Reach.".toList := by
  obtain ⟨hletters, hwhole⟩ := (splitting_conserves braces.toList).1 (by decide +kernel)
  refine ⟨hletters.trans (by decide +kernel), hwhole, ?_⟩
  exact (splitting_conserves charm.toList).2 "Flying. Haste.".toList "Reach.".toList _ _ (by decide +kernel)
    (by decide +kernel) (by decide +kernel) (by decide +kernel)

end Sentence

end CardRules
