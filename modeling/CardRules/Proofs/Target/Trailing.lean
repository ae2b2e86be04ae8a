import CardRules.Proofs.Text.Pieces
import CardRules.Target.Written
import Mathlib.Data.List.Infix

/-!
# What stands behind a target phrase

A target phrase is read up to its first noun, so what stands behind it hardly matters. Blanks, commas
and periods at its end can be dropped (`ofPhrase?_of_append_stops`). And whatever follows is passed
over, as long as it keeps apart from the last word of the phrase and does not make it one about
creatures or players (`Detached`, `ofPhrase?_append`); only "any target" has to stand alone.
-/

set_option autoImplicit false

namespace CardRules.Target

open Text

/-- A comma or a period, as words are freed of at their ends. -/
def isMark (c : Char) : Bool := c == ',' || c == '.'

/-- A character that can stand behind the last word of a phrase without changing it. -/
def isStop (c : Char) : Bool := isBlank c || isMark c

/-! ## The reading, part by part -/

/-- The count of a phrase, if it is an optional one, and the text after it. -/
def counted? (s : List Char) : Option (Option UInt8 × List Char) :=
  match after? "up to ".toList s with
  | some rest => (upTo? rest).map fun (n, rest) => (some n, rest)
  | none => some (none, s)

/-- Whether a text starts with a creature and a player. -/
def startsWithPair (s : List Char) : Bool :=
  (after? "creature or player".toList s).isSome || (after? "player or creature".toList s).isSome

/-- The target named behind the word "target". -/
def named? (count : Option UInt8) (s : List Char) : Option Target :=
  if startsWithPair s then some { kind := .creatureOrPlayer }
  else (firstNoun? s).bind fun kind =>
    match count with
    | some n => some { kind, count := n, required := false }
    | none => some { kind }

/-- The target a phrase in lower case names, without blanks at its ends. -/
def ofBare? (s : List Char) : Option Target :=
  if s = "any target".toList then some { kind := .any }
  else (counted? s).bind fun (count, rest) => (afterTarget? rest).bind (named? count)

theorem ofPhrase?_eq (s : List Char) : ofPhrase? s = ofBare? (lower (trim s)) := by
  unfold ofPhrase? ofBare? counted?
  dsimp only
  split
  · rfl
  · cases after? "up to ".toList (lower (trim s)) with
    | none => rfl
    | some rest => rfl

/-- Apart from "any target", a phrase is a count, the word "target" and what is named behind it. -/
theorem ofBare?_eq_some_iff {s : List Char} {target : Target} :
    ofBare? s = some target ↔ s = "any target".toList ∧ target = { kind := .any } ∨
      ∃ count rest name, counted? s = some (count, rest) ∧ afterTarget? rest = some name ∧
        named? count name = some target := by
  unfold ofBare?
  split
  · rename_i hany
    constructor
    · exact fun h => .inl ⟨hany, (Option.some.inj h).symm⟩
    · rintro (⟨-, rfl⟩ | ⟨count, rest, name, hcount, hname, -⟩)
      · rfl
      · obtain ⟨-, rfl⟩ : none = count ∧ s = rest := by simpa [hany, counted?, after?] using hcount
        simp [hany, afterTarget?, after?] at hname
  · rename_i hany
    rw [or_iff_right fun h => hany h.1]
    simp [Option.bind_eq_some_iff]

/-- Nothing is named by "any target" with something behind it. -/
theorem ofPhrase?_any_append {s t : List Char} (hs : lower s = "any target".toList)
    (ht : dropBack isBlank t ≠ []) : ofPhrase? (s ++ t) = none := by
  have htrim : trim s = s := by
    refine trim_eq_self (fun c hc => ?_) fun c hc => ?_
    · have hhead := congrArg List.head? hs
      rw [lower, List.head?_map, Option.mem_def.mp hc] at hhead
      rw [← isBlank_toLower, show c.toLower = 'a' from Option.some.inj hhead]
      rfl
    · have hlast := congrArg List.getLast? hs
      rw [lower, List.getLast?_map, Option.mem_def.mp hc] at hlast
      rw [← isBlank_toLower, show c.toLower = 't' from Option.some.inj hlast]
      rfl
  have hne : trim s ≠ [] := by
    rw [htrim]
    rintro rfl
    exact absurd hs (by decide)
  obtain ⟨blanks, -, hwhole⟩ := trim_append hne t
  rw [ofPhrase?_eq, hwhole, htrim, lower_append, hs, dropBack_append ht]
  have hmore : lower (blanks ++ dropBack isBlank t) ≠ [] := by simp [lower, ht]
  rw [ofBare?, if_neg fun hany => hmore (List.append_right_eq_self.mp hany)]
  rfl

/-! ## Stops -/

theorem isMark_toLower (c : Char) : isMark c.toLower = isMark c := by
  have hmark (mark : Char) (h : mark.toNat < 65) : (c.toLower == mark) = (c == mark) := by
    rw [Bool.eq_iff_iff, beq_iff_eq, beq_iff_eq]
    refine ⟨fun hc => eq_of_toLower hc (.inl (by omega)), ?_⟩
    rintro rfl
    rcases toLower_cases c with hsame | ⟨hlow, -, -⟩
    · exact hsame
    · omega
  unfold isMark
  rw [hmark ',' (by decide), hmark '.' (by decide)]

theorem isStop_toLower (c : Char) : isStop c.toLower = isStop c := by
  rw [isStop, isStop, isBlank_toLower, isMark_toLower]

/-! ## The first noun -/

theorem firstNoun?_append_blank {c : Char} (h : isBlank c = true) (s t : List Char) :
    firstNoun? (s ++ c :: t) = (firstNoun? s).or (firstNoun? t) := by
  rw [firstNoun?, words_append_blank h, List.findSome?_append]
  rfl

theorem firstNoun?_of_no_blank {word : List Char} (h : ∀ c ∈ word, isBlank c = false) :
    firstNoun? word = TargetKind.ofNoun? (bareWord word) := by
  cases hword : word with
  | nil => rfl
  | cons c rest =>
    rw [← hword, firstNoun?, words_eq_singleton (by simp [hword]) h, List.findSome?_singleton]

theorem not_isBlank_of_isMark {c : Char} (h : isMark c = true) : isBlank c = false := by
  rw [isMark, Bool.or_eq_true, beq_iff_eq, beq_iff_eq] at h
  rcases h with rfl | rfl
  · rfl
  · rfl

theorem bareWord_concat {c : Char} (h : isMark c = true) (word : List Char) :
    bareWord (word ++ [c]) = bareWord word := by
  refine dropBack_append_of_forall ?_ word
  intro d hd
  rwa [List.mem_singleton.mp hd]

/-- A stop at the end changes no noun. -/
theorem firstNoun?_concat {c : Char} (h : isStop c = true) (s : List Char) :
    firstNoun? (s ++ [c]) = firstNoun? s := by
  rw [isStop, Bool.or_eq_true] at h
  rcases h with hblank | hmark
  · rw [firstNoun?_append_blank hblank]
    exact Option.or_none
  -- a mark is one more character of the last word
  have hlast {word : List Char} (hword : ∀ c ∈ word, isBlank c = false) :
      firstNoun? (word ++ [c]) = firstNoun? word := by
    have hwhole : ∀ d ∈ word ++ [c], isBlank d = false := by
      intro d hd
      rcases List.mem_append.mp hd with hd | hd
      · exact hword d hd
      · rw [List.mem_singleton.mp hd]
        exact not_isBlank_of_isMark hmark
    rw [firstNoun?_of_no_blank hwhole, firstNoun?_of_no_blank hword, bareWord_concat hmark]
  obtain ⟨word, hsplit, hword⟩ := dropBack_split (!isBlank ·) s
  have hword : ∀ c ∈ word, isBlank c = false := by simpa using hword
  rcases List.eq_nil_or_concat (dropBack (!isBlank ·) s) with hfront | ⟨front, b, hfront⟩
  · rw [hsplit, hfront, List.nil_append]
    exact hlast hword
  · have hb : isBlank b = true := by
      simpa using getLast?_dropBack (p := (!isBlank ·)) (s := s) b (by simp [hfront])
    have hs : s = front ++ b :: word := by
      rw [hsplit, hfront]
      simp
    rw [hs, List.append_assoc, List.cons_append, firstNoun?_append_blank hb, firstNoun?_append_blank hb,
      hlast hword]

theorem firstNoun?_append_stops {stops : List Char} (h : ∀ c ∈ stops, isStop c = true)
    (s : List Char) : firstNoun? (s ++ stops) = firstNoun? s := by
  induction stops generalizing s with
  | nil => rw [List.append_nil]
  | cons c stops ih =>
    rw [List.forall_mem_cons] at h
    rw [← List.singleton_append, ← List.append_assoc, ih h.2, firstNoun?_concat h.1]

/-! ## Dropping stops -/

theorem afterTarget?_eq_some_iff {s rest : List Char} :
    afterTarget? s = some rest ↔ s = "target ".toList ++ rest ∨ s = "targets ".toList ++ rest := by
  unfold afterTarget?
  cases hone : after? "target ".toList s with
  | none =>
    have hnot : s ≠ "target ".toList ++ rest := by
      rintro rfl
      rw [after?_append] at hone
      simp at hone
    exact after?_eq_some_iff.trans (or_iff_right hnot).symm
  | some rest' =>
    obtain rfl := eq_append_of_after? hone
    simp

/-- One character less at the end of a text is one less at the end of its rest. -/
theorem concat_of_concat_eq {front s rest : List Char} {c : Char} (h : s ++ [c] = front ++ rest)
    (hne : rest ≠ []) : ∃ rest', rest = rest' ++ [c] ∧ s = front ++ rest' := by
  obtain hnil | ⟨rest', d, hrest⟩ := List.eq_nil_or_concat rest
  · exact absurd hnil hne
  · rw [List.concat_eq_append] at hrest
    rw [hrest, ← List.append_assoc] at h
    obtain ⟨hs, hc⟩ := List.append_inj' h rfl
    exact ⟨rest', by rw [hrest, List.singleton_inj.mp hc], hs⟩

/-- The count that a word names. -/
def countOf? (word : List Char) : Option UInt8 :=
  (Amount.ofText? word).bind fun n =>
    if 0 ≤ n.toInt ∧ n.toInt ≤ 255 then some (UInt8.ofNat n.toInt.toNat) else none

theorem upTo?_eq_some_iff {s rest : List Char} {n : UInt8} :
    upTo? s = some (n, rest) ↔ ∃ word, cut? [' '] s = some (word, rest) ∧ countOf? word = some n := by
  unfold upTo? countOf?
  cases cut? [' '] s with
  | none => simp
  | some parts =>
    obtain ⟨word, after⟩ := parts
    cases hamount : Amount.ofText? word with
    | none => simp [hamount]
    | some amount =>
      by_cases hrange : 0 ≤ amount.toInt ∧ amount.toInt ≤ 255
      · simp [hamount, hrange, and_comm]
      · simp [hamount, hrange]

theorem upTo?_append {s rest : List Char} {n : UInt8} (h : upTo? s = some (n, rest))
    (t : List Char) : upTo? (s ++ t) = some (n, rest ++ t) := by
  obtain ⟨word, hcut, hword⟩ := upTo?_eq_some_iff.mp h
  exact upTo?_eq_some_iff.mpr ⟨word, cut?_append hcut t, hword⟩

theorem upTo?_concat {s rest : List Char} {c : Char} {n : UInt8}
    (h : upTo? (s ++ [c]) = some (n, rest)) (hne : rest ≠ []) :
    ∃ rest', rest = rest' ++ [c] ∧ upTo? s = some (n, rest') := by
  obtain ⟨word, hcut, hword⟩ := upTo?_eq_some_iff.mp h
  obtain ⟨rest', rfl, hs⟩ := concat_of_concat_eq (eq_append_of_cut? hcut) hne
  exact ⟨rest', rfl, upTo?_eq_some_iff.mpr ⟨word, cut?_of_append hcut, hword⟩⟩

theorem counted?_concat {s rest : List Char} {c : Char} {count : Option UInt8}
    (h : counted? (s ++ [c]) = some (count, rest)) (hne : rest ≠ []) :
    ∃ rest', rest = rest' ++ [c] ∧ counted? s = some (count, rest') := by
  unfold counted? at h ⊢
  cases hup : after? "up to ".toList (s ++ [c]) with
  | none =>
    have hup' : after? "up to ".toList s = none := by
      cases hs : after? "up to ".toList s with
      | none => rfl
      | some after =>
        rw [eq_append_of_after? hs, List.append_assoc, after?_append] at hup
        simp at hup
    rw [hup] at h
    obtain ⟨rfl, rfl⟩ : none = count ∧ s ++ [c] = rest := by simpa using h
    exact ⟨s, rfl, by rw [hup']⟩
  | some after =>
    rw [hup] at h
    obtain ⟨⟨n, rest'⟩, hn, hcount⟩ := Option.map_eq_some_iff.mp h
    obtain ⟨rfl, rfl⟩ : some n = count ∧ rest' = rest := by simpa using hcount
    have hafter : after ≠ [] := by
      rintro rfl
      simp [upTo?, cut?] at hn
    obtain ⟨after', rfl, hs⟩ := concat_of_concat_eq (eq_append_of_after? hup) hafter
    obtain ⟨rest'', rfl, hn'⟩ := upTo?_concat hn hne
    refine ⟨rest'', rfl, ?_⟩
    rw [hs, after?_append]
    simp [hn']

theorem startsWithPair_concat {c : Char} (h : isStop c = true) (s : List Char) :
    startsWithPair (s ++ [c]) = startsWithPair s := by
  have hpair (phrase : List Char) (hlast : phrase.getLast?.any isStop = false) :
      (after? phrase (s ++ [c])).isSome = (after? phrase s).isSome := by
    rw [Bool.eq_iff_iff, isSome_after?_iff, isSome_after?_iff, List.prefix_concat_iff]
    refine or_iff_right ?_
    rintro rfl
    rw [List.getLast?_concat, Option.any_some, h] at hlast
    exact absurd hlast (by decide)
  unfold startsWithPair
  rw [hpair _ (by decide), hpair _ (by decide)]

theorem named?_concat {c : Char} (h : isStop c = true) (count : Option UInt8) (s : List Char) :
    named? count (s ++ [c]) = named? count s := by
  rw [named?, named?, startsWithPair_concat h, firstNoun?_concat h]

theorem named?_nil (count : Option UInt8) : named? count [] = none := rfl

/-- A stop at the end of a phrase can be dropped. -/
theorem ofBare?_concat {s : List Char} {c : Char} {target : Target} (hc : isStop c = true)
    (h : ofBare? (s ++ [c]) = some target) : ofBare? s = some target := by
  rcases ofBare?_eq_some_iff.mp h with ⟨hany, -⟩ | ⟨count, rest, name, hcount, hafter, hname⟩
  · have hlast := congrArg List.getLast? hany
    rw [List.getLast?_concat] at hlast
    rw [Option.some.inj hlast] at hc
    exact absurd hc (by decide)
  · have hne : name ≠ [] := by
      rintro rfl
      simp [named?_nil] at hname
    have hrest : rest ≠ [] := by
      rintro rfl
      simp [afterTarget?, after?] at hafter
    obtain ⟨rest', rfl, hcount'⟩ := counted?_concat hcount hrest
    have hafter' : ∃ name', name = name' ++ [c] ∧ afterTarget? rest' = some name' := by
      rcases afterTarget?_eq_some_iff.mp hafter with hone | hmany
      · obtain ⟨name', hname', hrest'⟩ := concat_of_concat_eq hone hne
        exact ⟨name', hname', afterTarget?_eq_some_iff.mpr (.inl hrest')⟩
      · obtain ⟨name', hname', hrest'⟩ := concat_of_concat_eq hmany hne
        exact ⟨name', hname', afterTarget?_eq_some_iff.mpr (.inr hrest')⟩
    obtain ⟨name', rfl, hafter'⟩ := hafter'
    rw [named?_concat hc] at hname
    exact ofBare?_eq_some_iff.mpr (.inr ⟨count, rest', name', hcount', hafter', hname⟩)

theorem ofBare?_of_append_stops {s stops : List Char} {target : Target}
    (hstops : ∀ c ∈ stops, isStop c = true) (h : ofBare? (s ++ stops) = some target) :
    ofBare? s = some target := by
  induction stops generalizing s with
  | nil => rwa [List.append_nil] at h
  | cons c stops ih =>
    rw [List.forall_mem_cons] at hstops
    rw [← List.singleton_append, ← List.append_assoc] at h
    exact ofBare?_concat hstops.1 (ih hstops.2 h)

/-- Stops at the end of a phrase can be dropped. -/
theorem ofPhrase?_of_append_stops {s stops : List Char} {target : Target}
    (hstops : ∀ c ∈ stops, isStop c = true) (h : ofPhrase? (s ++ stops) = some target) :
    ofPhrase? s = some target := by
  have hwhole : ∃ more, trim (s ++ stops) = trim s ++ more ∧ ∀ c ∈ more, isStop c = true := by
    by_cases hs : trim s = []
    · rw [trim_append_of_trim_eq_nil hs, hs]
      exact ⟨trim stops, rfl, fun c hc => hstops c (mem_of_mem_trim hc)⟩
    · obtain ⟨blanks, hblanks, htrim⟩ := trim_append hs stops
      refine ⟨_, htrim, fun c hc => ?_⟩
      rcases List.mem_append.mp (mem_of_mem_dropBack hc) with hblank | hstop
      · rw [isStop, hblanks c hblank, Bool.true_or]
      · exact hstops c hstop
  obtain ⟨more, htrim, hmore⟩ := hwhole
  rw [ofPhrase?_eq, htrim, lower, List.map_append] at h
  rw [ofPhrase?_eq]
  refine ofBare?_of_append_stops ?_ h
  intro c hc
  obtain ⟨d, hd, rfl⟩ := List.mem_map.mp hc
  rw [isStop_toLower]
  exact hmore d hd

/-! ## Text behind a phrase -/

/-- A text that keeps apart from a phrase in front of it. -/
structure Detached (tail : List Char) : Prop where
  /-- Behind commas and periods there is a blank, so that no word goes on. -/
  blank : ∀ c ∈ tail.find? (!isMark ·), isBlank c = true
  /-- A creature is not joined to a player, nor the reverse. -/
  other : ∀ c more, tail = ' ' :: c :: more → c ∉ ['o', 'p', 'c']

variable {tail : List Char}

theorem Detached.isStop_head? (h : Detached tail) : ∀ c ∈ tail.head?, isStop c = true := by
  intro c hc
  obtain ⟨more, rfl⟩ := List.head?_eq_some_iff.mp hc
  cases hmark : isMark c with
  | true => rw [isStop, hmark, Bool.or_true]
  | false => rw [isStop, h.blank c (List.find?_cons_of_pos (by simp [hmark])), Bool.true_or]

theorem firstNoun?_append {s : List Char} {kind : TargetKind} (h : firstNoun? s = some kind)
    (htail : Detached tail) : firstNoun? (s ++ tail) = some kind := by
  have hstops : ∀ c ∈ tail.takeWhile isMark, isStop c = true := by
    intro c hc
    rw [isStop, List.all_eq_true.mp List.all_takeWhile c hc, Bool.or_true]
  have hmarks := firstNoun?_append_stops hstops s
  rw [h] at hmarks
  rw [← List.takeWhile_append_dropWhile (p := isMark) (l := tail), ← List.append_assoc]
  cases hdrop : tail.dropWhile isMark with
  | nil => rw [List.append_nil, hmarks]
  | cons c more =>
    have hblank : isBlank c = true := by
      refine htail.blank c ?_
      rw [List.find?_eq_head?_dropWhile_not]
      simp [hdrop]
    rw [firstNoun?_append_blank hblank, hmarks, Option.some_or]

/-- The characters of a pair that could stand behind a phrase stand in front of its other half. -/
theorem startsWithPair_append {s : List Char} (h : startsWithPair s = false)
    (htail : Detached tail) : startsWithPair (s ++ tail) = false := by
  have hpair (phrase : List Char)
      (hphrase : ∀ back ∈ phrase.tails, back.head?.any isStop = true →
        back.head? = some ' ' ∧ back.tail.head?.any (· ∈ ['o', 'p', 'c']) = true)
      (hs : (after? phrase s).isSome = false) : (after? phrase (s ++ tail)).isSome = false := by
    rw [Bool.eq_false_iff, ne_eq, isSome_after?_iff] at hs ⊢
    intro hwhole
    rcases List.prefix_or_prefix_of_prefix hwhole (List.prefix_append s tail) with hshort | ⟨back, rfl⟩
    · exact hs hshort
    · have hback : back <+: tail := (List.prefix_append_right_inj s).mp hwhole
      have hmem : back ∈ (s ++ back).tails := (List.mem_tails _ _).mpr (List.suffix_append s back)
      cases back with
      | nil => exact hs (by simp)
      | cons c back =>
        obtain ⟨more, rfl⟩ := hback
        obtain ⟨hblank, hnext⟩ := hphrase _ hmem (htail.isStop_head? c rfl)
        obtain rfl := Option.some.inj hblank
        cases back with
        | nil => simp at hnext
        | cons d back => exact htail.other d (back ++ more) rfl (by simpa using hnext)
  unfold startsWithPair at h ⊢
  rw [Bool.or_eq_false_iff] at h
  rw [hpair _ (by decide) h.1, hpair _ (by decide) h.2, Bool.or_false]

theorem named?_append {s : List Char} {count : Option UInt8} {target : Target}
    (h : named? count s = some target) (htail : Detached tail) :
    named? count (s ++ tail) = some target := by
  unfold named? at h ⊢
  cases hpair : startsWithPair s with
  | true =>
    have hpair' : startsWithPair (s ++ tail) = true := by
      rw [startsWithPair, Bool.or_eq_true, isSome_after?_iff, isSome_after?_iff] at hpair ⊢
      exact hpair.imp (·.trans (List.prefix_append s tail)) (·.trans (List.prefix_append s tail))
    rw [hpair, if_pos rfl] at h
    rw [hpair', if_pos rfl, h]
  | false =>
    rw [hpair, if_neg Bool.false_ne_true] at h
    obtain ⟨kind, hkind, hmade⟩ := Option.bind_eq_some_iff.mp h
    rw [startsWithPair_append hpair htail, if_neg Bool.false_ne_true, firstNoun?_append hkind htail]
    exact hmade

theorem counted?_append {s rest name : List Char} {count : Option UInt8}
    (h : counted? s = some (count, rest)) (hname : afterTarget? rest = some name) (t : List Char) :
    counted? (s ++ t) = some (count, rest ++ t) := by
  unfold counted? at h ⊢
  cases hup : after? "up to ".toList s with
  | none =>
    rw [hup] at h
    obtain ⟨rfl, rfl⟩ : none = count ∧ s = rest := by simpa using h
    have hup' : after? "up to ".toList (s ++ t) = none := by
      rcases afterTarget?_eq_some_iff.mp hname with rfl | rfl
      · rfl
      · rfl
    rw [hup']
  | some after =>
    rw [hup] at h
    obtain ⟨⟨n, rest'⟩, hn, hcount⟩ := Option.map_eq_some_iff.mp h
    obtain ⟨rfl, rfl⟩ : some n = count ∧ rest' = rest := by simpa using hcount
    rw [eq_append_of_after? hup, List.append_assoc, after?_append]
    dsimp only
    rw [upTo?_append hn]
    rfl

theorem ofBare?_append {s : List Char} {target : Target} (h : ofBare? s = some target)
    (hany : target.kind ≠ .any) (htail : Detached tail) : ofBare? (s ++ tail) = some target := by
  rcases ofBare?_eq_some_iff.mp h with ⟨-, rfl⟩ | ⟨count, rest, name, hcount, hafter, hname⟩
  · exact absurd rfl hany
  · refine ofBare?_eq_some_iff.mpr (.inr ⟨count, rest ++ tail, name ++ tail,
      counted?_append hcount hafter tail, ?_, named?_append hname htail⟩)
    rw [afterTarget?_eq_some_iff] at hafter ⊢
    refine hafter.imp ?_ ?_
    · rintro rfl
      rw [List.append_assoc]
    · rintro rfl
      rw [List.append_assoc]

/-- A phrase that names something else than any target names it whatever stands behind, as long as
that keeps apart. -/
theorem ofPhrase?_append {s : List Char} {target : Target} (h : ofPhrase? s = some target)
    (hany : target.kind ≠ .any)
    (htail : ∀ blanks, (∀ c ∈ blanks, isBlank c = true) →
      Detached (lower (dropBack isBlank (blanks ++ tail)))) :
    ofPhrase? (s ++ tail) = some target := by
  rw [ofPhrase?_eq] at h ⊢
  have hs : trim s ≠ [] := by
    intro hnil
    rw [hnil] at h
    exact absurd h nofun
  obtain ⟨blanks, hblanks, htrim⟩ := trim_append hs tail
  rw [htrim, lower, List.map_append]
  exact ofBare?_append h hany (htail blanks hblanks)

end CardRules.Target
