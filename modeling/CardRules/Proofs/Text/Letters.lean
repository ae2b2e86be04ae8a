import CardRules.Text.Blank
import CardRules.Text.Case
import CardRules.Text.Numeral
import CardRules.Text.Search
import Mathlib.Data.List.Basic
import Mathlib.Data.List.TakeWhile

/-!
# Letters and words

What letter case leaves alone, where a phrase occurs, and how a text of words with blanks between them
is trimmed and taken apart again.
-/

set_option autoImplicit false

namespace CardRules.Text

/-! ## Letters and digits by their numbers -/

variable {c : Char}

theorem isUpper_iff : c.isUpper = true ↔ 65 ≤ c.toNat ∧ c.toNat ≤ 90 := by
  have h : c.isUpper = decide (c.val ≥ 'A'.val ∧ c.val ≤ 'Z'.val) := rfl
  rw [h, decide_eq_true_iff, ge_iff_le, UInt32.le_iff_toNat_le, UInt32.le_iff_toNat_le]
  rfl

theorem isLower_iff : c.isLower = true ↔ 97 ≤ c.toNat ∧ c.toNat ≤ 122 := by
  have h : c.isLower = (decide (c.val ≥ 'a'.val) && decide (c.val ≤ 'z'.val)) := rfl
  rw [h, Bool.and_eq_true, decide_eq_true_iff, decide_eq_true_iff, ge_iff_le, UInt32.le_iff_toNat_le,
    UInt32.le_iff_toNat_le]
  rfl

theorem isDigit_iff : c.isDigit = true ↔ 48 ≤ c.toNat ∧ c.toNat ≤ 57 := by
  have h : c.isDigit = (decide (c.val ≥ '0'.val) && decide (c.val ≤ '9'.val)) := rfl
  rw [h, Bool.and_eq_true, decide_eq_true_iff, decide_eq_true_iff, ge_iff_le, UInt32.le_iff_toNat_le,
    UInt32.le_iff_toNat_le]
  rfl

theorem isAlphanum_iff : c.isAlphanum = true ↔
    (c.isUpper = true ∨ c.isLower = true) ∨ c.isDigit = true := by
  have h : c.isAlphanum = ((c.isUpper || c.isLower) || c.isDigit) := rfl
  rw [h, Bool.or_eq_true, Bool.or_eq_true]

/-! ## Letter case -/

theorem toLower_cases (c : Char) :
    c.toLower = c ∨ 65 ≤ c.toNat ∧ c.toNat ≤ 90 ∧ c.toLower.toNat = c.toNat + 32 := by
  unfold Char.toLower
  split
  · rename_i h
    obtain ⟨hlow, hhigh⟩ : 65 ≤ c.val.toNat ∧ c.val.toNat ≤ 90 := by
      simpa [UInt32.le_iff_toNat_le] using h
    refine .inr ⟨hlow, hhigh, ?_⟩
    simp only [Char.toNat, UInt32.toNat_add]
    have : ('a'.val - 'A'.val).toNat = 32 := rfl
    omega
  · exact .inl rfl

theorem isBlank_toLower (c : Char) : isBlank c.toLower = isBlank c := by
  rcases toLower_cases c with h | ⟨hlow, hhigh, h⟩
  · rw [h]
  · simp only [isBlank, h]
    grind

theorem toLower_toLower (c : Char) : c.toLower.toLower = c.toLower := by
  rcases toLower_cases c with h | ⟨hlow, hhigh, h⟩
  · rw [h, h]
  · rcases toLower_cases c.toLower with h' | ⟨_, hhigh', _⟩
    · exact h'
    · omega

theorem lower_lower (s : List Char) : lower (lower s) = lower s := by
  rw [lower, lower, List.map_map]
  exact List.map_congr_left fun c _ => toLower_toLower c

theorem lower_append (s t : List Char) : lower (s ++ t) = lower s ++ lower t := List.map_append

theorem dropEnds_lower {p : Char → Bool} (h : ∀ c, p c.toLower = p c) (s : List Char) :
    dropEnds p (lower s) = lower (dropEnds p s) := by
  have hp : p ∘ Char.toLower = p := funext h
  simp only [dropEnds, lower, List.dropWhile_map, ← List.map_reverse, hp]

/-- What is no letter has no other case. -/
theorem eq_of_toLower {c d : Char} (h : c.toLower = d) (hd : d.toNat < 97 ∨ 122 < d.toNat) : c = d := by
  rcases toLower_cases c with hsame | ⟨hlow, hhigh, hshift⟩
  · rw [← hsame, h]
  · rw [h] at hshift
    omega

theorem toLower_of_fold {c letter : Char} (h : fold c = letter) (hs : letter ≠ 's')
    (hk : letter ≠ 'k') : c.toLower = letter := by
  unfold fold at h
  split at h
  · exact absurd h.symm hs
  · split at h
    · exact absurd h.symm hk
    · exact h

/-- What is no letter is read as itself. -/
theorem eq_of_fold {c d : Char} (h : fold c = d) (hd : d.toNat < 97 ∨ 122 < d.toNat) : c = d := by
  have hs : d ≠ 's' := by
    rintro rfl
    exact absurd hd (by decide)
  have hk : d ≠ 'k' := by
    rintro rfl
    exact absurd hd (by decide)
  exact eq_of_toLower (toLower_of_fold h hs hk) hd

theorem eq_of_map_fold {front : List Char} {c : Char} (h : front.map fold = [c])
    (hc : c.toNat < 97 ∨ 122 < c.toNat) : front = [c] := by
  obtain ⟨d, rfl, hd⟩ := List.map_eq_singleton_iff.mp h
  rw [eq_of_fold hd hc]

/-- Where a phrase without s and k is read, it stands in one case or the other. -/
theorem lower_of_fold {front letters : List Char} (h : front.map fold = letters)
    (hs : 's' ∉ letters) (hk : 'k' ∉ letters) : lower front = letters := by
  subst h
  refine List.map_congr_left fun c hc => toLower_of_fold rfl ?_ ?_
  · rintro hfold
    exact hs (List.mem_map.2 ⟨c, hc, hfold⟩)
  · rintro hfold
    exact hk (List.mem_map.2 ⟨c, hc, hfold⟩)

theorem map_fold_of_lower {start letters : List Char} (h : lower start = letters)
    (hletters : ∀ c ∈ letters, c ≠ '\u017F' ∧ c ≠ '\u212A') : start.map fold = letters := by
  subst h
  refine List.map_congr_left fun c hc => ?_
  obtain ⟨hs, hk⟩ := hletters c.toLower (List.mem_map.mpr ⟨c, hc, rfl⟩)
  have hs' : c ≠ '\u017F' := by
    rintro rfl
    exact hs rfl
  have hk' : c ≠ '\u212A' := by
    rintro rfl
    exact hk rfl
  rw [fold, if_neg (by simpa using hs'), if_neg (by simpa using hk')]

/-- What lower case leaves alone, and the two letters beyond it, folding leaves alone. -/
theorem apply_fold {α : Type} {f : Char → α} (hlower : ∀ c, f c.toLower = f c)
    (hs : f 's' = f '\u017F') (hk : f 'k' = f '\u212A') (c : Char) : f (fold c) = f c := by
  unfold fold
  split
  · rename_i hc
    rw [beq_iff_eq.mp hc, hs]
  · split
    · rename_i hc
      rw [beq_iff_eq.mp hc, hk]
    · exact hlower c

theorem isBlank_fold (c : Char) : isBlank (fold c) = isBlank c :=
  apply_fold isBlank_toLower (by decide) (by decide) c

/-- What is read as a phrase and a blank is a stretch and a blank, and the stretch is read as the phrase. -/
theorem exists_of_fold_blank (phrase : List Char) {front rest : List Char}
    (h : front.map fold = phrase ++ ' ' :: rest) :
    ∃ word back, front = word ++ ' ' :: back ∧ word.map fold = phrase ∧ back.map fold = rest := by
  obtain ⟨word, tail, rfl, hword, htail⟩ := List.map_eq_append_iff.mp h
  obtain ⟨c, back, rfl, hc, hback⟩ := List.map_eq_cons_iff.mp htail
  obtain rfl := eq_of_fold hc (by decide)
  exact ⟨word, back, rfl, hword, hback⟩

theorem sameLetters_iff {s t : List Char} : sameLetters s t = true ↔ lower s = lower t := by
  rw [sameLetters, beq_iff_eq]

/-- A letter that stands alone, in lower or upper case. -/
theorem eq_of_lower_singleton {s : List Char} {letter : Char} (upper : Char) (h : lower s = [letter])
    (hupper : letter.toNat = upper.toNat + 32) : s = [letter] ∨ s = [upper] := by
  obtain ⟨c, rfl⟩ : ∃ c, s = [c] := by
    simpa [lower, List.length_eq_one_iff] using congrArg List.length h
  have hc : c.toLower = letter := by simpa [lower] using h
  rcases toLower_cases c with hsame | ⟨-, -, hnat⟩
  · exact .inl (by rw [← hc, hsame])
  · refine .inr (congrArg (fun d => [d]) (Char.toNat_inj.mp ?_))
    rw [hc] at hnat
    omega

/-- A text differs from another that has something beyond what its own characters can be. -/
theorem sameLetters_eq_false {p : Char → Bool} {s other : List Char} (hs : ∀ c ∈ s, p c.toLower = true)
    (h : (other.any fun c => !p c.toLower) = true) : sameLetters s other = false := by
  rw [← Bool.not_eq_true]
  intro hsame
  have hsame : lower s = lower other := beq_iff_eq.mp hsame
  obtain ⟨c, hc, hbeyond⟩ := List.any_eq_true.mp h
  have hmem : c.toLower ∈ lower s := hsame ▸ List.mem_map_of_mem hc
  obtain ⟨d, hd, hdc⟩ := List.mem_map.mp hmem
  rw [← hdc, hs d hd] at hbeyond
  exact absurd hbeyond (by decide)

theorem toLower_of_isDigit (h : c.isDigit = true) : c.toLower = c := by
  cases toLower_cases c with
  | inl hsame => exact hsame
  | inr hupper =>
    have hdigit := isDigit_iff.mp h
    omega

/-- A number is no word with a letter in it. -/
theorem sameLetters_digits {n : Nat} {other : List Char}
    (h : (other.any fun c => !c.toLower.isDigit) = true) : sameLetters (digits n) other = false := by
  refine sameLetters_eq_false (p := Char.isDigit) ?_ h
  intro c hc
  have hdigit := isDigit_of_mem_digits hc
  rw [toLower_of_isDigit hdigit, hdigit]

/-- What holds of every character of a text, checked one by one. -/
theorem forall_mem_of_all {P : Char → Prop} [DecidablePred P] {s : List Char}
    (h : (s.all fun c => decide (P c)) = true) : ∀ c ∈ s, P c :=
  fun c hc => of_decide_eq_true (List.all_eq_true.mp h c hc)

/-! ## Numerals in lower case -/

theorem isDigit_toLower (c : Char) : c.toLower.isDigit = c.isDigit := by
  rcases toLower_cases c with hsame | ⟨hlow, hhigh, hshift⟩
  · rw [hsame]
  · rw [Bool.eq_iff_iff, isDigit_iff, isDigit_iff]
    omega

theorem digits?_lower (s : List Char) : digits? (lower s) = digits? s := by
  have hall : (lower s).all Char.isDigit = s.all Char.isDigit := by
    rw [lower, List.all_map]
    exact congrArg (s.all ·) (funext isDigit_toLower)
  by_cases hdigits : s.all Char.isDigit = true
  · have hsame : lower s = s := by
      conv_rhs => rw [← List.map_id s]
      exact List.map_congr_left fun c hc => toLower_of_isDigit (List.all_eq_true.mp hdigits c hc)
    rw [hsame]
  · unfold digits?
    rw [hall, if_neg fun h => hdigits h.2, if_neg fun h => hdigits h.2]

/-- A sign stands in front of a text in lower case if it stands in front of the text. -/
theorem lower_ne_sign {sign : Char} (hsign : sign.toNat < 97) {s : List Char}
    (h : ∀ rest, s ≠ sign :: rest) (rest : List Char) : lower s ≠ sign :: rest := by
  intro hlower
  obtain ⟨c, back, rfl, hc, -⟩ := List.map_eq_cons_iff.mp hlower
  exact h back (congrArg (· :: back) (eq_of_toLower hc (.inl hsign)))

theorem natural?_lower (s : List Char) : natural? (lower s) = natural? s := by
  by_cases hplus : ∃ rest, s = '+' :: rest
  · obtain ⟨rest, rfl⟩ := hplus
    exact digits?_lower rest
  · have hplus : ∀ rest, s ≠ '+' :: rest := fun rest h => hplus ⟨rest, h⟩
    rw [natural?.eq_2 s hplus, natural?.eq_2 (lower s) (lower_ne_sign (by decide) hplus), digits?_lower]

theorem integer?_lower (s : List Char) : integer? (lower s) = integer? s := by
  by_cases hminus : ∃ rest, s = '-' :: rest
  · obtain ⟨rest, rfl⟩ := hminus
    have hlower : lower ('-' :: rest) = '-' :: lower rest := rfl
    rw [hlower, integer?, integer?, digits?_lower]
  · have hminus : ∀ rest, s ≠ '-' :: rest := fun rest h => hminus ⟨rest, h⟩
    rw [integer?.eq_2 s hminus, integer?.eq_2 (lower s) (lower_ne_sign (by decide) hminus), natural?_lower]

/-! ## Occurrences -/

theorem occurs_of_prefix (part rest : List Char) : occurs part (part ++ rest) = true := by
  have hafter := after?_append part rest
  cases hs : part ++ rest with
  | nil =>
    obtain ⟨rfl, -⟩ := List.append_eq_nil_iff.1 hs
    rfl
  | cons c s =>
    rw [hs] at hafter
    rw [occurs, cut?, hafter]
    rfl

/-- A phrase occurs in a text if it is an infix of it. -/
theorem infix_iff_occurs {part s : List Char} : occurs part s = true ↔ part <:+: s := by
  constructor
  · intro h
    obtain ⟨⟨front, rest⟩, hcut⟩ := Option.isSome_iff_exists.1 h
    exact ⟨front, rest, (eq_append_of_cut? hcut).symm⟩
  · rintro ⟨front, rest, rfl⟩
    rw [List.append_assoc]
    induction front with
    | nil => exact occurs_of_prefix part rest
    | cons c front ih =>
      rw [List.cons_append, occurs, cut?]
      split
      · rfl
      · rw [Option.isSome_map]
        exact ih

/-- A phrase with a letter that the text does not have does not occur. -/
theorem occurs_eq_false {part s : List Char} {c : Char} (hpart : c ∈ part) (hs : c ∉ s) :
    occurs part s = false := by
  rw [← Bool.not_eq_true, infix_iff_occurs]
  exact fun hwithin => hs (hwithin.subset hpart)

/-! ## Words and blanks -/

theorem dropBack_eq_self {p : Char → Bool} {s : List Char} (h : ∀ c ∈ s, p c = false) :
    dropBack p s = s := by
  rw [dropBack, List.dropWhile_eq_self_iff.2, List.reverse_reverse]
  intro hlength
  rw [h _ (List.mem_reverse.1 (List.getElem_mem hlength))]
  decide

theorem joinWith_cons (mark first : List Char) (rest : List (List Char)) :
    joinWith mark (first :: rest) = first ++ rest.flatMap (mark ++ ·) := by
  induction rest generalizing first with
  | nil => simp [joinWith]
  | cons second rest ih =>
    rw [joinWith, List.intercalate_cons_cons, ← joinWith, ih]
    simp

theorem lower_joinWith (parts : List (List Char)) :
    lower (joinWith [' '] parts) = joinWith [' '] (parts.map lower) := by
  cases parts with
  | nil => rfl
  | cons first rest =>
    simp [joinWith_cons, lower, List.map_flatMap, List.flatMap_map]

theorem joinWith_ne_nil {mark : List Char} {parts : List (List Char)} (h : ∀ w ∈ parts, w ≠ [])
    (hparts : parts ≠ []) : joinWith mark parts ≠ [] := by
  cases parts with
  | nil => exact absurd rfl hparts
  | cons first rest => simp [joinWith_cons, h first (by simp)]

/-- A text of words does not end in a blank. -/
theorem isBlank_getLast?_joinWith {parts : List (List Char)}
    (h : ∀ w ∈ parts, w ≠ [] ∧ ∀ c ∈ w, isBlank c = false) :
    ∀ c ∈ (joinWith [' '] parts).getLast?, isBlank c = false := by
  induction parts with
  | nil => simp [joinWith]
  | cons first rest ih =>
    cases rest with
    | nil =>
      rw [joinWith, List.intercalate_singleton]
      exact fun c hc => (h first (by simp)).2 c (List.mem_of_getLast? hc)
    | cons second rest =>
      have hne : joinWith [' '] (second :: rest) ≠ [] :=
        joinWith_ne_nil (fun w hw => (h w (by simp [hw])).1) (by simp)
      rw [joinWith, List.intercalate_cons_cons, ← joinWith, List.getLast?_append,
        List.getLast?_eq_some_getLast hne, Option.some_or, ← List.getLast?_eq_some_getLast hne]
      exact ih fun w hw => h w (by simp [hw])

theorem trim_eq_self {s : List Char} (hfirst : ∀ c ∈ s.head?, isBlank c = false)
    (hlast : ∀ c ∈ s.getLast?, isBlank c = false) : trim s = s := by
  have hfront : s.dropWhile isBlank = s := by
    cases s with
    | nil => rfl
    | cons c s => rw [List.dropWhile_cons_of_neg (by simp [hfirst c rfl])]
  have hback : s.reverse.dropWhile isBlank = s.reverse := by
    rw [← List.head?_reverse] at hlast
    cases hs : s.reverse with
    | nil => rfl
    | cons c r => rw [List.dropWhile_cons_of_neg (by simp [hlast c (by simp [hs])])]
  rw [trim, dropEnds, hfront, hback, List.reverse_reverse]

theorem isBlank_of_isDigit (h : c.isDigit = true) : isBlank c = false := by
  have hrange := isDigit_iff.mp h
  rw [← Bool.not_eq_true]
  intro hblank
  simp only [isBlank, Bool.or_eq_true, Bool.and_eq_true, decide_eq_true_eq, beq_iff_eq] at hblank
  omega

theorem trim_digits (n : Nat) : trim (digits n) = digits n :=
  trim_eq_self (fun _ hc => isBlank_of_isDigit (isDigit_of_mem_digits (List.mem_of_mem_head? hc)))
    fun _ hc => isBlank_of_isDigit (isDigit_of_mem_digits (List.mem_of_getLast? hc))

/-- What is written without a minus sign is no negative number. -/
theorem toInt_nonneg_of_int? {s : List Char} {n : Int32} (hs : '-' ∉ s) (hn : int? s = some n) :
    0 ≤ n.toInt := by
  obtain ⟨m, hm, hn⟩ := Option.bind_eq_some_iff.mp hn
  obtain ⟨⟨hlow, hhigh⟩, hn⟩ := Option.ite_none_right_eq_some.mp hn
  have hm0 : 0 ≤ m := by
    unfold integer? at hm
    split at hm
    · exact absurd List.mem_cons_self hs
    · obtain ⟨k, -, rfl⟩ := Option.map_eq_some_iff.mp hm
      exact Int.natCast_nonneg k
  rw [← Option.some.inj hn, Int32.toInt_ofInt_of_le (by omega) (by omega)]
  exact hm0

theorem no_blank_of_mem_words {s word : List Char} (h : word ∈ words s) :
    ∀ c ∈ word, isBlank c = false := by
  have hparts : ∀ part ∈ s.splitOnP isBlank, ∀ c ∈ part, isBlank c = false := by
    clear h
    induction s with
    | nil => simp
    | cons c s ih =>
      rw [List.splitOnP_cons_eq_if_modifyHead]
      cases hc : isBlank c with
      | true => simpa using ih
      | false =>
        obtain ⟨first, rest, hs⟩ := List.exists_cons_of_ne_nil (List.splitOnP_ne_nil isBlank s)
        rw [hs, List.forall_mem_cons] at ih
        rw [hs, if_neg Bool.false_ne_true, List.modifyHead_cons, List.forall_mem_cons, List.forall_mem_cons]
        exact ⟨⟨hc, ih.1⟩, ih.2⟩
  exact hparts word (List.mem_filter.mp h).1

theorem words_append_blank {c : Char} (h : isBlank c = true) (s t : List Char) :
    words (s ++ c :: t) = words s ++ words t := by
  rw [words, List.splitOnP_append_cons s t h, List.filter_append]
  rfl

/-- Blanks in front of a text do not change its words. -/
theorem words_append_of_blank {blanks : List Char} (h : ∀ c ∈ blanks, isBlank c = true) (s : List Char) :
    words (blanks ++ s) = words s := by
  induction blanks with
  | nil => rfl
  | cons c blanks ih =>
    rw [List.forall_mem_cons] at h
    rw [List.cons_append, ← List.nil_append (c :: (blanks ++ s)), words_append_blank h.1, ih h.2]
    rfl

theorem words_eq_singleton {w : List Char} (hne : w ≠ []) (h : ∀ c ∈ w, isBlank c = false) :
    words w = [w] := by
  rw [words, List.splitOnP_eq_singleton h]
  simp [hne]

/-- The first word of a text that starts with one goes up to the next blank. -/
theorem head?_words {c : Char} (h : isBlank c = false) (s : List Char) :
    (words (c :: s)).head? = some (c :: s.takeWhile (!isBlank ·)) := by
  have hword : ∀ d ∈ c :: s.takeWhile (!isBlank ·), isBlank d = false := by
    refine List.forall_mem_cons.mpr ⟨h, fun d hd => ?_⟩
    simpa using List.all_eq_true.mp List.all_takeWhile d hd
  have hsplit : c :: s = (c :: s.takeWhile (!isBlank ·)) ++ s.dropWhile (!isBlank ·) := by
    rw [List.cons_append, List.takeWhile_append_dropWhile]
  have hstops := List.head?_dropWhile_not (!isBlank ·) s
  cases hdrop : s.dropWhile (!isBlank ·) with
  | nil =>
    rw [hsplit, hdrop, List.append_nil, words_eq_singleton (List.cons_ne_nil _ _) hword]
    rfl
  | cons blank rest =>
    have hblank : isBlank blank = true := by simpa [hdrop] using hstops
    rw [hsplit, hdrop, words_append_blank hblank, words_eq_singleton (List.cons_ne_nil _ _) hword]
    rfl

theorem words_cons {w : List Char} (hne : w ≠ []) (h : ∀ c ∈ w, isBlank c = false) (s : List Char) :
    words (w ++ ' ' :: s) = w :: words s := by
  rw [words_append_blank (by rfl), words_eq_singleton hne h]
  rfl

/-- Words with blanks between them are the words of the text they make. -/
theorem words_joinWith {parts : List (List Char)}
    (h : ∀ w ∈ parts, w ≠ [] ∧ ∀ c ∈ w, isBlank c = false) : words (joinWith [' '] parts) = parts := by
  induction parts with
  | nil => rfl
  | cons first rest ih =>
    obtain ⟨hne, hfirst⟩ := h first (by simp)
    cases rest with
    | nil => rw [joinWith, List.intercalate_singleton, words_eq_singleton hne hfirst]
    | cons second rest =>
      rw [joinWith, List.intercalate_cons_cons, ← joinWith, List.append_assoc, List.singleton_append,
        words_cons hne hfirst, ih fun w hw => h w (by simp [hw])]

end CardRules.Text
