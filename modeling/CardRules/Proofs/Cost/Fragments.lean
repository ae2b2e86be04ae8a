import CardRules.Cost.Written
import CardRules.Proofs.Text.Pieces

/-!
# The grammar of a fragment

What a fragment of a cost can say, apart from how it is read: a row of symbols in braces
(`IsRow`), or one of three worded costs, whose words stand in any case and with gaps between them
(`Spaced`). A fragment is read as something just when it says that (`ofText?_eq_some_iff`), so no
fragment has two meanings, and what is kept word for word is what says nothing.
-/

set_option autoImplicit false

namespace CardRules

open Text

/-! ## Rows of symbols -/

/-- Symbols in braces one after the other, with gaps anywhere around them. A symbol is not empty
and ends at the first closing brace. -/
inductive IsRow : List Char → List (List Char) → Prop
  | nil : IsRow [] []
  | gap {c : Char} {s : List Char} {symbols : List (List Char)} (hc : CostPart.isGap c = true)
      (h : IsRow s symbols) : IsRow (c :: s) symbols
  | symbol {inside s : List Char} {symbols : List (List Char)} (hne : inside ≠ [])
      (hinside : '}' ∉ inside) (h : IsRow s symbols) :
      IsRow ('{' :: inside ++ '}' :: s) (inside :: symbols)

/-- A text from inside an open brace, with the brace and the contents so far put back. -/
def reopened : (inside : Option (List Char)) → List Char → List Char
  | none, s => s
  | some seen, s => '{' :: seen.reverse ++ s

theorem CostPart.isGap_iff {c : Char} : isGap c = true ↔ c = ' ' ∨ c = '\t' := by simp [isGap]

theorem isRow_of_symbolRunFrom {inside : Option (List Char)} {s : List Char}
    {symbols : List (List Char)} (h : symbolRunFrom inside s = some symbols)
    (hinside : ∀ seen ∈ inside, '}' ∉ seen) : IsRow (reopened inside s) symbols := by
  fun_induction symbolRunFrom inside s generalizing symbols with
  | case1 =>
    obtain rfl := Option.some.inj h
    exact .nil
  | case2 => simp at h
  | case3 s ih => exact ih h (by simp)
  | case4 c s _ hgap ih => exact .gap (CostPart.isGap_iff.mpr hgap) (ih h (by simp))
  | case5 => simp at h
  | case6 => simp at h
  | case7 seen s hne ih =>
    obtain ⟨more, hmore, rfl⟩ := Option.map_eq_some_iff.mp h
    have hseen : '}' ∉ seen := hinside seen rfl
    exact .symbol (by simpa using hne) (by simpa using hseen) (ih hmore (by simp))
  | case8 seen c s hc ih =>
    have hseen : '}' ∉ c :: seen :=
      List.not_mem_cons_of_ne_of_not_mem (Ne.symm hc) (hinside seen rfl)
    have hrow := ih h (by simpa using hseen)
    rwa [reopened, List.reverse_cons, ← List.cons_append, List.append_assoc] at hrow

theorem symbolRunFrom_inside {inside : List Char} (hinside : '}' ∉ inside) (seen s : List Char) :
    symbolRunFrom (some seen) (inside ++ '}' :: s) =
      if seen.reverse ++ inside = [] then none
      else (symbolRunFrom none s).map ((seen.reverse ++ inside) :: ·) := by
  induction inside generalizing seen with
  | nil => simp [symbolRunFrom]
  | cons c inside ih =>
    rw [List.mem_cons, not_or] at hinside
    rw [List.cons_append, symbolRunFrom, if_neg (Ne.symm hinside.1), ih hinside.2, List.reverse_cons,
      List.append_assoc, List.singleton_append]

theorem IsRow.symbolRunFrom {s : List Char} {symbols : List (List Char)} (h : IsRow s symbols) :
    symbolRunFrom none s = some symbols := by
  induction h with
  | nil => rfl
  | gap hc h ih =>
    have hgap := CostPart.isGap_iff.mp hc
    rw [CardRules.symbolRunFrom, if_neg (by rintro rfl; simp at hgap), if_pos hgap, ih]
  | symbol hne hinside h ih =>
    rw [List.cons_append, CardRules.symbolRunFrom, if_pos rfl, symbolRunFrom_inside hinside,
      if_neg (by simpa using hne), ih]
    rfl

theorem symbolRunFrom_eq_some_iff {s : List Char} {symbols : List (List Char)} :
    symbolRunFrom none s = some symbols ↔ IsRow s symbols :=
  ⟨fun h => isRow_of_symbolRunFrom h (by simp), IsRow.symbolRunFrom⟩

theorem symbolRun?_eq_some_iff {s : List Char} {symbols : List (List Char)} :
    symbolRun? s = some symbols ↔ IsRow s symbols ∧ symbols ≠ [] := by
  rw [symbolRun?, Option.filter_eq_some_iff, symbolRunFrom_eq_some_iff]
  simp

namespace CostPart

/-! ## Words and gaps -/

/-- These parts one after the other, with gaps between them and perhaps at the end. -/
inductive Spaced : List (List Char) → List Char → Prop
  | last {part gaps : List Char} (hgaps : ∀ c ∈ gaps, isGap c = true) : Spaced [part] (part ++ gaps)
  | more {part gaps s : List Char} {parts : List (List Char)} (hne : gaps ≠ [])
      (hgaps : ∀ c ∈ gaps, isGap c = true) (h : Spaced parts s) :
      Spaced (part :: parts) (part ++ (gaps ++ s))

/-- One of these phrases, case disregarded. -/
def Spells (phrases : List String) (s : List Char) : Prop :=
  ∃ phrase ∈ phrases, lower s = lower phrase.toList

/-- What a fragment of a cost says. -/
inductive Says : List Char → CostPart → Prop
  | symbols {s : List Char} {symbols : List (List Char)} (hne : symbols ≠ []) (h : IsRow s symbols) :
      Says s (.symbols symbols)
  | sacrifice {s verb name : List Char} (hverb : Spells ["sacrifice"] verb)
      (hname : Spells selfNames name) (h : Spaced [verb, name] s) : Says s .sacrifice
  | discard {s verb word noun : List Char} {n : UInt8} (hverb : Spells ["discard"] verb)
      (hword : ∀ c ∈ word, c.isAlphanum = true) (hn : count? word = some n)
      (hnoun : Spells ["cards", "card"] noun) (h : Spaced [verb, word, noun] s) : Says s (.discard n)
  | life {s verb word noun : List Char} {n : Int32} (hverb : Spells ["pay"] verb)
      (hword : ∀ c ∈ word, c.isDigit = true) (hn : Text.int? word = some n)
      (hnoun : Spells ["life"] noun) (h : Spaced [verb, word, noun] s) : Says s (.life n)

theorem isGap_toLower (c : Char) : isGap c.toLower = isGap c := by
  rw [Bool.eq_iff_iff, isGap_iff, isGap_iff]
  constructor
  · rintro (h | h)
    · exact .inl (eq_of_toLower h (by decide))
    · exact .inr (eq_of_toLower h (by decide))
  · rintro (rfl | rfl) <;> decide

/-! ## Reading words -/

/-- Each of these phrases starts with something else than a gap. -/
def AreLead (phrases : List String) : Prop :=
  ∀ phrase ∈ phrases, (lower phrase.toList).head?.any (!isGap ·) = true

instance (phrases : List String) : Decidable (AreLead phrases) :=
  inferInstanceAs (Decidable (∀ phrase ∈ phrases, _))

theorem Spells.head? {phrases : List String} {s : List Char} (h : Spells phrases s)
    (hlead : AreLead phrases) : s ≠ [] ∧ ∀ c ∈ s.head?, isGap c = false := by
  obtain ⟨phrase, hmem, hsame⟩ := h
  have hhead := hlead phrase hmem
  rw [← hsame, lower, List.head?_map, Option.any_map] at hhead
  cases s with
  | nil => simp at hhead
  | cons c s =>
    refine ⟨List.cons_ne_nil c s, fun d hd => ?_⟩
    obtain rfl : c = d := Option.some.inj hd
    simpa [isGap_toLower] using hhead

theorem Spaced.exists_back {part s : List Char} {parts : List (List Char)}
    (h : Spaced (part :: parts) s) : ∃ back, s = part ++ back := by
  cases h with
  | last => exact ⟨_, rfl⟩
  | more => exact ⟨_, rfl⟩

theorem head?_of_spaced {part s : List Char} {parts : List (List Char)}
    (hpart : part ≠ [] ∧ ∀ c ∈ part.head?, isGap c = false) (h : Spaced (part :: parts) s) :
    ∀ c ∈ s.head?, isGap c = false := by
  obtain ⟨back, rfl⟩ := h.exists_back
  rw [List.head?_append_of_ne_nil part hpart.1]
  exact hpart.2

theorem Spaced.of_dropWhile {part s : List Char} {parts : List (List Char)}
    (hne : ¬(s.takeWhile isGap).isEmpty = true) (h : Spaced parts (s.dropWhile isGap)) :
    Spaced (part :: parts) (part ++ s) := by
  have hspaced : Spaced (part :: parts) (part ++ (s.takeWhile isGap ++ s.dropWhile isGap)) :=
    .more (by simpa using hne) (fun c => List.all_eq_true.mp List.all_takeWhile c) h
  rwa [List.takeWhile_append_dropWhile] at hspaced

theorem spaced_of_afterWord? {verb : String} {s rest : List Char} (h : afterWord? verb s = some rest) :
    ∃ start, Spells [verb] start ∧ ∀ parts, Spaced parts rest → Spaced (start :: parts) s := by
  obtain ⟨behind, hfront, hrest⟩ := Option.bind_eq_some_iff.mp h
  split at hrest
  · simp at hrest
  rename_i hne
  obtain rfl := Option.some.inj hrest
  obtain ⟨start, rfl, hstart⟩ := eq_append_of_dropFront? hfront
  exact ⟨start, ⟨verb, List.mem_singleton_self verb, hstart⟩, fun _ => Spaced.of_dropWhile hne⟩

theorem afterWord?_of_spaced {verb : String} {start part s : List Char} {parts : List (List Char)}
    (hstart : Spells [verb] start) (hpart : part ≠ [] ∧ ∀ c ∈ part.head?, isGap c = false)
    (h : Spaced (start :: part :: parts) s) :
    ∃ rest, afterWord? verb s = some rest ∧ Spaced (part :: parts) rest := by
  obtain ⟨phrase, hmem, hsame⟩ := hstart
  rw [List.mem_singleton.mp hmem] at hsame
  cases h with
  | @more _ gaps rest _ hne hgaps hrest =>
    refine ⟨rest, ?_, hrest⟩
    have hhead : ∀ c ∈ rest.head?, isGap c = false := head?_of_spaced hpart hrest
    rw [afterWord?, dropFront?_of_lower hsame, Option.bind_eq_bind, Option.bind_some,
      takeWhile_append_of_head? hhead hgaps, dropWhile_append_of_head? hhead hgaps,
      if_neg (by simpa using hne)]

theorem isOneOf_eq_true_iff {phrases : List String} {s : List Char} :
    isOneOf phrases s = true ↔ ∃ noun, Spells phrases noun ∧ Spaced [noun] s := by
  simp only [isOneOf, List.any_eq_true, Option.any_eq_true, List.all_eq_true]
  constructor
  · rintro ⟨phrase, hmem, gaps, hfront, hgaps⟩
    obtain ⟨noun, rfl, hnoun⟩ := eq_append_of_dropFront? hfront
    exact ⟨noun, ⟨phrase, hmem, hnoun⟩, .last hgaps⟩
  · rintro ⟨noun, ⟨phrase, hmem, hnoun⟩, h⟩
    cases h with
    | @last _ gaps hgaps => exact ⟨phrase, hmem, gaps, dropFront?_of_lower hnoun gaps, hgaps⟩
    | more _ _ h => cases h

theorem areLead_selfNames : AreLead selfNames := by decide

theorem sacrifice?_eq_some_iff {s : List Char} {part : CostPart} :
    sacrifice? s = some part ↔ ∃ verb name, Spells ["sacrifice"] verb ∧ Spells selfNames name ∧
      Spaced [verb, name] s ∧ part = sacrifice := by
  rw [sacrifice?]
  simp only [Option.bind_eq_bind, Option.bind_eq_some_iff, Option.ite_none_right_eq_some,
    isOneOf_eq_true_iff, Option.some.injEq]
  constructor
  · rintro ⟨rest, hrest, ⟨name, hname, hspaced⟩, rfl⟩
    obtain ⟨verb, hverb, hs⟩ := spaced_of_afterWord? hrest
    exact ⟨verb, name, hverb, hname, hs _ hspaced, rfl⟩
  · rintro ⟨verb, name, hverb, hname, hspaced, rfl⟩
    obtain ⟨rest, hrest, hs⟩ := afterWord?_of_spaced hverb (hname.head? areLead_selfNames) hspaced
    exact ⟨rest, hrest, ⟨name, hname, hs⟩, rfl⟩

section

variable {α : Type} {verb : String} {p : Char → Bool} {number? : List Char → Option α}
  {nouns : List String} {toPart : α → CostPart}

/-- Reads a verb, a number in characters of one class, and a noun: the shape that the costs in
cards and in life share. -/
def counted? (verb : String) (p : Char → Bool) (number? : List Char → Option α)
    (nouns : List String) (toPart : α → CostPart) (s : List Char) : Option CostPart := do
  let rest ← afterWord? verb s
  let n ← number? (rest.takeWhile p)
  let rest := rest.dropWhile p
  if (rest.takeWhile isGap).isEmpty then none
  else if isOneOf nouns (rest.dropWhile isGap) then some (toPart n) else none

theorem discard?_eq_counted? :
    discard? = counted? "discard" Char.isAlphanum count? ["cards", "card"] discard := rfl

theorem life?_eq_counted? : life? = counted? "pay" Char.isDigit Text.int? ["life"] life := rfl

theorem counted?_eq_some_iff (hp : ∀ c, isGap c = true → p c = false) (hnumber : number? [] = none)
    (hnouns : AreLead nouns) {s : List Char} {part : CostPart} :
    counted? verb p number? nouns toPart s = some part ↔
      ∃ start word noun n, Spells [verb] start ∧ (∀ c ∈ word, p c = true) ∧ number? word = some n ∧
        Spells nouns noun ∧ Spaced [start, word, noun] s ∧ part = toPart n := by
  rw [counted?]
  simp only [Option.bind_eq_bind, Option.bind_eq_some_iff, Option.ite_none_left_eq_some,
    Option.ite_none_right_eq_some, isOneOf_eq_true_iff, Option.some.injEq]
  constructor
  · rintro ⟨rest, hrest, n, hn, hgap, ⟨noun, hnoun, hspaced⟩, rfl⟩
    obtain ⟨start, hstart, hs⟩ := spaced_of_afterWord? hrest
    have hmore : Spaced [rest.takeWhile p, noun] (rest.takeWhile p ++ rest.dropWhile p) :=
      .of_dropWhile hgap hspaced
    rw [List.takeWhile_append_dropWhile] at hmore
    exact ⟨start, rest.takeWhile p, noun, n, hstart, fun c => List.all_eq_true.mp List.all_takeWhile c,
      hn, hnoun, hs _ hmore, rfl⟩
  · rintro ⟨start, word, noun, n, hstart, hword, hn, hnoun, hspaced, rfl⟩
    -- the number is not empty and holds no gap, so it stands right behind the verb
    have hword? : word ≠ [] := by
      rintro rfl
      simp [hnumber] at hn
    have hhead : ∀ c ∈ word.head?, isGap c = false := fun c hc =>
      Bool.eq_false_iff.mpr fun hgap => by simpa [hp c hgap] using hword c (List.mem_of_mem_head? hc)
    obtain ⟨rest, hrest, hs⟩ := afterWord?_of_spaced hstart ⟨hword?, hhead⟩ hspaced
    cases hs with
    | @more _ gaps behind _ hne hgaps hbehind =>
      have hstop : ∀ c ∈ (gaps ++ behind).head?, p c = false := by
        rw [List.head?_append_of_ne_nil gaps hne]
        exact fun c hc => hp c (hgaps c (List.mem_of_mem_head? hc))
      have hfirst := head?_of_spaced (hnoun.head? hnouns) hbehind
      refine ⟨_, hrest, n, ?_, ?_, ⟨noun, hnoun, ?_⟩, rfl⟩
      · rw [takeWhile_append_of_head? hstop hword, hn]
      · rw [dropWhile_append_of_head? hstop hword, takeWhile_append_of_head? hfirst hgaps]
        simpa using hne
      · rw [dropWhile_append_of_head? hstop hword, dropWhile_append_of_head? hfirst hgaps]
        exact hbehind

end

/-! ## What a fragment says -/

/-- The first character of a text that is no gap, in lower case. -/
def initial? (s : List Char) : Option Char := (s.find? (!isGap ·)).map Char.toLower

theorem initial?_of_isRow {s : List Char} {symbols : List (List Char)} (h : IsRow s symbols)
    (hne : symbols ≠ []) : initial? s = some '{' := by
  induction h with
  | nil => exact absurd rfl hne
  | gap hc h ih => rw [← ih hne, initial?, List.find?_cons_of_neg (by simp [hc]), initial?]
  | symbol => rfl

theorem initial?_of_spaced {verb : String} {letter : Char} {letters start s : List Char}
    {parts : List (List Char)} (hverb : lower verb.toList = letter :: letters)
    (hletter : isGap letter = false) (hstart : Spells [verb] start)
    (h : Spaced (start :: parts) s) : initial? s = some letter := by
  obtain ⟨phrase, hmem, hsame⟩ := hstart
  rw [List.mem_singleton.mp hmem, hverb] at hsame
  obtain ⟨c, more, rfl, hc, -⟩ := List.map_eq_cons_iff.mp hsame
  have hgap : isGap c = false := by rw [← isGap_toLower, hc, hletter]
  obtain ⟨back, rfl⟩ := h.exists_back
  rw [initial?, List.cons_append, List.find?_cons_of_pos (by simp [hgap]), Option.map_some, hc]

/-- The letter with which a fragment starts that says this. -/
def initial : CostPart → Char
  | symbols _ => '{'
  | sacrifice => 's'
  | discard _ => 'd'
  | life _ => 'p'

theorem Says.initial? {s : List Char} {part : CostPart} (h : Says s part) :
    initial? s = some part.initial := by
  cases h with
  | symbols hne h => exact initial?_of_isRow h hne
  | sacrifice hverb _ h => exact initial?_of_spaced rfl rfl hverb h
  | discard hverb _ _ _ h => exact initial?_of_spaced rfl rfl hverb h
  | life hverb _ _ _ h => exact initial?_of_spaced rfl rfl hverb h

theorem says_of_symbolRun? {s : List Char} {part : CostPart}
    (h : (symbolRun? s).map symbols = some part) : Says s part ∧ part.initial = '{' := by
  obtain ⟨symbols, hrun, rfl⟩ := Option.map_eq_some_iff.mp h
  obtain ⟨hrow, hne⟩ := symbolRun?_eq_some_iff.mp hrun
  exact ⟨.symbols hne hrow, rfl⟩

theorem says_of_sacrifice? {s : List Char} {part : CostPart} (h : sacrifice? s = some part) :
    Says s part ∧ part.initial = 's' := by
  obtain ⟨verb, name, hverb, hname, hspaced, rfl⟩ := sacrifice?_eq_some_iff.mp h
  exact ⟨.sacrifice hverb hname hspaced, rfl⟩

theorem discard?_eq_some_iff {s : List Char} {part : CostPart} :
    discard? s = some part ↔ ∃ start word noun n, Spells ["discard"] start ∧
      (∀ c ∈ word, c.isAlphanum = true) ∧ count? word = some n ∧ Spells ["cards", "card"] noun ∧
      Spaced [start, word, noun] s ∧ part = discard n := by
  rw [discard?_eq_counted?]
  exact counted?_eq_some_iff (by simp [isGap_iff]) (by decide) (by decide)

theorem life?_eq_some_iff {s : List Char} {part : CostPart} :
    life? s = some part ↔ ∃ start word noun n, Spells ["pay"] start ∧
      (∀ c ∈ word, c.isDigit = true) ∧ Text.int? word = some n ∧ Spells ["life"] noun ∧
      Spaced [start, word, noun] s ∧ part = life n := by
  rw [life?_eq_counted?]
  exact counted?_eq_some_iff (by simp [isGap_iff]) rfl (by decide)

theorem says_of_discard? {s : List Char} {part : CostPart} (h : discard? s = some part) :
    Says s part ∧ part.initial = 'd' := by
  obtain ⟨start, word, noun, n, hstart, hword, hn, hnoun, hspaced, rfl⟩ := discard?_eq_some_iff.mp h
  exact ⟨.discard hstart hword hn hnoun hspaced, rfl⟩

theorem says_of_life? {s : List Char} {part : CostPart} (h : life? s = some part) :
    Says s part ∧ part.initial = 'p' := by
  obtain ⟨start, word, noun, n, hstart, hword, hn, hnoun, hspaced, rfl⟩ := life?_eq_some_iff.mp h
  exact ⟨.life hstart hword hn hnoun hspaced, rfl⟩

theorem Says.life_nonneg {s : List Char} {n : Int32} (h : Says s (.life n)) : 0 ≤ n.toInt := by
  cases h with
  | life _ hword hn =>
    exact Text.toInt_nonneg_of_int? (fun hminus => absurd (hword '-' hminus) (by decide)) hn

/-- A reader of one kind of fragments does not read the fragments that start with another letter. -/
theorem Says.not_read {s : List Char} {part : CostPart} {letter : Char} {read : Option CostPart}
    (h : Says s part) (hread : ∀ {other}, read = some other → Says s other ∧ other.initial = letter)
    (hne : part.initial ≠ letter) : read = none := by
  cases hother : read with
  | none => rfl
  | some other =>
    obtain ⟨hsaid, hletter⟩ := hread hother
    have hsame : some part.initial = some other.initial := h.initial?.symm.trans hsaid.initial?
    exact absurd ((Option.some.inj hsame).trans hletter) hne

/-- A fragment is read as what it says, and as nothing else. -/
theorem ofText?_eq_some_iff {fragment : List Char} {part : CostPart} :
    ofText? fragment = some part ↔ Says fragment part := by
  simp only [ofText?, Option.orElse_eq_orElse, Option.orElse_eq_or, Option.or_eq_some_iff]
  constructor
  · rintro (h | ⟨-, h | ⟨-, h | ⟨-, h⟩⟩⟩)
    · exact (says_of_symbolRun? h).1
    · exact (says_of_sacrifice? h).1
    · exact (says_of_discard? h).1
    · exact (says_of_life? h).1
  · intro h
    cases hpart : h with
    | symbols hne hrow =>
      exact .inl (Option.map_eq_some_iff.mpr ⟨_, symbolRun?_eq_some_iff.mpr ⟨hrow, hne⟩, rfl⟩)
    | sacrifice hverb hname hspaced =>
      exact .inr ⟨h.not_read says_of_symbolRun? (by simp [initial]),
        .inl (sacrifice?_eq_some_iff.mpr ⟨_, _, hverb, hname, hspaced, rfl⟩)⟩
    | discard hverb hword hn hnoun hspaced =>
      exact .inr ⟨h.not_read says_of_symbolRun? (by simp [initial]),
        .inr ⟨h.not_read says_of_sacrifice? (by simp [initial]),
          .inl (discard?_eq_some_iff.mpr ⟨_, _, _, _, hverb, hword, hn, hnoun, hspaced, rfl⟩)⟩⟩
    | life hverb hword hn hnoun hspaced =>
      exact .inr ⟨h.not_read says_of_symbolRun? (by simp [initial]),
        .inr ⟨h.not_read says_of_sacrifice? (by simp [initial]),
          .inr ⟨h.not_read says_of_discard? (by simp [initial]),
            life?_eq_some_iff.mpr ⟨_, _, _, _, hverb, hword, hn, hnoun, hspaced, rfl⟩⟩⟩⟩

end CostPart

end CardRules
