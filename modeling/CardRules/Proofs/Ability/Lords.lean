import CardRules.Proofs.Ability.Draft
import CardRules.Proofs.Target.Spoken

/-!
# The sentences of lords

"Other Elf creatures you control get +1/+1": the words of such a sentence are known (`Phrase.LordWords`),
and there is little in them that a close reading could take for a target phrase. Nothing starts one unless
the word for the subtype is "target", and then the phrase is "target creatures you control", without the
word before it and without the subtype (`LordWords.phrasesIn_eq`).

Letters beyond ASCII make the sentence of a lord no less, since it is read by case folding; but no noun has
them, and so they leave no phrase at all.
-/

set_option autoImplicit false

namespace CardRules

open Text

/-! ## Words -/

namespace Phrase

theorem isPunctuation_fold (c : Char) : PhraseWord.isPunctuation (fold c) = PhraseWord.isPunctuation c :=
  apply_fold isPunctuation_toLower (by decide) (by decide) c

variable {w phrase : List Char}

/-- Whether none of the letters is one of the two beyond ASCII. -/
def isPlainWord (s : String) : Bool :=
  s.toList.all fun c => decide (c.toLower ≠ '\u017F' ∧ c.toLower ≠ '\u212A')

/-- Only the letters themselves are in lower case what they are under folding. -/
theorem eq_of_lower {other : String} (hfold : w.map fold = phrase) (hplain : isPlainWord other = true)
    (h : lower w = lower other.toList) : phrase = lower other.toList := by
  refine hfold.symm.trans (map_fold_of_lower h ?_)
  intro c hc
  obtain ⟨d, hd, rfl⟩ := List.mem_map.mp hc
  exact forall_mem_of_all hplain d hd

theorem is_of_fold (hfold : w.map fold = phrase) (hs : 's' ∉ phrase) (hk : 'k' ∉ phrase) :
    PhraseWord.is ⟨w, false⟩ = fun other => phrase == lower other.toList := by
  funext other
  rw [PhraseWord.is, sameLetters, lower_of_fold hfold hs hk]

/-- What is read as a word of a phrase is a word itself. -/
theorem IsWord.of_fold (hphrase : IsWord phrase) (hfold : w.map fold = phrase) : IsWord w where
  ne_nil := by
    rintro rfl
    exact hphrase.ne_nil hfold.symm
  no_blank c hc := by
    rw [← isBlank_fold]
    exact hphrase.no_blank _ (hfold ▸ List.mem_map_of_mem hc)
  no_punctuation c hc := by
    rw [← isPunctuation_fold]
    exact hphrase.no_punctuation _ (hfold ▸ List.mem_map_of_mem hc)
  not_target := by
    have hplain : ∀ other ∈ ["target", "targets"],
        isPlainWord other = true ∧ ¬IsWord (lower other.toList) := by
      decide
    refine List.any_eq_false.mpr ?_
    intro other hother hsame
    obtain rfl := eq_of_lower hfold (hplain other hother).1 (beq_iff_eq.mp hsame)
    exact (hplain other hother).2 hphrase

/-- A word that is a noun is one of those there are. -/
theorem exists_noun (hw : IsWord w) (h : (TargetKind.ofNoun? w).isSome = true) :
    ∃ kind ∈ TargetKind.all, ∃ noun ∈ kind.nouns, lower w = lower noun.toList := by
  have htrim : trim w = w := trim_eq_self (fun c hc => hw.no_blank c (List.mem_of_mem_head? hc))
    (fun c hc => hw.no_blank c (List.mem_of_getLast? hc))
  obtain ⟨kind, hkind, hnamed⟩ := List.find?_isSome.mp h
  obtain ⟨noun, hnoun, hsame⟩ := List.any_eq_true.mp hnamed
  rw [htrim] at hsame
  exact ⟨kind, hkind, noun, hnoun, (beq_iff_eq.mp hsame).symm⟩

/-- A noun has no letters beyond ASCII. -/
theorem lower_of_noun (hphrase : IsWord phrase) (hfold : w.map fold = phrase)
    (h : (TargetKind.ofNoun? w).isSome = true) : lower w = phrase := by
  have hplain : ∀ kind ∈ TargetKind.all, ∀ noun ∈ kind.nouns, isPlainWord noun = true := by decide
  obtain ⟨kind, hkind, noun, hnoun, hlower⟩ := exists_noun (hphrase.of_fold hfold) h
  rw [hlower, eq_of_lower hfold (hplain kind hkind noun hnoun) hlower]

theorem ofNoun?_of_fold (hphrase : IsWord phrase) (hfold : w.map fold = phrase)
    (hnone : TargetKind.ofNoun? phrase = none) : TargetKind.ofNoun? w = none := by
  rw [← Option.not_isSome_iff_eq_none]
  intro hsome
  rw [← lower_of_noun hphrase hfold hsome, ofNoun?_lower] at hnone
  rw [hnone] at hsome
  exact Bool.false_ne_true hsome

/-! ## How the sentence of a lord ends -/

/-- A character of "+1/+1". -/
def isChangeChar (c : Char) : Bool := c.isDigit || ['+', '-', '/'].contains c

theorem isChangeChar_cases {c : Char} (h : isChangeChar c = true) :
    c.isDigit = true ∨ c = '+' ∨ c = '-' ∨ c = '/' := by
  simpa [isChangeChar] using h

/-- A change of power and toughness. -/
structure IsChange (w : List Char) : Prop where
  ne_nil : w ≠ []
  chars : ∀ c ∈ w, isChangeChar c = true

/-- A change has no letters. -/
theorem IsChange.sameLetters_eq_false (h : IsChange w) {other : List Char}
    (hother : (other.any fun c => !isChangeChar c.toLower) = true) : sameLetters w other = false := by
  refine Text.sameLetters_eq_false (p := isChangeChar) ?_ hother
  intro c hc
  have hchar := h.chars c hc
  rcases isChangeChar_cases hchar with hdigit | rfl | rfl | rfl
  · rw [Text.toLower_of_isDigit hdigit, hchar]
  · rfl
  · rfl
  · rfl

theorem IsChange.isWord (h : IsChange w) : IsWord w := by
  have hmarks : ∀ c ∈ w, isBlank c = false ∧ PhraseWord.isPunctuation c = false := by
    intro c hc
    rcases isChangeChar_cases (h.chars c hc) with hdigit | rfl | rfl | rfl
    · exact no_mark_of_isAlphanum (isAlphanum_iff.mpr (.inr hdigit))
    · decide
    · decide
    · decide
  refine ⟨h.ne_nil, fun c hc => (hmarks c hc).1, fun c hc => (hmarks c hc).2, ?_⟩
  have hletters : ∀ other ∈ ["target", "targets"],
      (other.toList.any fun c => !isChangeChar c.toLower) = true := by
    decide
  refine List.any_eq_false.mpr ?_
  intro other hother hsame
  exact Bool.false_ne_true ((h.sameLetters_eq_false (hletters other hother)).symm.trans hsame)

theorem IsChange.ofNoun?_eq_none (h : IsChange w) : TargetKind.ofNoun? w = none := by
  have hletters : ∀ kind ∈ TargetKind.all, ∀ noun ∈ kind.nouns,
      (noun.toList.any fun c => !isChangeChar c.toLower) = true := by
    decide
  rw [← Option.not_isSome_iff_eq_none]
  intro hsome
  obtain ⟨kind, hkind, noun, hnoun, hlower⟩ := exists_noun h.isWord hsome
  have hsame : sameLetters w noun.toList = true := beq_iff_eq.mpr hlower
  rw [h.sameLetters_eq_false (hletters kind hkind noun hnoun)] at hsame
  exact Bool.false_ne_true hsame

/-- The words "creatures you control get +1/+1", as they are read. -/
inductive Ending : List (List Char) → Prop
  | mk {creatures you control get change : List Char} (creatures_eq : creatures.map fold = "creatures".toList)
      (you_eq : you.map fold = "you".toList) (control_eq : control.map fold = "control".toList)
      (get_eq : get.map fold = "get".toList) (isChange : IsChange change) :
      Ending [creatures, you, control, get, change]

variable {ws : List (List Char)}

theorem Ending.isWord (h : Ending ws) : ∀ w ∈ ws, IsWord w := by
  cases h with
  | mk creatures_eq you_eq control_eq get_eq isChange =>
    simp only [List.forall_mem_cons]
    have hphrases : IsWord "creatures".toList ∧ IsWord "you".toList ∧ IsWord "control".toList ∧
        IsWord "get".toList := by
      decide
    obtain ⟨hcreatures, hyou, hcontrol, hget⟩ := hphrases
    exact ⟨hcreatures.of_fold creatures_eq, hyou.of_fold you_eq, hcontrol.of_fold control_eq,
      hget.of_fold get_eq, isChange.isWord, List.forall_mem_nil _⟩

/-- What can be targeted after "target creatures you control". -/
def yourCreature : Target := { kind := .creature, restrictions := [⟨.controller .you, false⟩] }

/-- The tail "you control" ends where the change begins. -/
theorem tail_yours {you control get : List Char} (you_eq : you.map fold = "you".toList)
    (control_eq : control.map fold = "control".toList) (get_eq : get.map fold = "get".toList)
    (change : List Char) : tail 0 (inside [you, control, get, change]) = [⟨.controller .you, false⟩] := by
  have hyou := is_of_fold you_eq (by decide) (by decide)
  have hcontrol := is_of_fold control_eq (by decide) (by decide)
  have hget := is_of_fold get_eq (by decide) (by decide)
  have hpart : tailPart? (inside [you, control] ++ inside [get, change]) =
      some (⟨.controller .you, false⟩, (inside [you, control]).length) := by
    have hwith : PhraseWord.isOneOf ⟨you, false⟩ ["with", "without"] = false := by
      rw [PhraseWord.isOneOf, hyou]
      decide
    have hyours :
        (PhraseWord.is ⟨you, false⟩ "you" && PhraseWord.is ⟨control, false⟩ "control") = true := by
      rw [hyou, hcontrol]
      decide
    simp [tailPart?, control?, inside, hwith, hyours]
  have hrest : tail 0 (inside [get, change]) = [] := by
    have hwith : PhraseWord.isOneOf ⟨get, false⟩ ["with", "without"] = false := by
      rw [PhraseWord.isOneOf, hget]
      decide
    have hyou : PhraseWord.is ⟨get, false⟩ "you" = false := by
      rw [hget]
      decide
    simp [tail, tailPart?, control?, inside, hwith, hyou]
  have hends : ∀ word ∈ inside [you, control], word.ends = false := by simp [inside]
  exact (tail_cons hends _ hpart (by simp [inside])).trans (congrArg _ hrest)

/-- Without a noun there is no phrase. -/
theorem first?_eq_none (h : ∀ w ∈ ws, TargetKind.ofNoun? w = none) : first? (inside ws) = none := by
  rw [Option.eq_none_iff_forall_ne_some]
  intro phrase hphrase
  obtain ⟨before, noun, kind, after, rfl, -, hkind, -⟩ := first?_eq_some hphrase
  rw [h noun (by simp)] at hkind
  simp at hkind

/-- A phrase starts with the noun, unless a letter beyond ASCII spoils it. -/
theorem Ending.first? (h : Ending ws) :
    Phrase.first? (inside ws) =
      if ws.head?.any (PhraseWord.is ⟨·, false⟩ "creatures") then some yourCreature else none := by
  cases h with
  | @mk creatures you control get change creatures_eq you_eq control_eq get_eq isChange =>
    have hyou : TargetKind.ofNoun? you = none := ofNoun?_of_fold (by decide) you_eq (by decide)
    have hcontrol : TargetKind.ofNoun? control = none := ofNoun?_of_fold (by decide) control_eq (by decide)
    have hget : TargetKind.ofNoun? get = none := ofNoun?_of_fold (by decide) get_eq (by decide)
    rw [List.head?_cons, Option.any_some]
    split
    · rename_i hplain
      have hnoun : TargetKind.ofNoun? creatures = some .creature := by
        rw [← ofNoun?_lower, beq_iff_eq.mp hplain]
        decide
      have hor : PhraseWord.is ⟨you, false⟩ "or" = false := by
        rw [is_of_fold you_eq (by decide) (by decide)]
        decide
      rw [first?_alone hnoun, tail_yours you_eq control_eq get_eq]
      · rfl
      · intro w hw
        obtain rfl := Option.some.inj hw
        exact ⟨hyou, hor⟩
    · rename_i hspoilt
      have hnoun : TargetKind.ofNoun? creatures = none := by
        rw [← Option.not_isSome_iff_eq_none]
        intro hsome
        have hlower := lower_of_noun (by decide) creatures_eq hsome
        exact hspoilt (beq_iff_eq.mpr hlower)
      apply first?_eq_none
      simp only [List.forall_mem_cons]
      exact ⟨hnoun, hyou, hcontrol, hget, isChange.ofNoun?_eq_none, List.forall_mem_nil _⟩

/-! ## Its phrases -/

/-- Whether some words start with "target creatures". -/
def startWithTargets : List PhraseWord → Bool
  | first :: second :: _ => first.isOneOf ["target", "targets"] && second.is "creatures"
  | _ => false

/-- Whether a text starts with "target creatures" or "other target creatures". -/
def namesTargets (s : List Char) : Bool :=
  startWithTargets (words s) || (words s).head?.any (·.is "other") && startWithTargets (words s).tail

/-- The words of a lord's sentence, where some may stand before its ending. -/
structure LordWords (others : List (List Char)) (subtype : Option (List Char))
    (ending ws : List (List Char)) : Prop where
  split : ws = others ++ (subtype.toList ++ ending)
  others : others = [] ∨ ∃ other, others = [other] ∧ other.map fold = "other".toList
  letters : ∀ w ∈ subtype, w ≠ [] ∧ ∀ c ∈ w, Phrasing.isLetter c = true
  ending : Ending ending

theorem no_mark_of_isLetter {c : Char} (h : Phrasing.isLetter c = true) :
    isBlank c = false ∧ PhraseWord.isPunctuation c = false := by
  have halphanum : (fold c).isAlphanum = true := isAlphanum_iff.mpr (.inl (.inr h))
  rw [← isBlank_fold, ← isPunctuation_fold]
  exact no_mark_of_isAlphanum halphanum

theorem startWithTargets_cons {w : List Char}
    (hfree : PhraseWord.isOneOf ⟨w, false⟩ ["target", "targets"] = false) (words : List PhraseWord) :
    startWithTargets (⟨w, false⟩ :: words) = false := by
  cases words with
  | nil => rfl
  | cons second words => rw [startWithTargets, hfree, Bool.false_and]

theorem snd_readFrom_cons {w : List Char} (hw : IsWord w) (hany : PhraseWord.is ⟨w, false⟩ "any" = false)
    (words : List PhraseWord) : (readFrom false (⟨w, false⟩ :: words)).2 = (readFrom false words).2 := by
  rw [readFrom, hany]
  simp only [hw.not_target]
  rfl

theorem LordWords.no_mark {others ending : List (List Char)} {subtype : Option (List Char)}
    (h : LordWords others subtype ending ws) :
    ∀ w ∈ ws, ∀ c ∈ w, PhraseWord.isPunctuation c = false := by
  rw [h.split]
  simp only [List.forall_mem_append]
  refine ⟨?_, ?_, fun w hw => (h.ending.isWord w hw).no_punctuation⟩
  · cases h.others with
    | inl hnone => simp [hnone]
    | inr hsome =>
      obtain ⟨other, rfl, hother⟩ := hsome
      exact List.forall_mem_singleton.mpr (IsWord.of_fold (by decide) hother).no_punctuation
  · intro w hw c hc
    exact (no_mark_of_isLetter ((h.letters w (Option.mem_toList.mp hw)).2 c hc)).2

theorem startWithTargets_of_isWord (h : ∀ w ∈ ws, IsWord w) : startWithTargets (inside ws) = false := by
  cases ws with
  | nil => rfl
  | cons w ws => exact startWithTargets_cons (h w List.mem_cons_self).not_target (inside ws)

/-- A phrase starts after the word in front of the ending, if that is "target". -/
theorem Ending.snd_readFrom_cons (h : Ending ws) (w : List Char) :
    (readFrom false (⟨w, false⟩ :: inside ws)).2 =
      if startWithTargets (⟨w, false⟩ :: inside ws) then [yourCreature] else [] := by
  have hrest : ∀ afterAny, (readFrom afterAny (inside ws)).2 = [] := readFrom_snd h.isWord
  have hfirst := h.first?
  cases h with
  | @mk creatures you control get change =>
    have hstart : startWithTargets (⟨w, false⟩ :: inside [creatures, you, control, get, change]) =
        (PhraseWord.isOneOf ⟨w, false⟩ ["target", "targets"] &&
          PhraseWord.is ⟨creatures, false⟩ "creatures") := rfl
    rw [List.head?_cons, Option.any_some] at hfirst
    rw [readFrom]
    simp only [hrest, readFrom_fst, hfirst, hstart]
    cases PhraseWord.isOneOf ⟨w, false⟩ ["target", "targets"] with
    | false => rfl
    | true => cases PhraseWord.is ⟨creatures, false⟩ "creatures" <;> rfl

namespace LordWords

variable {s : List Char} {others ending : List (List Char)} {subtype : Option (List Char)}
  (h : LordWords others subtype ending (Text.words s))

include h

theorem words_eq : words s = inside others ++ (inside subtype.toList ++ inside ending) := by
  have hall : words s = inside (Text.words s) :=
    List.map_congr_left fun w hw => ofRun_eq (h.no_mark w hw)
  rw [hall, h.split, inside, List.map_append, List.map_append]
  rfl

/-- The word "other" at the start makes no difference. -/
theorem namesTargets_eq :
    namesTargets s = startWithTargets (inside subtype.toList ++ inside ending) := by
  have hending := h.ending.isWord
  rw [namesTargets, h.words_eq]
  rcases h.others with rfl | ⟨other, rfl, hother⟩
  · have hbehind : startWithTargets (inside subtype.toList ++ inside ending).tail = false := by
      cases subtype with
      | none =>
        show startWithTargets (inside ending).tail = false
        rw [inside, ← List.map_tail]
        exact startWithTargets_of_isWord fun w hw => hending w (List.mem_of_mem_tail hw)
      | some w => exact startWithTargets_of_isWord hending
    rw [show inside [] = [] from rfl, List.nil_append, hbehind, Bool.and_false, Bool.or_false]
  · have hword : IsWord other := IsWord.of_fold (by decide) hother
    have hsame : PhraseWord.is ⟨other, false⟩ "other" = true := by
      rw [is_of_fold hother (by decide) (by decide)]
      decide
    rw [show inside [other] = [⟨other, false⟩] from rfl, List.singleton_append,
      startWithTargets_cons hword.not_target, List.head?_cons, Option.any_some, hsame, List.tail_cons,
      Bool.false_or, Bool.true_and]

/-- Then the word in front of the ending is taken for a subtype, and for the start of a phrase. -/
theorem exists_of_namesTargets (hnames : namesTargets s = true) :
    ∃ w, subtype = some w ∧ PhraseWord.isOneOf ⟨w, false⟩ ["target", "targets"] = true := by
  rw [h.namesTargets_eq] at hnames
  cases subtype with
  | none =>
    have hnone : startWithTargets (inside ending) = true := hnames
    rw [startWithTargets_of_isWord h.ending.isWord] at hnone
    exact absurd hnone Bool.false_ne_true
  | some w =>
    refine ⟨w, rfl, ?_⟩
    rw [← Bool.not_eq_false]
    intro hfree
    have hsome : startWithTargets (⟨w, false⟩ :: inside ending) = true := hnames
    rw [startWithTargets_cons hfree] at hsome
    exact Bool.false_ne_true hsome

/-- The only phrase is that of "target creatures you control". -/
theorem phrasesIn_eq : phrasesIn s = if namesTargets s then [yourCreature] else [] := by
  have hread : (readFrom false (inside subtype.toList ++ inside ending)).2 =
      if startWithTargets (inside subtype.toList ++ inside ending) then [yourCreature] else [] := by
    cases subtype with
    | none =>
      have hnone : (readFrom false (inside ending)).2 = [] := readFrom_snd h.ending.isWord false
      show (readFrom false (inside ending)).2 = if startWithTargets (inside ending) then _ else _
      rw [startWithTargets_of_isWord h.ending.isWord, hnone]
      rfl
    | some w => exact h.ending.snd_readFrom_cons w
  rw [phrasesIn, h.namesTargets_eq, h.words_eq, ← hread]
  rcases h.others with rfl | ⟨other, rfl, hother⟩
  · rfl
  · have hany : PhraseWord.is ⟨other, false⟩ "any" = false := by
      rw [is_of_fold hother (by decide) (by decide)]
      decide
    exact snd_readFrom_cons (IsWord.of_fold (by decide) hother) hany _

end LordWords

end Phrase

/-! ## Drafts of lords -/

/-- The draft of a lord, whose only target is that of the words before the ending of its sentence. -/
inductive Draft.IsLord (text : List Char) : Draft → Prop
  | mk {others ending : List (List Char)} {subtype : Option (List Char)} {pump : Effect}
      {excludesSource : Bool} (words : Phrase.LordWords others subtype ending (Text.words text))
      (untargeted : pump.targets = []) :
      IsLord text { make .static {} [pump.withTarget (Phrasing.lordTarget subtype)] with excludesSource }

namespace Phrasing

open Text.Reader Phrase

theorem reads_signedNumber : signedNumber.Reads fun _ front => IsChange front := by
  refine Reads.mono ((reads_oneChar _).bind fun sign => (reads_runs _).bind fun digits =>
    .pure (sign :: digits)) ?_
  rintro _ _ ⟨sign, _, _, rfl, ⟨rfl, hsign⟩, digits, _, _, rfl, ⟨rfl, -, hdigits⟩, rfl, rfl⟩
  refine ⟨by simp, ?_⟩
  rw [List.append_nil, List.singleton_append, List.forall_mem_cons]
  refine ⟨?_, fun c hc => ?_⟩
  · rw [Bool.or_eq_true, beq_iff_eq, beq_iff_eq] at hsign
    rcases hsign with rfl | rfl <;> decide
  · rw [isChangeChar, hdigits c hc, Bool.true_or]

/-- Two numbers with a slash between them make one word. -/
theorem isChange_of_slash {power slash toughness : List Char} (hpower : IsChange power)
    (hslash : slash.map fold = ['/']) (htoughness : IsChange toughness) :
    IsChange (power ++ (slash ++ toughness)) where
  ne_nil := by simp [hpower.ne_nil]
  chars := by
    rw [eq_of_map_fold hslash (by decide), List.forall_mem_append, List.forall_mem_append,
      List.forall_mem_singleton]
    exact ⟨hpower.chars, by decide, htoughness.chars⟩

/-- The ending of a lord's sentence has its five words. -/
theorem ending_words {front change : List Char}
    (hfront : front.map fold = "creatures you control get ".toList) (hchange : IsChange change) :
    Ending (Text.words (front ++ change)) := by
  obtain ⟨creatures, front, rfl, hcreatures, hfront⟩ := exists_of_fold_blank "creatures".toList hfront
  obtain ⟨you, front, rfl, hyou, hfront⟩ := exists_of_fold_blank "you".toList hfront
  obtain ⟨control, front, rfl, hcontrol, hfront⟩ := exists_of_fold_blank "control".toList hfront
  obtain ⟨get, front, rfl, hget, hfront⟩ := exists_of_fold_blank "get".toList hfront
  obtain rfl := List.map_eq_nil_iff.mp hfront
  have hending : Ending [creatures, you, control, get, change] := .mk hcreatures hyou hcontrol hget hchange
  have hwords := hending.isWord
  simp only [List.forall_mem_cons] at hwords
  obtain ⟨hcreatures, hyou, hcontrol, hget, hchange, -⟩ := hwords
  have hall : Text.words (creatures ++ ' ' :: (you ++ ' ' :: (control ++ ' ' :: (get ++ ' ' :: change)))) =
      [creatures, you, control, get, change] := by
    rw [words_cons hcreatures.ne_nil hcreatures.no_blank, words_cons hyou.ne_nil hyou.no_blank,
      words_cons hcontrol.ne_nil hcontrol.no_blank, words_cons hget.ne_nil hget.no_blank,
      words_eq_singleton hchange.ne_nil hchange.no_blank]
  simpa [hall] using hending

/-- A subtype and the blank after it. -/
def IsSubtype (word front : List Char) : Prop :=
  front = word ++ [' '] ∧ word ≠ [] ∧ ∀ c ∈ word, isLetter c = true

theorem reads_subtype :
    Reads IsSubtype (do let word ← runs isLetter; words " "; pure word) := by
  refine Reads.mono ((reads_runs isLetter).bind fun word => (reads_words " ").bind fun _ => .pure word) ?_
  rintro _ _ ⟨word, _, _, rfl, ⟨rfl, hne, hletters⟩, _, blank, _, rfl, hblank, rfl, rfl⟩
  have hblank : blank = [' '] := eq_of_map_fold hblank (by decide)
  exact ⟨by rw [List.append_nil, hblank], hne, hletters⟩

/-- The word for the subtype, if there is one, is a word of its own. -/
theorem reads_subtype? :
    Reads (fun subtype front => (∀ w ∈ subtype, w ≠ [] ∧ ∀ c ∈ w, isLetter c = true) ∧
      ∀ rest, Text.words (front ++ rest) = subtype.toList ++ Text.words rest)
        (maybe do let word ← runs isLetter; words " "; pure word) := by
  refine Reads.mono reads_subtype.maybe ?_
  intro subtype front h
  cases subtype with
  | none =>
    obtain rfl : front = [] := h
    exact ⟨nofun, fun rest => rfl⟩
  | some word =>
    obtain ⟨rfl, hne, hletters⟩ : IsSubtype word front := h
    constructor
    · intro w hw
      obtain rfl := Option.some.inj hw
      exact ⟨hne, hletters⟩
    · intro rest
      rw [List.append_assoc]
      exact words_cons hne (fun c hc => (no_mark_of_isLetter (hletters c hc)).1) rest

/-- So is the word "other". -/
theorem reads_other :
    Reads (fun _ front => ∃ others, (∀ rest, Text.words (front ++ rest) = others ++ Text.words rest) ∧
      (others = [] ∨ ∃ other, others = [other] ∧ other.map fold = "other".toList))
        (flag (words "other ")) := by
  refine Reads.mono (reads_words "other ").flag ?_
  intro there front h
  cases there with
  | false =>
    obtain rfl : front = [] := h
    exact ⟨[], fun rest => rfl, .inl rfl⟩
  | true =>
    obtain ⟨_, hother⟩ := h
    obtain ⟨word, back, rfl, hword, hback⟩ := exists_of_fold_blank "other".toList hother
    obtain rfl := List.map_eq_nil_iff.mp hback
    have hother : IsWord word := IsWord.of_fold (by decide) hword
    refine ⟨[word], ?_, .inr ⟨word, rfl, hword⟩⟩
    intro rest
    rw [List.append_assoc]
    exact words_cons hother.ne_nil hother.no_blank rest

theorem reads_lordPump : lordPump.reader.Reads fun draft? text => ∀ draft ∈ draft?, draft.IsLord text := by
  refine Reads.mono (reads_other.bind fun _ => reads_subtype?.bind fun _ => (reads_words _).bind fun _ =>
    reads_signedNumber.bind fun _ => (reads_words "/").bind fun _ => reads_signedNumber.bind fun _ =>
      .pure _) ?_
  rintro _ _ ⟨excludesSource, front, _, rfl, ⟨others, hother, hothers⟩, subtype, middle, _, rfl,
    ⟨hletters, hsubtype⟩, _, back, _, rfl, hback, power, powerText, _, rfl, hpower, _, slash, _, rfl, hslash,
    toughness, toughnessText, _, rfl, htoughness, rfl, rfl⟩
  intro draft hdraft
  obtain ⟨power, -, hdraft⟩ := Option.bind_eq_some_iff.mp hdraft
  obtain ⟨toughness, -, hdraft⟩ := Option.bind_eq_some_iff.mp hdraft
  obtain ⟨pump, hpump, hdraft⟩ := Option.bind_eq_some_iff.mp hdraft
  obtain rfl := Option.some.inj hdraft
  obtain ⟨packed, -, rfl⟩ := Option.map_eq_some_iff.mp hpump
  have hending := ending_words hback (isChange_of_slash hpower hslash htoughness)
  refine .mk ⟨?_, hothers, hletters, hending⟩ rfl
  rw [List.append_nil, hother, hsubtype]

end Phrasing

end CardRules
