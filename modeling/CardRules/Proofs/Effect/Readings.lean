import CardRules.Proofs.Effect.Openings
import CardRules.Proofs.Target.Optional

/-!
# Three kinds of clauses

A clause that is read is one of three kinds (`Reading`). It has no target and holds no joint (`Lone`); or
it ends in a fixed word and may hold anything before it (`Ended`); or it ends in a target phrase, which
runs to the end of the text whatever it is. In every case it starts with one of finitely many phrases
(`allHeads`), and stops at its end can be dropped.
-/

set_option autoImplicit false

namespace CardRules.Clause

open Text Text.Reader
open Target (isStop)

/-! ## Characters -/

/-- The code points of the blanks. -/
def blankCodes : List Nat :=
  [9, 10, 11, 12, 13, 0x20, 0x85, 0xA0, 0x1680, 0x2000, 0x2001, 0x2002, 0x2003, 0x2004, 0x2005, 0x2006,
    0x2007, 0x2008, 0x2009, 0x200A, 0x2028, 0x2029, 0x202F, 0x205F, 0x3000]

theorem toNat_mem_blankCodes {c : Char} (h : isBlank c = true) : c.toNat ∈ blankCodes := by
  simp only [isBlank, Bool.or_eq_true, Bool.and_eq_true, decide_eq_true_eq, beq_iff_eq] at h
  simp only [blankCodes, List.mem_cons, List.not_mem_nil, or_false]
  omega

theorem isWordChar_of_isBlank {c : Char} (h : isBlank c = true) : isWordChar c = false := by
  have hcode := toNat_mem_blankCodes h
  have hranges : ∀ n ∈ blankCodes,
      (wordRanges.toList.any fun range => range.1 ≤ n && n ≤ range.2) = false := by decide +kernel
  have hletters : ∀ n ∈ blankCodes,
      (Char.ofNat n).isAlphanum = false ∧ (Char.ofNat n == '_') = false := by decide
  obtain ⟨halphanum, hline⟩ := hletters _ hcode
  rw [Char.ofNat_toNat] at halphanum hline
  rw [isWordChar, halphanum, hline, ← Array.any_toList, Bool.false_or, Bool.false_or]
  exact Bool.and_eq_false_iff.mpr (.inr (hranges _ hcode))

theorem isStop_of_isWordChar {c : Char} (h : isWordChar c = true) : isStop c = false := by
  rw [← Bool.not_eq_true]
  intro hstop
  rw [isStop, Target.isMark, Bool.or_eq_true, Bool.or_eq_true, beq_iff_eq, beq_iff_eq] at hstop
  rcases hstop with hblank | rfl | rfl
  · rw [isWordChar_of_isBlank hblank] at h
    exact Bool.false_ne_true h
  · exact absurd h (by decide)
  · exact absurd h (by decide)

theorem isStop_fold (c : Char) : isStop (fold c) = isStop c :=
  apply_fold Target.isStop_toLower (by decide) (by decide) c

/-! ## Ends of clauses -/

/-- A text that does not end in a blank, a comma or a period. -/
def Shut (text : List Char) : Prop := ∀ c ∈ text.getLast?, isStop c = false

theorem Shut.append {back : List Char} (h : Shut back) (hne : back ≠ []) (front : List Char) :
    Shut (front ++ back) := by
  intro c hc
  rw [List.getLast?_append_of_ne_nil front hne] at hc
  exact h c hc

theorem shut_of_word {word : List Char} (h : ∀ c ∈ word, isWordChar c = true) : Shut word :=
  fun c hc => isStop_of_isWordChar (h c (List.mem_of_getLast? hc))

theorem Spells.shut {phrases : List String} {text : List Char} (h : Spells phrases text)
    (hshut : ∀ phrase ∈ phrases, phrase.toList.getLast?.any isStop = false) : Shut text := by
  obtain ⟨phrase, hphrase, htext⟩ := h
  intro c hc
  have hlast := hshut phrase hphrase
  rw [← htext, List.getLast?_map, Option.mem_def.mp hc, Option.map_some, Option.any_some] at hlast
  rw [← isStop_fold, hlast]

theorem Spells.ne_nil {phrases : List String} {text : List Char} (h : Spells phrases text)
    (hne : ∀ phrase ∈ phrases, phrase.toList ≠ []) : text ≠ [] := by
  obtain ⟨phrase, hphrase, htext⟩ := h
  rintro rfl
  exact hne phrase hphrase htext.symm

/-! ## Clauses without joints -/

/-- A text without commas, in which the word "and" does not occur. -/
def Unjoined (text : List Char) : Prop := ',' ∉ text ∧ "and".toList ∉ text.splitOn ' '

instance (text : List Char) : Decidable (Unjoined text) :=
  inferInstanceAs (Decidable (',' ∉ text ∧ "and".toList ∉ text.splitOn ' '))

theorem unjoined_append_blank {front back : List Char} :
    Unjoined (front ++ ' ' :: back) ↔ Unjoined front ∧ Unjoined back := by
  unfold Unjoined
  rw [List.splitOn_append_cons_self]
  simp only [List.mem_append, List.mem_cons, not_or]
  constructor
  · rintro ⟨⟨hfront, -, hback⟩, hfront', hback'⟩
    exact ⟨⟨hfront, hfront'⟩, hback, hback'⟩
  · rintro ⟨⟨hfront, hfront'⟩, hback, hback'⟩
    exact ⟨⟨hfront, by decide, hback⟩, hfront', hback'⟩

theorem unjoined_of_word {word : List Char} (hcomma : ',' ∉ word) (hblank : ' ' ∉ word)
    (hand : word ≠ "and".toList) : Unjoined word := by
  refine ⟨hcomma, ?_⟩
  rw [List.splitOn_eq_singleton hblank, List.mem_singleton]
  exact hand.symm

/-- No joint occurs in such a text. -/
theorem Unjoined.not_infix {text : List Char} (h : Unjoined (text.map fold)) {joint : String}
    (hjoint : joint ∈ joints) : ¬ joint.toList <:+: text := by
  rintro ⟨front, back, rfl⟩
  rw [List.map_append, List.map_append] at h
  simp only [joints, List.mem_cons, List.not_mem_nil, or_false] at hjoint
  rcases hjoint with rfl | rfl | rfl
  · exact h.1 (List.mem_append_left _ (List.mem_append_right _ (by decide)))
  · exact h.1 (List.mem_append_left _ (List.mem_append_right _ (by decide)))
  · rw [List.append_assoc] at h
    have hback : Unjoined ("and".toList ++ ' ' :: back.map fold) := (unjoined_append_blank.mp h).2
    exact absurd (unjoined_append_blank.mp hback).1 (by decide)

theorem Unjoined.not_suffix {text : List Char} (h : Unjoined (text.map fold)) :
    ¬ " and".toList <:+ text := by
  rintro ⟨front, rfl⟩
  rw [List.map_append] at h
  exact absurd (unjoined_append_blank.mp h).2 (by decide)

/-- A word keeps apart from what stands around it. -/
theorem unjoined_append {lead word tail : List Char}
    (hlead : lead.getLast? = some ' ' ∧ Unjoined lead.dropLast) (hword : Unjoined word)
    (htail : tail = [] ∨ tail.head? = some ' ' ∧ Unjoined tail.tail) :
    Unjoined (lead ++ (word ++ tail)) := by
  have hrest : Unjoined (word ++ tail) := by
    rcases htail with rfl | ⟨hblank, htail⟩
    · rwa [List.append_nil]
    · obtain ⟨more, rfl⟩ := List.head?_eq_some_iff.mp hblank
      exact unjoined_append_blank.mpr ⟨hword, htail⟩
  rw [← List.dropLast_append_getLast? ' ' hlead.1, List.append_assoc]
  exact unjoined_append_blank.mpr ⟨hlead.2, hrest⟩

theorem fold_ne_of_isWordChar {c : Char} (h : isWordChar c = true) : fold c ≠ ' ' ∧ fold c ≠ ',' := by
  constructor
  · intro hfold
    rw [eq_of_fold hfold (by decide)] at h
    exact absurd h (by decide)
  · intro hfold
    rw [eq_of_fold hfold (by decide)] at h
    exact absurd h (by decide)

/-- The word "and" is no amount. -/
theorem fold_ne_and {n : List Char} {amount : Int32} (h : Amount.ofText? n = some amount) :
    n.map fold ≠ "and".toList := by
  intro hand
  have hlower : lower n = ['a', 'n', 'd'] := lower_of_fold hand (by decide) (by decide)
  obtain ⟨a, more, rfl, ha, hmore⟩ := List.map_eq_cons_iff.mp hlower
  obtain ⟨b, more, rfl, hb, hmore⟩ := List.map_eq_cons_iff.mp hmore
  obtain ⟨c, more, rfl, hc, hmore⟩ := List.map_eq_cons_iff.mp hmore
  obtain rfl := List.map_eq_nil_iff.mp hmore
  have hcase (c d capital : Char) (hd : capital.toNat + 32 = d.toNat) (h : c.toLower = d) :
      c ∈ [d, capital] := by
    rw [List.mem_cons, List.mem_singleton]
    rcases toLower_cases c with hsame | ⟨-, -, hshift⟩
    · exact .inl (hsame.symm.trans h)
    · rw [h] at hshift
      exact .inr (Char.toNat_inj.mp (by omega))
  have hnone : ∀ word ∈
      ['a', 'A'].flatMap fun a => ['n', 'N'].flatMap fun b => ['d', 'D'].map fun c => [a, b, c],
      Amount.ofText? word = none := by decide
  have hword : [a, b, c] ∈
      ['a', 'A'].flatMap fun a => ['n', 'N'].flatMap fun b => ['d', 'D'].map fun c => [a, b, c] :=
    List.mem_flatMap.mpr ⟨a, hcase a 'a' 'A' rfl ha, List.mem_flatMap.mpr
      ⟨b, hcase b 'n' 'N' rfl hb, List.mem_map.mpr ⟨c, hcase c 'd' 'D' rfl hc, rfl⟩⟩⟩
  rw [hnone _ hword] at h
  simp at h

/-! ## Last words -/

/-- What stands behind the last blank. -/
def lastWord? (text : List Char) : Option (List Char) := (text.splitOn ' ').getLast?

theorem lastWord?_append_blank (front back : List Char) :
    lastWord? (front ++ ' ' :: back) = lastWord? back := by
  have hne : back.splitOn ' ' ≠ [] := List.splitOnP_ne_nil _ back
  rw [lastWord?, List.splitOn_append_cons_self, List.getLast?_append_of_ne_nil _ hne]
  rfl

/-- A text with a blank in it whose last word satisfies `p`, letter case disregarded. -/
def EndsIn (p : List Char → Bool) (text : List Char) : Prop :=
  ' ' ∈ text.map fold ∧ (lastWord? (text.map fold)).any p = true

theorem EndsIn.append {p : List Char → Bool} {back : List Char} (h : EndsIn p back)
    (front : List Char) : EndsIn p (front ++ back) := by
  obtain ⟨hblank, hlast⟩ := h
  rw [EndsIn, List.map_append]
  refine ⟨List.mem_append_right _ hblank, ?_⟩
  obtain ⟨before, after, hsplit⟩ := List.append_of_mem hblank
  rw [hsplit, lastWord?_append_blank] at hlast
  rw [hsplit, ← List.append_assoc, lastWord?_append_blank, hlast]

/-- There is one last word. -/
theorem EndsIn.and {p q : List Char → Bool} {text : List Char} (h : EndsIn p text)
    (h' : EndsIn q text) : ∃ word, p word = true ∧ q word = true := by
  obtain ⟨-, hp⟩ := h
  obtain ⟨-, hq⟩ := h'
  cases hword : lastWord? (text.map fold) with
  | none =>
    rw [hword] at hp
    exact absurd hp Bool.false_ne_true
  | some word =>
    rw [hword, Option.any_some] at hp hq
    exact ⟨word, hp, hq⟩

theorem EndsIn.not_and_suffix {p : List Char → Bool} {text : List Char} (h : EndsIn p text)
    (hp : p "and".toList = false) : ¬ " and".toList <:+ text := by
  rintro ⟨front, rfl⟩
  obtain ⟨-, hlast⟩ := h
  have hfold : " and".toList.map fold = ' ' :: "and".toList := by decide
  have hword : lastWord? "and".toList = some "and".toList := by decide
  rw [List.map_append, hfold, lastWord?_append_blank, hword, Option.any_some, hp] at hlast
  exact Bool.false_ne_true hlast

theorem Spells.endsIn {p : List Char → Bool} {phrases : List String} {text : List Char}
    (h : Spells phrases text) (hphrases : ∀ phrase ∈ phrases,
      ' ' ∈ phrase.toList ∧ (lastWord? phrase.toList).any p = true) : EndsIn p text := by
  obtain ⟨phrase, hphrase, htext⟩ := h
  rw [EndsIn, htext]
  exact hphrases phrase hphrase

theorem Framed.endsIn {p : List Char → Bool} {heads tails : List String} {word text : List Char}
    (h : Framed heads word tails text) (htails : ∀ tail ∈ tails,
      ' ' ∈ tail.toList ∧ (lastWord? tail.toList).any p = true) : EndsIn p text := by
  obtain ⟨head, tail, rfl, -, htail⟩ := h.parts
  rw [← List.append_assoc]
  exact (htail.endsIn htails).append _

/-! ## The kinds of clauses -/

/-- The phrases that stand before an amount or a change in a clause without a target. -/
def loneLeads : List String :=
  verbForms ["", "you "] "draw" ++ verbForms ["", "you "] "mill" ++ verbForms ["", "you "] "gain" ++
    verbForms ["you"] " lose" ++ glue selfTexts [" get ", " gets "]

/-- The phrases that a clause without a target starts with, apart from one about tokens. -/
def loneHeads : List String := loneLeads ++ glue ["untap "] selfTexts

/-- What stands behind an amount. -/
def nounTexts : List String := [" card", " cards", " life"]

/-- The phrases that other clauses with a fixed end start with. -/
def endedHeads : List String := ["target ", "return target ", "create "]

/-- The phrases that clauses start with which end in a target phrase. -/
def openHeads : List String :=
  dealForms ++ ["counter ", "destroy ", "exile ", "tap ", "untap target ", "untap up to "]

/-- How a clause starts shows which of the three it is. -/
theorem apart_heads :
    Apart loneHeads endedHeads ∧ Apart loneHeads openHeads ∧ Apart endedHeads openHeads := by
  decide

/-- The kinds of effects that are only made of clauses which end in a target phrase. -/
def openKinds : List EffectKind := [.dealDamage, .destroy, .counterSpell, .tap, .exile]

/-- The kinds of effects that are only made of clauses about an amount of cards or life. -/
def amountKinds : List EffectKind := [.drawCards, .gainLife, .loseLife, .mill]

theorem notMem_openKinds_of_amount {kind : EffectKind} (h : kind ∈ amountKinds) :
    kind ∉ .untap :: openKinds := by
  have hkinds : ∀ kind ∈ amountKinds, kind ∉ .untap :: openKinds := by decide
  exact hkinds kind h

/-- The last word of a clause about an amount. -/
def isNoun (word : List Char) : Bool := ["card", "cards", "life"].any fun noun => noun.toList == word

/-- The last word of a clause with a fixed end that may hold anything before it. -/
def isFixedEnd (word : List Char) : Bool :=
  word.head?.any (fun c => c == '+' || c == '-') ||
    ["turn", "combat", "hand", "hands", "token", "tokens"].any fun last => last.toList == word

theorem isFixedEnd_of_isNoun {word : List Char} (h : isNoun word = true) : isFixedEnd word = false := by
  obtain ⟨noun, hnoun, hword⟩ := List.any_eq_true.mp h
  have hnouns : ∀ noun ∈ ["card", "cards", "life"], isFixedEnd noun.toList = false := by decide
  rw [← beq_iff_eq.mp hword]
  exact hnouns noun hnoun

/-- A clause without a target that is no clause about tokens: it holds no joint. -/
structure Lone (text : List Char) (effect : Effect) : Prop where
  starts : Starts loneHeads text
  shut : Shut text
  unjoined : Unjoined (text.map fold)
  targets : effect.targets = []
  kind : effect.kind ∉ openKinds
  noun : effect.kind ∈ amountKinds → EndsIn isNoun text

/-- Another clause with a fixed end. It is about an amount and holds no joint, or may hold anything before
its last word. -/
structure Ended (text : List Char) (effect : Effect) : Prop where
  starts : Starts endedHeads text
  shut : Shut text
  made : effect.targets ≠ [] ∨ effect.kind = .createToken
  kind : effect.kind ∉ .untap :: openKinds
  last : Unjoined (text.map fold) ∧ EndsIn isNoun text ∨
    effect.kind ∉ amountKinds ∧ EndsIn isFixedEnd text

/-- What a clause reads like that is read at all. -/
inductive Reading (text : List Char) (effect : Effect) : Prop
  | lone (h : Lone text effect)
  | ended (h : Ended text effect)
  | openEnded {front lead rest : List Char} {build : Target → Option Effect}
      (opening : Opening front lead build) (split : text = front ++ rest) (line : IsLine rest)
      (made : (Target.ofPhrase? (lead ++ rest)).bind build = some effect)

theorem Spells.unjoined_tail {phrases : List String} {text : List Char} (h : Spells phrases text)
    (hphrases : ∀ phrase ∈ phrases, phrase.toList = [] ∨
      phrase.toList.head? = some ' ' ∧ Unjoined phrase.toList.tail) :
    text.map fold = [] ∨ (text.map fold).head? = some ' ' ∧ Unjoined (text.map fold).tail := by
  obtain ⟨phrase, hphrase, htext⟩ := h
  rw [htext]
  exact hphrases phrase hphrase

theorem Spells.unjoined_lead {phrases : List String} {text : List Char} (h : Spells phrases text)
    (hphrases : ∀ phrase ∈ phrases,
      phrase.toList.getLast? = some ' ' ∧ Unjoined phrase.toList.dropLast) :
    (text.map fold).getLast? = some ' ' ∧ Unjoined (text.map fold).dropLast := by
  obtain ⟨phrase, hphrase, htext⟩ := h
  rw [htext]
  exact hphrases phrase hphrase

theorem notMem_fold_of_isWord {word : List Char} (h : ∀ c ∈ word, isWordChar c = true) :
    ',' ∉ word.map fold ∧ ' ' ∉ word.map fold := by
  constructor
  · intro hmem
    obtain ⟨c, hc, hfold⟩ := List.mem_map.mp hmem
    exact (fold_ne_of_isWordChar (h c hc)).2 hfold
  · intro hmem
    obtain ⟨c, hc, hfold⟩ := List.mem_map.mp hmem
    exact (fold_ne_of_isWordChar (h c hc)).1 hfold

/-- Clauses about an amount: somebody draws, mills, gains or loses it. -/
theorem reading_of_amount {kind : EffectKind} {who : Option Target} (heads : Bool → List String)
    {nouns : List String} {n text : List Char} {effect : Effect}
    (heffect : effect ∈ (ofAmount kind n).map fun effect => effect.withTarget? who)
    (htext : Framed (heads who.isSome) n nouns text) (hkind : kind ∈ amountKinds)
    (hheads : ∀ targeted, ∀ head ∈ heads targeted,
      head.toList.getLast? = some ' ' ∧ Unjoined head.toList.dropLast)
    (hlone : heads false ⊆ loneLeads)
    (hended : ∀ head ∈ heads true, ∃ head' ∈ endedHeads, head'.toList <+: head.toList)
    (hnouns : nouns ⊆ nounTexts) : Reading text effect := by
  obtain ⟨made, hmade, rfl⟩ := Option.map_eq_some_iff.mp heffect
  obtain ⟨amount, hamount, rfl⟩ := Option.map_eq_some_iff.mp hmade
  obtain ⟨head, tail, rfl, hhead, htail⟩ := htext.parts
  have htail : Spells nounTexts tail := htail.mono hnouns
  have hshut : Shut (head ++ (n ++ tail)) := by
    rw [← List.append_assoc]
    exact (htail.shut (by decide)).append (htail.ne_nil (by decide)) _
  have hunjoined : Unjoined ((head ++ (n ++ tail)).map fold) := by
    obtain ⟨hcomma, hblank⟩ := notMem_fold_of_isWord htext.isWord
    rw [List.map_append, List.map_append]
    exact unjoined_append (hhead.unjoined_lead (hheads _))
      (unjoined_of_word hcomma hblank (fold_ne_and hamount)) (htail.unjoined_tail (by decide))
  have hlast : ∀ noun ∈ nounTexts,
      ' ' ∈ noun.toList ∧ (lastWord? noun.toList).any isNoun = true := by decide
  have hnoun := htext.endsIn fun noun hmem => hlast noun (hnouns hmem)
  have hkind' := notMem_openKinds_of_amount hkind
  cases who with
  | some target =>
    exact .ended ⟨htext.starts.shorten hended, hshut, .inl (by simp [Effect.withTarget?, Effect.withTarget,
      Effect.describe]), hkind', .inl ⟨hunjoined, hnoun⟩⟩
  | none =>
    have hlead : Spells loneLeads head := hhead.mono hlone
    refine .lone ⟨?_, hshut, hunjoined, rfl, fun hopen => hkind' (List.mem_cons_of_mem _ hopen),
      fun _ => hnoun⟩
    exact (hlead.starts.append _).mono (List.subset_append_left _ _)

theorem IsSigned.notMem_fold {text : List Char} (h : IsSigned text) :
    ',' ∉ text.map fold ∧ ' ' ∉ text.map fold := by
  obtain ⟨sign, word, rfl, hsign, -, hword⟩ := h
  have hsigns : ∀ c ∈ ['+', '-'], ',' ≠ fold c ∧ ' ' ≠ fold c := forall_mem_of_all (by decide)
  obtain ⟨hcomma, hblank⟩ := notMem_fold_of_isWord hword
  rw [List.map_cons, List.mem_cons, List.mem_cons, not_or, not_or]
  exact ⟨⟨(hsigns sign hsign).1, hcomma⟩, (hsigns sign hsign).2, hblank⟩

/-- Power and toughness make one word, which starts with a sign. -/
theorem word_of_slash {power slash toughness : List Char} (hpower : IsSigned power)
    (hslash : Spells ["/"] slash) (htoughness : IsSigned toughness) :
    ',' ∉ (power ++ (slash ++ toughness)).map fold ∧ ' ' ∉ (power ++ (slash ++ toughness)).map fold ∧
      ∃ sign ∈ ['+', '-'], ((power ++ (slash ++ toughness)).map fold).head? = some sign := by
  obtain ⟨hcomma, hblank⟩ := hpower.notMem_fold
  obtain ⟨hcomma', hblank'⟩ := htoughness.notMem_fold
  obtain ⟨_, hphrase, hslash⟩ := hslash
  rw [List.mem_singleton.mp hphrase] at hslash
  rw [List.map_append, List.map_append, hslash]
  refine ⟨by simp [hcomma, hcomma'], by simp [hblank, hblank'], ?_⟩
  obtain ⟨sign, word, rfl, hsign, -⟩ := hpower
  have hsigns : ∀ c ∈ ['+', '-'], fold c = c := forall_mem_of_all (by decide)
  refine ⟨sign, hsign, ?_⟩
  rw [List.map_cons, hsigns sign hsign]
  rfl

theorem IsChange.shut_append {text : List Char} (h : IsChange text) (front : List Char) :
    Shut (front ++ text) := by
  obtain ⟨verb, power, slash, toughness, duration, rfl, -, -, -, ⟨sign, word, rfl, -, hne, hword⟩,
    phrase, hphrase, hduration⟩ := h
  have hend : Shut (word ++ duration) := by
    rcases List.mem_cons.mp hphrase with rfl | hnamed
    · rw [List.map_eq_nil_iff.mp hduration, List.append_nil]
      exact shut_of_word hword
    · have hspells : Spells [" until end of turn", " until end of combat"] duration :=
        ⟨phrase, hnamed, hduration⟩
      exact (hspells.shut (by decide)).append (hspells.ne_nil (by decide)) word
  have hwhole := hend.append (by simp [hne]) (front ++ (verb ++ (power ++ (slash ++ [sign]))))
  simpa using hwhole

/-- The last word of a change is a duration, or power and toughness. -/
theorem IsChange.endsIn {text : List Char} (h : IsChange text) : EndsIn isFixedEnd text := by
  obtain ⟨verb, power, slash, toughness, duration, rfl, ⟨get, hget, hverb⟩, hpower, hslash, htoughness,
    phrase, hphrase, hduration⟩ := h
  rcases List.mem_cons.mp hphrase with rfl | hnamed
  · obtain rfl := List.map_eq_nil_iff.mp hduration
    obtain ⟨-, hblank, sign, hsign, hhead⟩ := word_of_slash hpower hslash htoughness
    have hsigns : ∀ c ∈ ['+', '-'], (c == '+' || c == '-') = true := forall_mem_of_all (by decide)
    have hverbs : ∀ get ∈ [" get ", " gets "], get.toList.getLast? = some ' ' := by decide
    have hsplit := List.dropLast_append_getLast? ' ' (hverbs get hget)
    rw [EndsIn, List.append_nil, List.map_append, hverb, ← hsplit, List.append_assoc,
      List.singleton_append, lastWord?_append_blank, lastWord?, List.splitOn_eq_singleton hblank]
    refine ⟨by simp, ?_⟩
    rw [List.getLast?_singleton, Option.any_some, isFixedEnd, hhead, Option.any_some, hsigns sign hsign,
      Bool.true_or]
  · have hspells : Spells [" until end of turn", " until end of combat"] duration :=
      ⟨phrase, hnamed, hduration⟩
    have hend : EndsIn isFixedEnd duration := hspells.endsIn (by decide)
    simpa using hend.append (verb ++ (power ++ (slash ++ toughness)))

/-- A permanent or a target gets a change of power and toughness. -/
theorem reading_of_change {subject change : List Char} {effect : Effect} (hkind : effect.kind = .pump)
    (hchange : IsChange change)
    (hsubject : if effect.targets = [] then Spells selfTexts subject
      else ∃ front rest, subject = front ++ rest ∧ Spells ["target "] front) :
    Reading (subject ++ change) effect := by
  have hshut : Shut (subject ++ change) := hchange.shut_append subject
  have hkind' : effect.kind ∉ .untap :: openKinds := by
    rw [hkind]
    decide
  split at hsubject
  · rename_i htargets
    obtain ⟨verb, power, slash, toughness, duration, rfl, hverb, hpower, hslash, htoughness, hduration⟩ :=
      hchange
    have hlead : Spells loneLeads (subject ++ verb) := (hsubject.append hverb).mono (by decide)
    rw [← List.append_assoc] at hshut ⊢
    have hamount : effect.kind ∉ amountKinds := by
      rw [hkind]
      decide
    refine .lone ⟨?_, hshut, ?_, htargets, fun hopen => hkind' (List.mem_cons_of_mem _ hopen),
      fun hmem => absurd hmem hamount⟩
    · exact (hlead.starts.append _).mono (List.subset_append_left _ _)
    · obtain ⟨hcomma, hblank, sign, hsign, hhead⟩ := word_of_slash hpower hslash htoughness
      have hword : Unjoined ((power ++ (slash ++ toughness)).map fold) := by
        refine unjoined_of_word hcomma hblank fun hand => ?_
        have hsigns : ∀ c ∈ ['+', '-'], some c ≠ "and".toList.head? := forall_mem_of_all (by decide)
        exact hsigns sign hsign (hhead.symm.trans (congrArg List.head? hand))
      have hwhole := unjoined_append (hlead.unjoined_lead (by decide)) hword
        (hduration.unjoined_tail (by decide))
      simpa using hwhole
  · rename_i htargets
    obtain ⟨front, rest, rfl, hfront⟩ := hsubject
    have hamount : effect.kind ∉ amountKinds := by
      rw [hkind]
      decide
    refine .ended ⟨?_, hshut, .inl htargets, hkind', .inr ⟨hamount, hchange.endsIn.append _⟩⟩
    rw [List.append_assoc]
    exact (hfront.starts.append _).mono (by decide)

theorem reading_of_selfUntap {text : List Char} (h : Spells (glue ["untap "] selfTexts) text) :
    Reading text (Effect.make .untap 1) := by
  have hunjoined : ∀ phrase ∈ glue ["untap "] selfTexts, Unjoined phrase.toList := by decide
  refine .lone ⟨h.starts.mono (List.subset_append_right _ _), h.shut (by decide), ?_, rfl, by decide,
    fun hmem => absurd hmem (by decide)⟩
  obtain ⟨phrase, hphrase, htext⟩ := h
  rw [htext]
  exact hunjoined phrase hphrase

theorem reading_of_endsOpen {heads : List String} {effect? : Option Effect} {text : List Char}
    (h : EndsOpen heads effect? text) : ∀ effect ∈ effect?, Reading text effect := by
  obtain ⟨-, front, lead, build, rest, hopening, hsplit, hline, rfl⟩ := h
  exact fun effect heffect => .openEnded hopening hsplit hline heffect

theorem reading_of_mem {rule : Rule} (h : rule ∈ rules) :
    rule.Reads fun effect? text => ∀ effect ∈ effect?, Reading text effect := by
  simp only [rules, List.mem_cons, List.not_mem_nil, or_false] at h
  rcases h with rfl | rfl | rfl | rfl | rfl | rfl | rfl | rfl | rfl | rfl | rfl | rfl | rfl
  · refine reads_draw.mono ?_
    rintro _ _ ⟨who, n, rfl, htext⟩ effect heffect
    exact reading_of_amount (fun targeted => verbForms (addressed targeted) "draw") heffect htext
      (by decide) (by decide) (by decide) (by decide) (by decide)
  · exact reads_damage.mono fun _ _ => reading_of_endsOpen
  · refine reads_gainLife.mono ?_
    rintro _ _ ⟨n, rfl, htext⟩ effect heffect
    have hnobody : effect ∈ (ofAmount .gainLife n).map fun effect => effect.withTarget? none := by
      simpa [Effect.withTarget?] using heffect
    exact reading_of_amount (fun targeted => if targeted then [] else verbForms ["", "you "] "gain")
      hnobody htext (by decide) (by decide) (by decide) (by decide) (by decide)
  · refine reads_loseLife.mono ?_
    rintro _ _ ⟨who, n, rfl, htext⟩ effect heffect
    exact reading_of_amount (fun targeted => verbForms (losers targeted) " lose") heffect htext
      (by decide) (by decide) (by decide) (by decide) (by decide)
  · refine reads_pump.mono ?_
    intro effect? text h effect heffect
    obtain ⟨hkind, subject, change, rfl, hchange, hsubject⟩ := h effect heffect
    exact reading_of_change hkind hchange hsubject
  · exact reads_destroy.mono fun _ _ => reading_of_endsOpen
  · exact reads_counter.mono fun _ _ => reading_of_endsOpen
  · exact reads_tap.mono fun _ _ => reading_of_endsOpen
  · refine reads_untap.mono ?_
    rintro effect? text (hopen | ⟨rfl, htext⟩) effect heffect
    · exact reading_of_endsOpen hopen effect heffect
    · obtain rfl := Option.some.inj heffect
      exact reading_of_selfUntap htext
  · refine reads_mill.mono ?_
    rintro _ _ ⟨who, n, rfl, htext⟩ effect heffect
    exact reading_of_amount (fun targeted => verbForms (addressed targeted) "mill") heffect htext
      (by decide) (by decide) (by decide) (by decide) (by decide)
  · exact reads_exile.mono fun _ _ => reading_of_endsOpen
  · refine reads_returnToHand.mono ?_
    rintro _ _ ⟨phrase, front, rest, back, rfl, rfl, hfront, hback⟩ effect heffect
    obtain ⟨target, -, rfl⟩ := Option.map_eq_some_iff.mp heffect
    have hkind : EffectKind.returnToHand ∉ .untap :: openKinds := by decide
    have hamount : EffectKind.returnToHand ∉ amountKinds := by decide
    rw [← List.append_assoc]
    refine .ended ⟨?_, (hback.shut (by decide)).append (hback.ne_nil (by decide)) _,
      .inl (by simp [Effect.withTarget, Effect.describe]), hkind,
      .inr ⟨hamount, (hback.endsIn (by decide)).append _⟩⟩
    rw [List.append_assoc]
    exact (hfront.starts.append _).mono (by decide)
  · refine reads_createToken.mono ?_
    rintro effect? _ ⟨front, rest, back, rfl, hmade, hfront, hback⟩ effect heffect
    have hkind := hmade effect heffect
    rw [← List.append_assoc]
    refine .ended ⟨?_, (hback.shut (by decide)).append (hback.ne_nil (by decide)) _, .inr hkind,
      by rw [hkind]; decide, .inr ⟨by rw [hkind]; decide, (hback.endsIn (by decide)).append _⟩⟩
    rw [List.append_assoc]
    exact (hfront.starts.append _).mono (by decide)

/-- A clause that is read is one of the three kinds. -/
theorem reading_of_single? {text : List Char} {effect : Effect} (h : single? text = some effect) :
    Reading text effect := by
  obtain ⟨rule, hrule, hread⟩ := List.exists_of_findSome?_eq_some h
  exact (reading_of_mem hrule).of_read? (Option.join_eq_some_iff.mp hread) effect rfl

/-! ## What follows from the kind -/

theorem Spells.notMem_feed {phrases : List String} {text : List Char} (h : Spells phrases text)
    (hphrases : ∀ phrase ∈ phrases, '\n' ∉ phrase.toList) : '\n' ∉ text := by
  obtain ⟨phrase, hphrase, htext⟩ := h
  intro hmem
  refine hphrases phrase hphrase ?_
  rw [← htext]
  exact List.mem_map.mpr ⟨'\n', hmem, by decide⟩

theorem Framed.notMem_feed {heads tails : List String} {word text : List Char}
    (h : Framed heads word tails text) (hheads : ∀ head ∈ heads, '\n' ∉ head.toList)
    (htails : ∀ tail ∈ tails, '\n' ∉ tail.toList) : '\n' ∉ text := by
  obtain ⟨head, tail, rfl, hhead, htail⟩ := h.parts
  have hword : '\n' ∉ word := fun hmem => absurd (h.isWord _ hmem) (by decide)
  simp [hhead.notMem_feed hheads, hword, htail.notMem_feed htails]

namespace Opening

variable {front lead : List Char} {build : Target → Option Effect}

theorem starts (h : Opening front lead build) : Starts openHeads front := by
  cases h with
  | damage words => exact words.starts.mono (List.subset_append_left _ _)
  | counter words => exact words.starts.shorten (by decide)
  | @named kind verb _ hverb words =>
    simp only [targetVerbs, countedVerbs, List.mem_cons, Prod.mk.injEq, List.not_mem_nil, or_false] at hverb
    rcases hverb with ⟨-, rfl⟩ | ⟨-, rfl⟩ | ⟨-, rfl⟩ | ⟨-, rfl⟩
    all_goals exact words.starts.shorten (by decide)
  | @upTo kind verb _ _ hverb words =>
    simp only [countedVerbs, List.mem_cons, Prod.mk.injEq, List.not_mem_nil, or_false] at hverb
    rcases hverb with ⟨-, rfl⟩ | ⟨-, rfl⟩
    all_goals exact words.starts.shorten (by decide)

theorem mem_targets (h : Opening front lead build) {target : Target} {effect : Effect}
    (heffect : build target = some effect) : target ∈ effect.targets := by
  cases h with
  | damage =>
    obtain ⟨made, -, rfl⟩ := Option.map_eq_some_iff.mp heffect
    exact List.mem_append_right _ (List.mem_singleton_self target)
  | counter =>
    obtain ⟨hmade, -⟩ := Option.filter_eq_some_iff.mp heffect
    obtain rfl := Option.some.inj hmade
    exact List.mem_append_right _ (List.mem_singleton_self target)
  | named | upTo =>
    obtain rfl := Option.some.inj heffect
    exact List.mem_append_right _ (List.mem_singleton_self target)

theorem kind_mem (h : Opening front lead build) {target : Target} {effect : Effect}
    (heffect : build target = some effect) : effect.kind ∈ .untap :: openKinds := by
  cases h with
  | damage =>
    obtain ⟨made, hmade, rfl⟩ := Option.map_eq_some_iff.mp heffect
    obtain ⟨amount, -, rfl⟩ := Option.map_eq_some_iff.mp hmade
    have hkind : EffectKind.dealDamage ∈ .untap :: openKinds := by decide
    exact hkind
  | counter =>
    obtain ⟨hmade, -⟩ := Option.filter_eq_some_iff.mp heffect
    obtain rfl := Option.some.inj hmade
    have hkind : EffectKind.counterSpell ∈ .untap :: openKinds := by decide
    exact hkind
  | named hverb =>
    obtain rfl := Option.some.inj heffect
    have hkinds : ∀ verb ∈ targetVerbs, verb.1 ∈ .untap :: openKinds := by decide
    exact hkinds _ hverb
  | upTo hverb =>
    obtain rfl := Option.some.inj heffect
    have hkinds : ∀ verb ∈ countedVerbs, verb.1 ∈ .untap :: openKinds := by decide
    exact hkinds _ hverb

/-- No line ends in front of the target phrase. -/
theorem notMem_feed (h : Opening front lead build) : '\n' ∉ front := by
  cases h with
  | damage words => exact words.notMem_feed (by decide) (by decide)
  | counter words => exact words.notMem_feed (by decide)
  | @named kind verb _ hverb words =>
    have hverbs : ∀ verb ∈ targetVerbs, ∀ phrase ∈ glue [verb.2] ["target "], '\n' ∉ phrase.toList := by
      decide
    exact words.notMem_feed (hverbs _ hverb)
  | @upTo kind verb _ _ hverb words =>
    have hverbs : ∀ verb ∈ countedVerbs, ∀ phrase ∈ glue [verb.2] ["up to "], '\n' ∉ phrase.toList := by
      decide
    exact words.notMem_feed (hverbs _ hverb) (by decide)

/-- Nothing is named by the words that a phrase starts with. -/
theorem ofPhrase?_lead (h : Opening front lead build) : Target.ofPhrase? lead = none := by
  cases h with
  | damage => rfl
  | counter => rfl
  | named => rfl
  | upTo _ words =>
    refine Target.ofPhrase?_upTo_target fun hspace => ?_
    have hword := words.isWord ' ' hspace
    rw [isWordChar_of_isBlank rfl] at hword
    exact Bool.false_ne_true hword

end Opening

/-- All the phrases that a clause starts with. -/
def allHeads : List String := loneHeads ++ endedHeads ++ openHeads

variable {text : List Char} {effect : Effect}

theorem Reading.starts (h : Reading text effect) : Starts allHeads text := by
  cases h with
  | lone h =>
    exact h.starts.mono fun _ hhead => List.mem_append_left _ (List.mem_append_left _ hhead)
  | ended h =>
    exact h.starts.mono fun _ hhead => List.mem_append_left _ (List.mem_append_right _ hhead)
  | openEnded opening split =>
    rw [split]
    exact (opening.starts.append _).mono fun _ hhead => List.mem_append_right _ hhead

theorem Reading.endsIn (h : Reading text effect) (hkind : effect.kind ∈ amountKinds) :
    EndsIn isNoun text := by
  cases h with
  | lone h => exact h.noun hkind
  | ended h =>
    rcases h.last with ⟨-, hnoun⟩ | ⟨hother, -⟩
    · exact hnoun
    · exact absurd hkind hother
  | openEnded opening split line made =>
    obtain ⟨target, -, hbuild⟩ := Option.bind_eq_some_iff.mp made
    exact absurd (opening.kind_mem hbuild) (notMem_openKinds_of_amount hkind)

theorem Ended.not_and_suffix (h : Ended text effect) : ¬ " and".toList <:+ text := by
  rcases h.last with ⟨hunjoined, -⟩ | ⟨-, hend⟩
  · exact hunjoined.not_suffix
  · exact hend.not_and_suffix (by decide)

/-- Stops at the end of a clause can be dropped. -/
theorem single?_of_append_stops {stops : List Char} (hstops : ∀ c ∈ stops, isStop c = true)
    (h : single? (text ++ stops) = some effect) : single? text = some effect := by
  have hshut (hend : Shut (text ++ stops)) : single? text = some effect := by
    cases hlast : stops.getLast? with
    | none => rwa [List.getLast?_eq_none_iff.mp hlast, List.append_nil] at h
    | some c =>
      have hc := hend c (by rw [List.getLast?_append, hlast]; exact Option.mem_some_self c)
      rw [hstops c (List.mem_of_getLast? hlast)] at hc
      exact absurd hc (by decide)
  cases reading_of_single? h with
  | lone hlone => exact hshut hlone.shut
  | ended hended => exact hshut hended.shut
  | @openEnded front lead rest build opening split line made =>
    obtain ⟨target, htarget, hbuild⟩ := Option.bind_eq_some_iff.mp made
    rcases List.append_eq_append_iff.mp split with ⟨past, rfl, hpast⟩ | ⟨rest', rfl, rfl⟩
    · -- then the phrase would be nothing but stops
      have hrest : ∀ c ∈ rest, isStop c = true :=
        fun c hc => hstops c (by rw [hpast]; exact List.mem_append_right past hc)
      have hlead := Target.ofPhrase?_of_append_stops hrest htarget
      rw [opening.ofPhrase?_lead] at hlead
      simp at hlead
    · rw [← List.append_assoc] at htarget
      have htarget' := Target.ofPhrase?_of_append_stops hstops htarget
      have hne : rest' ≠ [] := by
        rintro rfl
        rw [List.append_nil, opening.ofPhrase?_lead] at htarget'
        simp at htarget'
      have hline : IsLine rest' := ⟨hne, fun c hc => line.2 c (List.mem_append_left stops hc)⟩
      rw [single?_of_opening opening hline, htarget']
      exact hbuild

theorem single?_eq_none_of_not_reading (h : ∀ effect, ¬ Reading text effect) : single? text = none :=
  Option.eq_none_iff_forall_ne_some.mpr fun effect heffect => h effect (reading_of_single? heffect)

/-- A text that starts with no phrase of a clause is not read. -/
theorem single?_eq_none {heads : List String} (hapart : Apart heads allHeads)
    (hstart : Starts heads text) : single? text = none :=
  single?_eq_none_of_not_reading fun _ hread => hapart.not_starts hstart hread.starts

end CardRules.Clause
