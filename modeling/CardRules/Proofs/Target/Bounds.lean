import CardRules.Proofs.Target.Spoken

/-!
# Bounds in target phrases

A restriction of power, toughness or mana value to a bound comes from one place of the text: the measure,
and right behind it the word that names the bound. Nothing else that a target phrase is read for compares
numbers, so the word can be followed from the tail of a phrase to the text that the phrase stands in
(`allBounded_of_mem_phrasesIn`).
-/

set_option autoImplicit false

namespace CardRules.Phrase

open Text

/-- Among the words the measure is named, and then the number. -/
def Names (measure : Measure) (number : List Char) (ws : List PhraseWord) : Prop :=
  ∃ front names word back, ws = front ++ (names ++ word :: back) ∧
    names.map (fun name : PhraseWord => lower name.text) = measure.words ∧ word.text = number

/-- If the trait compares a measure with a bound, the words name the two. -/
def Bounded (ws : List PhraseWord) (trait : Trait) : Prop :=
  ∀ measure comparison n, trait = Measure.trait measure comparison n →
    ∃ number, Names measure number ws ∧ Amount.ofText? number = some n

/-- All restrictions of a target do so that compare. -/
def AllBounded (ws : List PhraseWord) (target : Target) : Prop :=
  ∀ restriction ∈ target.restrictions, Bounded ws restriction.trait

theorem Names.append {measure : Measure} {number : List Char} {ws : List PhraseWord}
    (h : Names measure number ws) (front : List PhraseWord) : Names measure number (front ++ ws) := by
  obtain ⟨lead, names, word, back, rfl, hnames, hword⟩ := h
  exact ⟨front ++ lead, names, word, back, by simp, hnames, hword⟩

theorem Bounded.append {ws : List PhraseWord} {trait : Trait} (h : Bounded ws trait)
    (front : List PhraseWord) : Bounded (front ++ ws) trait := by
  intro measure comparison n htrait
  obtain ⟨number, hnames, hread⟩ := h measure comparison n htrait
  exact ⟨number, hnames.append front, hread⟩

theorem AllBounded.append {ws : List PhraseWord} {target : Target} (h : AllBounded ws target)
    (front : List PhraseWord) : AllBounded (front ++ ws) target :=
  fun restriction hmem => (h restriction hmem).append front

/-- Whether a trait compares a measure with a bound. -/
def compares : Trait → Bool
  | .power _ _ | .toughness _ _ | .manaValue _ _ => true
  | _ => false

theorem bounded_of_not_compares {ws : List PhraseWord} {trait : Trait} (h : compares trait = false) :
    Bounded ws trait := by
  intro measure comparison n htrait
  rw [htrait] at h
  cases measure with
  | power | toughness | manaValue => exact absurd h.symm Bool.false_ne_true

/-! ## The tail of a phrase -/

theorem comparison?_eq_some {ws : List PhraseWord} {c : Comparison} {n : Int32} {used : Nat}
    (h : comparison? ws = some (c, n, used)) :
    ∃ word back, ws = word :: back ∧ Amount.ofText? word.text = some n := by
  cases ws with
  | nil => simp [comparison?] at h
  | cons word back =>
    obtain ⟨m, hm, h⟩ := Option.bind_eq_some_iff.mp h
    have hsame : m = n := by
      split at h
      · split at h
        · exact congrArg (·.2.1) (Option.some.inj h)
        · split at h
          · exact congrArg (·.2.1) (Option.some.inj h)
          · exact congrArg (·.2.1) (Option.some.inj h)
      · exact congrArg (·.2.1) (Option.some.inj h)
    exact ⟨word, back, rfl, hsame ▸ hm⟩

/-- A measure that is named is compared with the number behind it. -/
theorem bounded_of_comparison? (measure : Measure) (names : List PhraseWord) {ws : List PhraseWord}
    {trait : Trait} {used skipped : Nat}
    (hnames : names.map (fun name : PhraseWord => lower name.text) = measure.words)
    (h : (comparison? ws).map (fun (c, n, used) => (measure.trait c n, used + skipped)) = some (trait, used)) :
    Bounded (names ++ ws) trait := by
  obtain ⟨⟨c, n, count⟩, hcomparison, hsame⟩ := Option.map_eq_some_iff.mp h
  obtain ⟨word, back, rfl, hread⟩ := comparison?_eq_some hcomparison
  intro measure' comparison m htrait
  have htrait : measure.trait c n = measure'.trait comparison m := (congrArg Prod.fst hsame).trans htrait
  obtain ⟨rfl, rfl⟩ : measure = measure' ∧ n = m := by
    cases measure <;> cases measure' <;> simp_all [Measure.trait]
  exact ⟨word.text, ⟨[], names, word, back, rfl, hnames, rfl⟩, hread⟩

theorem bounded_of_keyword? {ws : List PhraseWord} {s : List Char} {trait : Trait} {skipped used : Nat}
    (h : ((Keyword.ofText? s).map fun k => (Trait.keyword k, skipped)) = some (trait, used)) :
    Bounded ws trait := by
  obtain ⟨keyword, -, hsame⟩ := Option.map_eq_some_iff.mp h
  obtain rfl : Trait.keyword keyword = trait := congrArg Prod.fst hsame
  exact bounded_of_not_compares rfl

theorem bounded_of_quality? {ws : List PhraseWord} {trait : Trait} {used : Nat}
    (h : quality? ws = some (trait, used)) : Bounded ws trait := by
  have hname {word : PhraseWord} {name : String} (hword : word.is name = true)
      (hlower : lower name.toList = name.toList) : lower word.text = name.toList :=
    (sameLetters_iff.mp hword).trans hlower
  cases ws with
  | nil => simp [quality?] at h
  | cons first rest =>
    unfold quality? at h
    dsimp only at h
    split at h
    · rename_i hpower
      exact bounded_of_comparison? .power [first] (congrArg ([·]) (hname hpower rfl)) h
    split at h
    · rename_i htoughness
      exact bounded_of_comparison? .toughness [first] (congrArg ([·]) (hname htoughness rfl)) h
    split at h
    · exact bounded_of_keyword? h
    · rename_i second rest
      split at h
      · rename_i hvalue
        obtain ⟨hmana, hvalue⟩ := Bool.and_eq_true_iff.mp hvalue
        refine bounded_of_comparison? .manaValue [first, second] ?_ h
        rw [List.map_cons, List.map_singleton, hname hmana rfl, hname hvalue rfl]
        rfl
      · rcases Option.or_eq_some_iff.mp ((Option.orElse_eq_or ..).symm.trans h) with htwo | ⟨-, hone⟩
        · exact bounded_of_keyword? htwo
        · exact bounded_of_keyword? hone

/-- What restricts the controller compares nothing. -/
theorem bounded_of_control? {ws : List PhraseWord} {restriction : Restriction} {used : Nat}
    (h : control? ws = some (restriction, used)) : Bounded ws restriction.trait := by
  have hcontroller {who : Control} {negated : Bool} {count : Nat}
      (hsame : some (⟨.controller who, negated⟩, count) = some (restriction, used)) :
      Bounded ws restriction.trait := by
    obtain rfl : (⟨.controller who, negated⟩ : Restriction) = restriction :=
      congrArg Prod.fst (Option.some.inj hsame)
    exact bounded_of_not_compares rfl
  unfold control? at h
  split at h
  · split at h
    · exact hcontroller h
    split at h
    · simp at h
    split at h
    · exact hcontroller h
    split at h
    · exact hcontroller h
    · simp at h
  · simp at h

theorem bounded_of_tailPart? {ws : List PhraseWord} {restriction : Restriction} {used : Nat}
    (h : tailPart? ws = some (restriction, used)) : Bounded ws restriction.trait := by
  cases ws with
  | nil => simp [tailPart?] at h
  | cons first rest =>
    unfold tailPart? at h
    dsimp only at h
    split at h
    · obtain ⟨⟨trait, count⟩, hquality, hsame⟩ := Option.map_eq_some_iff.mp h
      obtain rfl : (⟨trait, first.is "without"⟩ : Restriction) = restriction := congrArg Prod.fst hsame
      exact (bounded_of_quality? hquality).append [first]
    · exact bounded_of_control? h

theorem bounded_of_mem_tail {skip : Nat} {ws : List PhraseWord} {restriction : Restriction}
    (h : restriction ∈ tail skip ws) : Bounded ws restriction.trait := by
  induction ws generalizing skip with
  | nil => simp [tail] at h
  | cons word ws ih =>
    cases skip with
    | succ skip => exact (ih h).append [word]
    | zero =>
      rw [tail] at h
      split at h
      · exact absurd h List.not_mem_nil
      · rename_i part used hpart
        have hfirst := bounded_of_tailPart? hpart
        split at h
        · rw [List.mem_singleton.mp h]
          exact hfirst
        · rcases List.mem_cons.mp h with rfl | hmore
          · exact hfirst
          · exact (ih hmore).append [word]

/-! ## The phrase -/

theorem not_compares_of_made {made restriction : Restriction} (h : some made = some restriction)
    (hmade : compares made.trait = false) : compares restriction.trait = false :=
  Option.some.inj h ▸ hmade

theorem not_compares_of_negated? {word : PhraseWord} {restriction : Restriction}
    (h : negated? word = some restriction) : compares restriction.trait = false := by
  obtain ⟨rest, -, h⟩ := Option.bind_eq_some_iff.mp h
  dsimp only at h
  split at h
  · exact not_compares_of_made h rfl
  · exact not_compares_of_made h rfl
  · exact not_compares_of_made (Option.ite_none_right_eq_some.mp h).2 rfl

theorem not_compares_of_plain? {word : PhraseWord} {restriction : Restriction}
    (h : plain? word = some restriction) : compares restriction.trait = false := by
  unfold plain? at h
  split at h
  · exact not_compares_of_made h rfl
  split at h
  · exact not_compares_of_made h rfl
  split at h
  · exact not_compares_of_made h rfl
  split at h
  · exact not_compares_of_made h rfl
  · exact not_compares_of_made (Option.ite_none_right_eq_some.mp h).2 rfl

/-- No adjective compares. -/
theorem not_compares_of_adjective? {word : PhraseWord} {restriction : Restriction}
    (h : adjective? word = some restriction) : compares restriction.trait = false := by
  rcases Option.or_eq_some_iff.mp ((Option.orElse_eq_or ..).symm.trans h) with hnegated | ⟨-, hplain⟩
  · exact not_compares_of_negated? hnegated
  · exact not_compares_of_plain? hplain

theorem AllBounded.qualify {ws : List PhraseWord} {phrase : Target} (h : AllBounded ws phrase)
    {restriction : Restriction} (hnew : compares restriction.trait = false) :
    AllBounded ws (qualify restriction phrase) := by
  intro other hother
  rcases List.mem_cons.mp hother with rfl | hmem
  · exact bounded_of_not_compares hnew
  · exact h other hmem

/-- The restrictions of a tail, or none where punctuation ends the phrase. -/
theorem bounded_of_mem_tail_unless {ends : Bool} {ws : List PhraseWord} {restriction : Restriction}
    (h : restriction ∈ if ends then [] else tail 0 ws) : Bounded ws restriction.trait := by
  split at h
  · exact absurd h List.not_mem_nil
  · exact bounded_of_mem_tail h

theorem not_compares_of_mem_join {a b : TargetKind} {restriction : Restriction}
    (h : restriction ∈ (join a b).2) : compares restriction.trait = false := by
  unfold join at h
  split at h
  · exact absurd h List.not_mem_nil
  · exact absurd h List.not_mem_nil
  · rw [List.mem_singleton.mp h]
    rfl

theorem allBounded_ofNoun (word : PhraseWord) (kind : TargetKind) (rest : List PhraseWord) :
    AllBounded rest (ofNoun word kind rest) := by
  have halone : AllBounded rest { kind, restrictions := if word.ends then [] else tail 0 rest } :=
    fun _ hmem => bounded_of_mem_tail_unless hmem
  unfold ofNoun
  dsimp only
  split
  · rename_i joint other after
    split
    · split
      · intro restriction hmem
        rcases List.mem_append.mp hmem with hextra | htail
        · exact bounded_of_not_compares (not_compares_of_mem_join hextra)
        · exact (bounded_of_mem_tail_unless htail).append [joint, other]
      · exact halone
    · exact halone
  · exact halone

theorem allBounded_starting? {word : PhraseWord} {rest : List PhraseWord} {next : Option Target}
    {target : Target} (hnext : ∀ phrase ∈ next, AllBounded rest phrase)
    (h : starting? word rest next = some target) : AllBounded rest target := by
  have hqualified {restriction : Restriction} (hnew : compares restriction.trait = false)
      (h : next.map (qualify restriction) = some target) : AllBounded rest target := by
    obtain ⟨phrase, hphrase, rfl⟩ := Option.map_eq_some_iff.mp h
    exact (hnext phrase hphrase).qualify hnew
  unfold starting? at h
  dsimp only at h
  split at h
  · split at h
    · exact hqualified rfl h
    · rw [← Option.some.inj h]
      exact allBounded_ofNoun word _ rest
  · rw [← Option.some.inj h]
    exact allBounded_ofNoun word _ rest
  · split at h
    · simp at h
    · obtain ⟨restriction, hadjective, h⟩ := Option.bind_eq_some_iff.mp h
      exact hqualified (not_compares_of_adjective? hadjective) h

/-- Whatever phrase is read from some words, its bounds are named among them. -/
theorem allBounded_readFrom (afterAny : Bool) (ws : List PhraseWord) :
    (∀ phrase ∈ (readFrom afterAny ws).1, AllBounded ws phrase) ∧
      ∀ target ∈ (readFrom afterAny ws).2, AllBounded ws target := by
  induction ws generalizing afterAny with
  | nil => exact ⟨by simp [readFrom], by simp [readFrom]⟩
  | cons word ws ih =>
    obtain ⟨hnext, hmore⟩ := ih (word.is "any")
    rw [readFrom]
    refine ⟨fun phrase hphrase => (allBounded_starting? hnext hphrase).append [word], ?_⟩
    intro target htarget
    dsimp only at htarget
    have hlater (hmem : target ∈ (readFrom (word.is "any") ws).2) : AllBounded (word :: ws) target :=
      (hmore target hmem).append [word]
    split at htarget
    · split at htarget
      · rcases List.mem_cons.mp htarget with rfl | hmem
        · exact fun restriction hnone => absurd hnone List.not_mem_nil
        · exact hlater hmem
      split at htarget
      · exact hlater htarget
      · rcases List.mem_append.mp htarget with hhere | hmem
        · exact (hnext target (Option.mem_toList.mp hhere)).append [word]
        · exact hlater hmem
    · exact hlater htarget

theorem allBounded_of_mem_phrasesIn {s : List Char} {target : Target} (h : target ∈ phrasesIn s) :
    AllBounded (words s) target :=
  (allBounded_readFrom false (words s)).2 target h

end CardRules.Phrase
