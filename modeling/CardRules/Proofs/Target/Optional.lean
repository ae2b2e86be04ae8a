import CardRules.Proofs.Target.Trailing

/-!
# Optional targets

"up to" and a count in front of a target phrase make the target optional. The phrase is read as it is without
them (`ofPhrase?_target`, `ofPhrase?_upTo`), and the count goes to what is named (`named?_some`), but not to
a creature or player: for that pair the reading ends before the count is looked at.
-/

set_option autoImplicit false

namespace CardRules

/-! ## Amounts in upper and lower case -/

namespace Amount

open Text

theorem ofWord?_lower (s : List Char) : ofWord? (lower s) = ofWord? s := by
  unfold ofWord? trim
  simp only [dropEnds_lower isBlank_toLower, sameLetters, lower_lower]

/-- The amount a text names does not depend on its letter case. -/
theorem ofText?_lower (s : List Char) : ofText? (lower s) = ofText? s := by
  have htrim : trim (lower s) = lower (trim s) := dropEnds_lower isBlank_toLower s
  have hx : sameLetters (lower (trim s)) ['x'] = sameLetters (trim s) ['x'] := by
    rw [sameLetters, lower_lower, sameLetters]
  unfold ofText? int?
  dsimp only
  rw [htrim, hx, ofWord?_lower, integer?_lower]

end Amount

/-! ## The reading with a count and without -/

namespace Target

open Text

theorem countOf?_lower (word : List Char) : countOf? (lower word) = countOf? word := by
  unfold countOf?
  rw [Amount.ofText?_lower]

/-- A word is no name of the pair of creature and player: that has blanks in it. -/
theorem firstNoun?_ne_pair (s : List Char) : firstNoun? s ≠ some .creatureOrPlayer := by
  intro h
  obtain ⟨word, hword, hnoun⟩ := List.exists_of_findSome?_eq_some h
  have hnamed := List.find?_some hnoun
  obtain ⟨noun, hmem, hsame⟩ := List.any_eq_true.mp hnamed
  have hblanks : ∀ noun ∈ TargetKind.creatureOrPlayer.nouns, ' ' ∈ lower noun.toList := by decide
  have hblank := hblanks noun hmem
  rw [sameLetters_iff.mp hsame] at hblank
  obtain ⟨c, hc, hlower⟩ := List.mem_map.mp hblank
  have hc := no_blank_of_mem_words hword c (mem_of_mem_dropBack (mem_of_mem_trim hc))
  rw [← isBlank_toLower, hlower] at hc
  exact absurd hc (by decide)

/-- A target in front of which a count is written. -/
def withCount (count : UInt8) (target : Target) : Target :=
  if target.kind = .creatureOrPlayer then target else { target with count, required := false }

theorem named?_some (count : UInt8) (s : List Char) :
    named? (some count) s = (named? none s).map (withCount count) := by
  unfold named?
  cases startsWithPair s with
  | true => rfl
  | false =>
    cases hkind : firstNoun? s with
    | none => rfl
    | some kind =>
      have hpair : kind ≠ .creatureOrPlayer := by
        rintro rfl
        exact firstNoun?_ne_pair s hkind
      simp [withCount, hpair]

theorem upTo?_word {word : List Char} (h : ' ' ∉ word) (s : List Char) :
    upTo? (word ++ ' ' :: s) = (countOf? word).map fun count => (count, s) := by
  unfold upTo? countOf?
  rw [cut?_singleton h, Option.bind_eq_bind, Option.bind_some]
  dsimp only
  cases Amount.ofText? word with
  | none => rfl
  | some n =>
    rw [Option.bind_eq_bind, Option.bind_some, Option.bind_some]
    split
    · rfl
    · rfl

theorem ofBare?_upTo {word : List Char} (h : ' ' ∉ word) (s : List Char) :
    ofBare? ("up to ".toList ++ (word ++ ' ' :: s)) =
      (countOf? word).bind fun count => (afterTarget? s).bind (named? (some count)) := by
  have hany : "up to ".toList ++ (word ++ ' ' :: s) ≠ "any target".toList := by
    intro hany
    exact absurd (List.cons.inj hany).1 (by decide)
  rw [ofBare?, if_neg hany, counted?, after?_append]
  dsimp only
  rw [upTo?_word h]
  cases countOf? word with
  | none => rfl
  | some count => rfl

theorem ofBare?_target (s : List Char) : ofBare? ("target".toList ++ s) =
    (afterTarget? ("target".toList ++ s)).bind (named? none) := by
  have hany : "target".toList ++ s ≠ "any target".toList := by
    intro hany
    exact absurd (List.cons.inj hany).1 (by decide)
  rw [ofBare?, if_neg hany]
  rfl

/-- A phrase that starts with "target" as it is read, without the blanks at its end. -/
def bareTarget (rest : List Char) : List Char :=
  "target".toList ++ lower (dropBack isBlank (' ' :: rest))

theorem ofPhrase?_target (rest : List Char) : ofPhrase? ("target ".toList ++ rest) =
    (afterTarget? (bareTarget rest)).bind (named? none) := by
  have htrim : trim ("target".toList ++ ' ' :: rest) = "target".toList ++ dropBack isBlank (' ' :: rest) :=
    trim_append_of_ends rfl rfl rfl rfl (' ' :: rest)
  have hphrase : "target ".toList ++ rest = "target".toList ++ ' ' :: rest := rfl
  rw [ofPhrase?_eq, hphrase, htrim, lower_append]
  exact ofBare?_target _

theorem ofPhrase?_upTo {n : List Char} (hn : ' ' ∉ n) (rest : List Char) :
    ofPhrase? ("up to ".toList ++ n ++ ' ' :: ("target ".toList ++ rest)) =
      (countOf? n).bind fun count => (afterTarget? (bareTarget rest)).bind (named? (some count)) := by
  have hlast : ("up to ".toList ++ (n ++ ' ' :: "target".toList)).getLast? = some 't' := by
    rw [← List.append_assoc, List.getLast?_append]
    rfl
  have htrim := trim_append_of_ends rfl hlast rfl rfl (' ' :: rest)
  have hwhole : "up to ".toList ++ (n ++ ' ' :: "target".toList) ++ ' ' :: rest =
      "up to ".toList ++ n ++ ' ' :: ("target ".toList ++ rest) := by
    simp
  have hlower : lower ("up to ".toList ++ (n ++ ' ' :: "target".toList) ++ dropBack isBlank (' ' :: rest)) =
      "up to ".toList ++ (lower n ++ ' ' :: bareTarget rest) := by
    rw [lower_append, lower_append, lower_append, List.append_assoc, List.append_assoc]
    rfl
  have hblank : ' ' ∉ lower n := by
    intro hmem
    obtain ⟨c, hc, hlower⟩ := List.mem_map.mp hmem
    exact hn (eq_of_toLower hlower (by decide) ▸ hc)
  rw [ofPhrase?_eq, ← hwhole, htrim, hlower, ofBare?_upTo hblank, countOf?_lower]

/-- A count without anything named behind it is no target phrase. -/
theorem ofPhrase?_upTo_target {n : List Char} (hn : ' ' ∉ n) :
    ofPhrase? ("up to ".toList ++ n ++ [' '] ++ "target ".toList) = none := by
  have hread := ofPhrase?_upTo hn []
  have hnone : afterTarget? (bareTarget []) = none := by decide
  rw [hnone, List.append_nil] at hread
  rw [List.append_assoc, List.singleton_append, hread]
  cases countOf? n with
  | none => rfl
  | some count => rfl

/-- A count in front of a target phrase is carried over to what the phrase names and makes it optional. Only a
creature or player stays one that has to be chosen, whatever the count. -/
theorem optional_count_carried {n : List Char} {v : Int32} (hn : ' ' ∉ n) (hv : Amount.ofText? n = some v)
    (hrange : 0 ≤ v.toInt ∧ v.toInt ≤ 255) (rest : List Char) :
    ofPhrase? ("up to ".toList ++ n ++ ' ' :: ("target ".toList ++ rest)) =
      (ofPhrase? ("target ".toList ++ rest)).map fun target =>
        if target.kind = .creatureOrPlayer then target
        else { target with count := UInt8.ofNat v.toInt.toNat, required := false } := by
  have hcount : countOf? n = some (UInt8.ofNat v.toInt.toNat) := by
    unfold countOf?
    rw [hv, Option.bind_some, if_pos hrange]
  rw [ofPhrase?_upTo hn, hcount, Option.bind_some, ofPhrase?_target]
  cases afterTarget? (bareTarget rest) with
  | none => rfl
  | some name => exact named?_some _ name

/-- Capitals, a comma and restrictions behind the count. -/
theorem optional_count_carried_twoLands :
    ' ' ∉ "TWO".toList ∧ Amount.ofText? "TWO".toList = some 2 ∧
      ofPhrase? "target Tapped lands, and more".toList = some { kind := .land } ∧
      ofPhrase? "up to TWO target Tapped lands, and more".toList =
        some { kind := .land, count := 2, required := false } := by
  have hn : ' ' ∉ "TWO".toList := by decide
  have hv : Amount.ofText? "TWO".toList = some 2 := by decide +kernel
  have hland : ofPhrase? "target Tapped lands, and more".toList = some { kind := .land } := by decide +kernel
  have hcarried := optional_count_carried hn hv (by decide) "Tapped lands, and more".toList
  refine ⟨hn, hv, hland, ?_⟩
  rw [show "target ".toList ++ "Tapped lands, and more".toList = "target Tapped lands, and more".toList from rfl,
    hland] at hcarried
  exact hcarried

/-- The pair of creature and player does not take the count, and stays required. -/
theorem pair_keeps_no_count :
    Amount.ofText? "two".toList = some 2 ∧
      ofPhrase? "target creature or player".toList = some { kind := .creatureOrPlayer } ∧
      ofPhrase? "up to two target creature or player".toList = some { kind := .creatureOrPlayer } ∧
      (some { kind := .creatureOrPlayer } : Option Target) ≠
        some { kind := .creatureOrPlayer, count := 2, required := false } := by
  decide +kernel

end Target

end CardRules
