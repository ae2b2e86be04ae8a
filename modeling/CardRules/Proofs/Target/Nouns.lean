import CardRules.Proofs.Text.Letters
import CardRules.Target.Phrase
import CardRules.Target.Written

/-!
# The two readings of a target phrase

A target phrase is read twice. `Target.ofPhrase?` takes its category from the first noun, wherever
it stands; `phrasesIn` reads the phrase word by word. Over phrases "target" and some words, without
punctuation, both categories are functions of the first noun and of the words after it: the first
reader stops at the noun, unless the phrase opens with "creature or player" or the reverse; the
second goes on from it, past type words in front of other nouns and over one "or"
(`Phrase.headKind`).

So the readers agree about a noun that stands alone (`categories_read`). They differ about "target
artifact creature", where the first reader takes the adjective for the noun.
-/

set_option autoImplicit false

namespace CardRules

namespace Phrase

/-- A word that can follow "target" in a phrase with this word only once. -/
structure IsWord (w : List Char) : Prop where
  ne_nil : w ≠ []
  no_blank : ∀ c ∈ w, Text.isBlank c = false
  no_punctuation : ∀ c ∈ w, PhraseWord.isPunctuation c = false
  not_target : PhraseWord.isOneOf ⟨w, false⟩ ["target", "targets"] = false

instance : DecidablePred IsWord := fun w =>
  decidable_of_iff
    (w ≠ [] ∧ (w.any Text.isBlank = false ∧ w.any PhraseWord.isPunctuation = false) ∧
      PhraseWord.isOneOf ⟨w, false⟩ ["target", "targets"] = false)
    (by
      rw [List.any_eq_false, List.any_eq_false]
      simp only [Bool.not_eq_true]
      exact ⟨fun ⟨hne, ⟨hblank, hpunctuation⟩, htarget⟩ => ⟨hne, hblank, hpunctuation, htarget⟩,
        fun h => ⟨h.ne_nil, ⟨h.no_blank, h.no_punctuation⟩, h.not_target⟩⟩)

/-- The phrase of some words: these words after "target". -/
def ofWords (ws : List (List Char)) : List Char := Text.joinWith [' '] ("target".toList :: ws)

variable {w : List Char} {ws : List (List Char)}

/-! ## The reading by the first noun -/

theorem ofNoun?_lower (w : List Char) :
    TargetKind.ofNoun? (Text.lower w) = TargetKind.ofNoun? w := by
  simp only [TargetKind.ofNoun?, Text.trim, Text.dropEnds_lower Text.isBlank_toLower,
    Text.sameLetters, Text.lower_lower]

theorem isPunctuation_of_letter {c : Char} (h : 65 ≤ c.toNat) :
    PhraseWord.isPunctuation c = false := by
  by_contra hc
  simp only [PhraseWord.isPunctuation, Bool.not_eq_false, Bool.or_eq_true, beq_iff_eq] at hc
  rcases hc with ((rfl | rfl) | rfl) | rfl <;> revert h <;> decide

theorem isPunctuation_toLower (c : Char) :
    PhraseWord.isPunctuation c.toLower = PhraseWord.isPunctuation c := by
  rcases Text.toLower_cases c with h | ⟨hlow, _, h⟩
  · rw [h]
  · rw [isPunctuation_of_letter hlow, isPunctuation_of_letter (by omega)]

theorem IsWord.bareWord_lower (hw : IsWord w) :
    Target.bareWord (Text.lower w) = Text.lower w := by
  refine Text.dropBack_eq_self fun c hc => ?_
  obtain ⟨d, hd, rfl⟩ := List.mem_map.1 hc
  have hletter := hw.no_punctuation d hd
  rw [← isPunctuation_toLower] at hletter
  simp_all [PhraseWord.isPunctuation]

theorem firstNoun?_joinWith (h : ∀ w ∈ ws, IsWord w) :
    Target.firstNoun? (Text.lower (Text.joinWith [' '] ws)) = ws.findSome? TargetKind.ofNoun? := by
  have hwords : Text.words (Text.joinWith [' '] (ws.map Text.lower)) = ws.map Text.lower := by
    refine Text.words_joinWith fun w hw => ?_
    obtain ⟨v, hv, rfl⟩ := List.mem_map.1 hw
    refine ⟨by simpa [Text.lower] using (h v hv).ne_nil, fun c hc => ?_⟩
    obtain ⟨d, hd, rfl⟩ := List.mem_map.1 hc
    rw [Text.isBlank_toLower, (h v hv).no_blank d hd]
  rw [Target.firstNoun?, Text.lower_joinWith, hwords, List.findSome?_map, ← List.head?_filterMap,
    ← List.head?_filterMap]
  refine congrArg List.head? (List.filterMap_congr fun w hw => ?_)
  rw [Function.comp_apply, (h w hw).bareWord_lower, ofNoun?_lower]

/-- The word "target" is as good as the others, apart from its use here. -/
theorem blanks_ofWords (h : ∀ w ∈ ws, IsWord w) :
    ∀ w ∈ "target".toList :: ws, w ≠ [] ∧ ∀ c ∈ w, Text.isBlank c = false := by
  intro w hw
  rcases List.mem_cons.1 hw with rfl | hw
  · exact ⟨by decide, Text.forall_mem_of_all (by decide)⟩
  · exact ⟨(h w hw).ne_nil, (h w hw).no_blank⟩

theorem trim_ofWords (h : ∀ w ∈ ws, IsWord w) : Text.trim (ofWords ws) = ofWords ws := by
  refine Text.trim_eq_self ?_ (Text.isBlank_getLast?_joinWith (blanks_ofWords h))
  rw [ofWords, Text.joinWith_cons]
  intro c hc
  obtain rfl : 't' = c := by simpa using hc
  decide

/-- Whether words open with "creature or player" or the reverse. -/
def opensWithPair (ws : List (List Char)) : Bool :=
  let text := Text.lower (Text.joinWith [' '] ws)
  (Text.after? "creature or player".toList text).isSome ||
    (Text.after? "player or creature".toList text).isSome

/-- The first reader takes the first noun, unless the phrase opens with a pair. -/
theorem ofPhrase?_ofWords (h : ∀ w ∈ ws, IsWord w) :
    Target.ofPhrase? (ofWords ws) =
      if opensWithPair ws then some { kind := .creatureOrPlayer }
      else (ws.findSome? TargetKind.ofNoun?).map fun kind => { kind } := by
  cases hws : ws with
  | nil => rfl
  | cons first rest =>
    rw [← hws]
    have htext : Text.lower (ofWords ws) =
        "target ".toList ++ Text.lower (Text.joinWith [' '] ws) := by
      rw [ofWords, hws, Text.joinWith, List.intercalate_cons_cons, ← Text.joinWith]
      simp [Text.lower]
    have hany : "target ".toList ++ Text.lower (Text.joinWith [' '] ws) ≠ "any target".toList := by
      simp
    have hup : Text.after? "up to ".toList
        ("target ".toList ++ Text.lower (Text.joinWith [' '] ws)) = none := by
      simp [Text.after?]
    have hafter : Target.afterTarget? ("target ".toList ++ Text.lower (Text.joinWith [' '] ws)) =
        some (Text.lower (Text.joinWith [' '] ws)) := by
      rw [Target.afterTarget?, Text.after?_append]
      rfl
    simp only [Target.ofPhrase?, trim_ofWords h, htext, if_neg hany, hup, hafter,
      Option.bind_eq_bind, Option.bind_some, firstNoun?_joinWith h]
    simp only [opensWithPair, Option.map_eq_bind]
    rfl

/-! ## The reading word by word -/

/-- The phrase that some words start with. -/
def first? (words : List PhraseWord) : Option Target := (readFrom false words).1

theorem readFrom_fst (afterAny : Bool) (words : List PhraseWord) :
    (readFrom afterAny words).1 = first? words := by
  cases words <;> rfl

theorem first?_cons (word : PhraseWord) (words : List PhraseWord) :
    first? (word :: words) = starting? word words (first? words) := by
  rw [← readFrom_fst (word.is "any") words]
  rfl

theorem ofRun_eq (h : ∀ c ∈ w, PhraseWord.isPunctuation c = false) : PhraseWord.ofRun w = ⟨w, false⟩ := by
  rw [PhraseWord.ofRun, Text.dropBack_eq_self h]
  simp

theorem readFrom_snd (h : ∀ w ∈ ws, IsWord w) (afterAny : Bool) :
    (readFrom afterAny (ws.map fun w => ⟨w, false⟩)).2 = [] := by
  induction ws generalizing afterAny with
  | nil => rfl
  | cons w ws ih =>
    rw [List.map_cons, readFrom]
    simp only [(h w (by simp)).not_target, Bool.false_eq_true, if_false]
    exact ih (fun v hv => h v (by simp [hv])) _

/-- The second reader takes the phrase after "target", which is the only one. -/
theorem phrasesIn_ofWords (h : ∀ w ∈ ws, IsWord w) :
    phrasesIn (ofWords ws) = (first? (ws.map fun w => ⟨w, false⟩)).toList := by
  have hruns : ws.map PhraseWord.ofRun = ws.map fun w => ⟨w, false⟩ :=
    List.map_congr_left fun w hw => ofRun_eq (h w hw).no_punctuation
  have htarget : PhraseWord.ofRun "target".toList = ⟨"target".toList, false⟩ := by decide
  rw [phrasesIn, words, ofWords, Text.words_joinWith (blanks_ofWords h), List.map_cons, hruns,
    htarget, readFrom]
  simp [readFrom_snd h, readFrom_fst, PhraseWord.isOneOf, PhraseWord.is, Text.sameLetters_refl]

/-- The category of a noun that may be joined to another by "or". -/
def joinedKind (kind : TargetKind) : List (List Char) → TargetKind
  | joint :: other :: _ =>
    if Text.sameLetters joint "or".toList then
      match TargetKind.ofNoun? other with
      | some otherKind => (join kind otherKind).1
      | none => kind
    else kind
  | _ => kind

/-- The category of a phrase from a noun on: a type word before another noun is an adjective. -/
def headKind (noun : List Char) (kind : TargetKind) : List (List Char) → TargetKind
  | [] => kind
  | next :: after =>
    match CardType.ofWord? noun, TargetKind.ofNoun? next with
    | some _, some nextKind => headKind next nextKind after
    | _, _ => joinedKind kind (next :: after)

theorem kind_ofNoun (noun : List Char) (kind : TargetKind) (after : List (List Char)) :
    (ofNoun ⟨noun, false⟩ kind (after.map fun w => ⟨w, false⟩)).kind = joinedKind kind after := by
  match after with
  | [] => rfl
  | [_] => rfl
  | joint :: other :: after =>
    simp only [List.map_cons, ofNoun, joinedKind, PhraseWord.noun?, PhraseWord.is]
    cases TargetKind.ofNoun? other with
    | none => simp
    | some otherKind => cases Text.sameLetters joint "or".toList <;> rfl

/-- From a noun on there is a phrase, of the category of its head. -/
theorem first?_of_noun {noun : List Char} {kind : TargetKind} (after : List (List Char))
    (hnoun : TargetKind.ofNoun? noun = some kind) :
    (first? ((noun :: after).map fun w => ⟨w, false⟩)).map Target.kind =
      some (headKind noun kind after) := by
  induction after generalizing noun kind with
  | nil =>
    rw [List.map_cons, first?_cons]
    cases ht : CardType.ofWord? noun <;>
      simp [starting?, PhraseWord.noun?, hnoun, ht, ofNoun, headKind]
  | cons next after ih =>
    rw [List.map_cons, first?_cons]
    cases ht : CardType.ofWord? noun with
    | none =>
      simp [starting?, PhraseWord.noun?, hnoun, ht, headKind, ← kind_ofNoun noun]
    | some t =>
      cases hnext : TargetKind.ofNoun? next with
      | none =>
        simp [starting?, PhraseWord.noun?, hnoun, ht, hnext, headKind, ← kind_ofNoun noun]
      | some nextKind =>
        rw [headKind, ht, hnext, ← ih hnext]
        simp [starting?, PhraseWord.noun?, hnoun, ht, hnext, Function.comp_def, qualify]

/-- The second reader finds a first noun, with only adjectives before it. -/
theorem first?_eq_some {close : Target} (h : first? (ws.map fun w => ⟨w, false⟩) = some close) :
    ∃ before noun kind after, ws = before ++ noun :: after ∧
      (∀ w ∈ before, TargetKind.ofNoun? w = none) ∧ TargetKind.ofNoun? noun = some kind ∧
      close.kind = headKind noun kind after := by
  induction ws generalizing close with
  | nil => simp [first?, readFrom] at h
  | cons w ws ih =>
    cases hw : TargetKind.ofNoun? w with
    | some kind =>
      have hkind := first?_of_noun ws hw
      rw [h] at hkind
      exact ⟨[], w, kind, ws, rfl, by simp, hw, by simpa using hkind⟩
    | none =>
      rw [List.map_cons, first?_cons] at h
      simp only [starting?, PhraseWord.noun?, hw, Bool.false_eq_true, if_false] at h
      obtain ⟨restriction, _, h⟩ := Option.bind_eq_some_iff.1 h
      obtain ⟨next, hnext, rfl⟩ := Option.map_eq_some_iff.1 h
      obtain ⟨before, noun, kind, after, rfl, hbefore, hnoun, hkind⟩ := ih hnext
      refine ⟨w :: before, noun, kind, after, rfl, ?_, hnoun, hkind⟩
      intro v hv
      rcases List.mem_cons.1 hv with rfl | hv
      · exact hw
      · exact hbefore v hv

/-! ## Agreement -/

/-- Whether no other noun follows a noun, neither directly nor after "or". -/
def standsAlone : List (List Char) → Bool
  | [] => true
  | next :: after =>
    (TargetKind.ofNoun? next).isNone &&
      !(Text.sameLetters next "or".toList && (after.head?.bind TargetKind.ofNoun?).isSome)

theorem headKind_of_standsAlone {after : List (List Char)} (h : standsAlone after)
    (noun : List Char) (kind : TargetKind) : headKind noun kind after = kind := by
  match after with
  | [] => rfl
  | [next] => 
    simp only [standsAlone, Bool.and_eq_true, Option.isNone_iff_eq_none] at h
    simp [headKind, h.1, joinedKind]
  | next :: other :: after =>
    simp only [standsAlone, Bool.and_eq_true, Option.isNone_iff_eq_none] at h
    obtain ⟨hnext, hor⟩ := h
    simp only [headKind, hnext, joinedKind]
    cases hother : TargetKind.ofNoun? other with
    | none => simp
    | some otherKind => simp_all

/-- When the readers find one target each, both categories come from the first noun and the words
after it, and they are the same if this noun stands alone. -/
theorem categories_read {basic close : Target} (hws : ∀ w ∈ ws, IsWord w)
    (hbasic : Target.ofPhrase? (ofWords ws) = some basic)
    (hclose : phrasesIn (ofWords ws) = [close]) :
    ∃ before noun kind after, ws = before ++ noun :: after ∧
      (∀ w ∈ before, TargetKind.ofNoun? w = none) ∧ TargetKind.ofNoun? noun = some kind ∧
      basic.kind = (if opensWithPair ws then .creatureOrPlayer else kind) ∧
      close.kind = headKind noun kind after ∧
      (standsAlone after → ¬ opensWithPair ws → basic.kind = close.kind) := by
  rw [phrasesIn_ofWords hws, Option.toList_eq_singleton_iff] at hclose
  obtain ⟨before, noun, kind, after, rfl, hbefore, hnoun, hkind⟩ := first?_eq_some hclose
  have hfirst : (before ++ noun :: after).findSome? TargetKind.ofNoun? = some kind :=
    List.findSome?_eq_some_iff.2 ⟨before, noun, after, rfl, hnoun, hbefore⟩
  have hbasicKind : basic.kind =
      if opensWithPair (before ++ noun :: after) then .creatureOrPlayer else kind := by
    rw [ofPhrase?_ofWords hws, hfirst, Option.map_some, ← apply_ite] at hbasic
    rw [← Option.some.inj hbasic, apply_ite Target.kind]
  refine ⟨before, noun, kind, after, rfl, hbefore, hnoun, hbasicKind, hkind, fun halone hpair => ?_⟩
  rw [hbasicKind, hkind, if_neg hpair, headKind_of_standsAlone halone]

/-- The words of "target tapped creature you control". -/
def ownTapped : List (List Char) := ["tapped", "creature", "you", "control"].map String.toList

theorem categories_read_ownTapped :
    ∃ before noun after, ownTapped = before ++ noun :: after ∧
      TargetKind.ofNoun? noun = some .creature ∧ headKind noun .creature after = .creature := by
  have hbasic : Target.ofPhrase? (ofWords ownTapped) = some { kind := .creature } := by decide
  have hclose : phrasesIn (ofWords ownTapped) =
      [{ kind := .creature, restrictions := [⟨.tapped, false⟩, ⟨.controller .you, false⟩] }] := by
    decide
  obtain ⟨before, noun, kind, after, hsplit, _, hnoun, hkind, hhead, _⟩ :=
    categories_read (by decide) hbasic hclose
  rw [if_neg (by decide)] at hkind
  subst hkind
  exact ⟨before, noun, after, hsplit, hnoun, hhead.symm⟩

/-- The words of "target artifact creature". -/
def artifactCreature : List (List Char) := ["artifact", "creature"].map String.toList

/-- The first reader takes the adjective "artifact" for the noun. -/
theorem artifactCreature_read :
    (∀ w ∈ artifactCreature, IsWord w) ∧
      Target.ofPhrase? (ofWords artifactCreature) = some { kind := .artifact } ∧
      phrasesIn (ofWords artifactCreature) =
        [{ kind := .creature, restrictions := [⟨.cardType .artifact, false⟩] }] ∧
      TargetKind.artifact ≠ TargetKind.creature := by
  decide

end Phrase

end CardRules
