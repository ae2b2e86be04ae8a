import CardRules.Proofs.Target.Nouns

/-!
# Target phrases that are written out are read back

A target phrase has a plan: adjectives, card types, a noun, and a tail of further restrictions
(`Spoken`). Its words are those of its parts, one part after the other, and what it means is put
together in the same way. Reading the words gives the meaning back, whatever stands next to what
(`phrasesIn_text`): an adjective is known by itself, a type by the noun behind it, and each part of the
tail ends before one of the four words that a part can start with (`openers`).
-/

set_option autoImplicit false

namespace CardRules

namespace Phrase

/-! ## What can be said -/

/-- A word that is a subtype in front of a noun: it is capitalized, of letters only, and there is nothing
else that it could mean. -/
structure IsSubtypeWord (w : List Char) : Prop where
  capitalized : w.head?.any Char.isUpper = true
  letters : w.all Char.isAlpha = true
  no_color : Color.ofWord? w = none
  no_noun : TargetKind.ofNoun? w = none
  not_negated : Text.after? "non".toList (Text.lower w) = none
  unreserved : PhraseWord.isOneOf ⟨w, false⟩ ["target", "targets", "tapped", "untapped", "other", "another",
    "attacking", "blocking"] = false

/-- What can stand in front of the types and the noun of a phrase. -/
inductive Lead where
  | color (color : Color)
  | notColor (color : Color)
  | notType (type : CardType)
  | tapped
  | untapped
  | subtype (word : List Char) (isWord : IsSubtypeWord word)

/-- What a number is compared with. -/
inductive Measure where
  | power
  | toughness
  | manaValue

/-- How a number can be compared with a bound in rules text. -/
inductive Bound where
  | exactly
  | atMost
  | atLeast

/-- What can be said after "with" and "without". -/
inductive Quality where
  | measured (measure : Measure) (bound : Bound) (n : Int32) (nonneg : 0 ≤ n.toInt)
  | keyword (keyword : Keyword) (plain : keyword ∈ Keyword.plain)

/-- What can stand behind the noun of a phrase. -/
inductive Tail where
  | quality (without : Bool) (quality : Quality)
  | yours
  | notYours
  | opponents

/-- A target phrase by its parts. -/
structure Spoken where
  leads : List Lead
  types : List CardType
  permanent : ∀ type ∈ types, type.isPermanent = true
  noun : TargetKind
  plain : noun ≠ .any ∧ noun ≠ .creatureOrPlayer
  tails : List Tail

/-! ## How it is written, and what it means -/

namespace Lead

def word : Lead → List Char
  | color c => Text.lower c.name.toList
  | notColor c => "non".toList ++ Text.lower c.name.toList
  | notType t => "non".toList ++ Text.lower t.name.toList
  | tapped => "tapped".toList
  | untapped => "untapped".toList
  | subtype w _ => w

def restriction : Lead → Restriction
  | color c => ⟨.color c, false⟩
  | notColor c => ⟨.color c, true⟩
  | notType t => ⟨.cardType t, true⟩
  | tapped => ⟨.tapped, false⟩
  | untapped => ⟨.untapped, false⟩
  | subtype w _ => ⟨.subtype (String.ofList w), false⟩

end Lead

namespace Measure

def words : Measure → List (List Char)
  | power => ["power".toList]
  | toughness => ["toughness".toList]
  | manaValue => ["mana".toList, "value".toList]

def trait : Measure → Comparison → Int32 → Trait
  | power => .power
  | toughness => .toughness
  | manaValue => .manaValue

end Measure

namespace Bound

def words : Bound → List (List Char)
  | exactly => []
  | atMost => ["or".toList, "less".toList]
  | atLeast => ["or".toList, "greater".toList]

def comparison : Bound → Comparison
  | exactly => .equal
  | atMost => .lessOrEqual
  | atLeast => .greaterOrEqual

end Bound

namespace Quality

def words : Quality → List (List Char)
  | measured measure bound n _ => measure.words ++ Text.digits n.toInt.toNat :: bound.words
  | keyword k _ => Text.words (Text.lower k.text.toList)

def trait : Quality → Trait
  | measured measure bound n _ => measure.trait bound.comparison n
  | keyword k _ => .keyword k

end Quality

namespace Tail

def words : Tail → List (List Char)
  | quality false q => "with".toList :: q.words
  | quality true q => "without".toList :: q.words
  | yours => ["you".toList, "control".toList]
  | notYours => ["you".toList, "don't".toList, "control".toList]
  | opponents => ["an".toList, "opponent".toList, "controls".toList]

def restriction : Tail → Restriction
  | quality without q => ⟨q.trait, without⟩
  | yours => ⟨.controller .you, false⟩
  | notYours => ⟨.controller .you, true⟩
  | opponents => ⟨.controller .opponent, false⟩

end Tail

/-- The word for a card type in front of a noun. -/
def typeWord (type : CardType) : List Char := Text.lower type.name.toList

namespace Spoken

variable (phrase : Spoken)

/-- The words of a phrase after "target". -/
def words : List (List Char) :=
  phrase.leads.map Lead.word ++ (phrase.types.map typeWord ++
    phrase.noun.text.toList :: phrase.tails.flatMap Tail.words)

def text : List Char := ofWords phrase.words

def target : Target where
  kind := phrase.noun
  restrictions := phrase.leads.map Lead.restriction ++
    (phrase.types.map (fun type => ⟨.cardType type, false⟩) ++ phrase.tails.map Tail.restriction)

end Spoken

/-! ## Words of a phrase -/

/-- Letters and digits neither separate words nor end a phrase. -/
theorem no_mark_of_isAlphanum {c : Char} (h : c.isAlphanum = true) :
    Text.isBlank c = false ∧ PhraseWord.isPunctuation c = false := by
  have hrange : 48 ≤ c.toNat ∧ c.toNat ≤ 57 ∨ 65 ≤ c.toNat ∧ c.toNat ≤ 122 := by
    rw [Text.isAlphanum_iff, Text.isUpper_iff, Text.isLower_iff, Text.isDigit_iff] at h
    omega
  constructor
  · rw [← Bool.not_eq_true]
    intro hblank
    simp only [Text.isBlank, Bool.or_eq_true, Bool.and_eq_true, decide_eq_true_eq, beq_iff_eq] at hblank
    omega
  · rw [← Bool.not_eq_true]
    intro hmark
    simp only [PhraseWord.isPunctuation, Bool.or_eq_true, beq_iff_eq] at hmark
    rcases hmark with ((rfl | rfl) | rfl) | rfl <;> revert hrange <;> decide

theorem isWord_of_isAlphanum {w : List Char} (hne : w ≠ []) (h : ∀ c ∈ w, c.isAlphanum = true)
    (hfree : PhraseWord.isOneOf ⟨w, false⟩ ["target", "targets"] = false) : IsWord w where
  ne_nil := hne
  no_blank c hc := (no_mark_of_isAlphanum (h c hc)).1
  no_punctuation c hc := (no_mark_of_isAlphanum (h c hc)).2
  not_target := hfree

namespace IsSubtypeWord

variable {w : List Char} (h : IsSubtypeWord w)

include h

theorem is_eq_false {other : String} (hother : other ∈ ["target", "targets", "tapped", "untapped", "other",
    "another", "attacking", "blocking"]) : PhraseWord.is ⟨w, false⟩ other = false := by
  have hnone := List.any_eq_false.mp h.unreserved other hother
  simpa using hnone

theorem isWord : IsWord w := by
  refine isWord_of_isAlphanum ?_ (fun c hc => ?_) ?_
  · rintro rfl
    exact absurd h.capitalized (by decide)
  · rw [Char.isAlphanum, List.all_eq_true.mp h.letters c hc, Bool.true_or]
  · simp [PhraseWord.isOneOf, h.is_eq_false]

/-- It is read as a subtype. -/
theorem adjective? : Phrase.adjective? ⟨w, false⟩ = some ⟨.subtype (String.ofList w), false⟩ := by
  have hnegated : negated? ⟨w, false⟩ = none := by
    unfold negated?
    rw [h.not_negated]
    rfl
  have hplain : plain? ⟨w, false⟩ = some ⟨.subtype (String.ofList w), false⟩ := by
    simp [plain?, PhraseWord.isOneOf, h.is_eq_false, h.no_color, PhraseWord.isCapitalized, h.capitalized,
      PhraseWord.noun?, h.no_noun]
  rw [Phrase.adjective?, hnegated, hplain]
  rfl

end IsSubtypeWord

theorem Lead.isWord (lead : Lead) : IsWord lead.word := by
  cases lead with
  | color c => cases c <;> decide
  | notColor c => cases c <;> decide
  | notType t => cases t <;> decide
  | tapped | untapped => decide
  | subtype w h => exact h.isWord

theorem isWord_typeWord (type : CardType) : IsWord (typeWord type) := by
  cases type <;> decide

theorem isWord_noun {kind : TargetKind} (h : kind ≠ .any ∧ kind ≠ .creatureOrPlayer) :
    IsWord kind.text.toList := by
  revert h
  cases kind <;> decide

theorem isWord_digits (n : Nat) : IsWord (Text.digits n) := by
  refine isWord_of_isAlphanum Nat.toDigits_ne_nil (fun c hc => ?_) ?_
  · exact Text.isAlphanum_iff.mpr (.inr (Text.isDigit_of_mem_digits hc))
  · simp [PhraseWord.isOneOf, PhraseWord.is, Text.sameLetters_digits]

theorem ofText?_digits {n : Int32} (h : 0 ≤ n.toInt) :
    Amount.ofText? (Text.digits n.toInt.toNat) = some n := by
  unfold Amount.ofText?
  dsimp only
  rw [Text.trim_digits, Text.sameLetters_digits (by decide), if_neg Bool.false_ne_true, Text.int?_digits h]
  rfl

/-! ## Adjectives -/

theorem Lead.read (lead : Lead) : TargetKind.ofNoun? lead.word = none ∧
    adjective? ⟨lead.word, false⟩ = some lead.restriction := by
  cases lead with
  | color c => cases c <;> decide
  | notColor c => cases c <;> decide
  | notType t => cases t <;> decide
  | tapped | untapped => decide
  | subtype w h => exact ⟨h.no_noun, h.adjective?⟩

/-- The words of a phrase, none of which ends it. -/
def inside (ws : List (List Char)) : List PhraseWord := ws.map fun w => ⟨w, false⟩

theorem first?_leads (leads : List Lead) (ws : List (List Char)) :
    first? (inside (leads.map Lead.word ++ ws)) =
      (first? (inside ws)).map fun next =>
        { next with restrictions := leads.map Lead.restriction ++ next.restrictions } := by
  induction leads with
  | nil => simp
  | cons lead leads ih =>
    obtain ⟨hnoun, hadjective⟩ := lead.read
    rw [List.map_cons, List.cons_append, inside, List.map_cons, first?_cons, ← inside, ih]
    simp [starting?, PhraseWord.noun?, hnoun, hadjective, Function.comp_def, qualify]

/-! ## Types and the noun -/

/-- The words that a part of the tail can start with. -/
def openers : List (List Char) := ["with", "without", "you", "an"].map String.toList

/-- Nothing comes, or something that starts with one of these words. -/
def Opens (ws : List (List Char)) : Prop := ∀ w ∈ ws.head?, w ∈ openers

theorem ofNoun?_text {kind : TargetKind} (h : kind ≠ .any ∧ kind ≠ .creatureOrPlayer) :
    TargetKind.ofNoun? kind.text.toList = some kind := by
  revert h
  cases kind <;> decide

/-- A noun is the head of its phrase if no other comes next or is joined to it. -/
theorem first?_alone {noun : List Char} {kind : TargetKind} (hnoun : TargetKind.ofNoun? noun = some kind)
    {ws : List (List Char)}
    (h : ∀ w ∈ ws.head?, TargetKind.ofNoun? w = none ∧ PhraseWord.is ⟨w, false⟩ "or" = false) :
    first? (inside (noun :: ws)) = some { kind, restrictions := tail 0 (inside ws) } := by
  have hnext : ((inside ws).head?.any fun next => next.noun?.isSome) = false := by
    cases ws with
    | nil => rfl
    | cons first rest =>
      show (TargetKind.ofNoun? first).isSome = false
      rw [(h first rfl).1]
      rfl
  have halone : ofNoun ⟨noun, false⟩ kind (inside ws) = { kind, restrictions := tail 0 (inside ws) } := by
    cases ws with
    | nil => rfl
    | cons first rest =>
      have hor := (h first rfl).2
      cases rest with
      | nil => rfl
      | cons second rest =>
        simp only [inside, List.map_cons, ofNoun, hor]
        cases PhraseWord.noun? ⟨second, false⟩ <;> rfl
  rw [inside, List.map_cons, first?_cons, ← inside, ← halone]
  unfold starting?
  rw [hnext]
  simp only [PhraseWord.noun?, hnoun]
  cases CardType.ofWord? noun <;> rfl

theorem first?_noun {kind : TargetKind} (hkind : kind ≠ .any ∧ kind ≠ .creatureOrPlayer)
    {ws : List (List Char)} (h : Opens ws) :
    first? (inside (kind.text.toList :: ws)) =
      some { kind, restrictions := tail 0 (inside ws) } := by
  have hopeners : ∀ w ∈ openers, TargetKind.ofNoun? w = none ∧ PhraseWord.is ⟨w, false⟩ "or" = false := by
    decide
  exact first?_alone (ofNoun?_text hkind) fun w hw => hopeners w (h w hw)

/-- A type word in front of a noun is an adjective. -/
theorem first?_type {type : CardType} (htype : type.isPermanent = true) {next : List Char}
    (hnext : (TargetKind.ofNoun? next).isSome = true) (ws : List (List Char)) :
    first? (inside (typeWord type :: next :: ws)) =
      (first? (inside (next :: ws))).map (qualify ⟨.cardType type, false⟩) := by
  have hboth : ∃ kind, TargetKind.ofNoun? (typeWord type) = some kind ∧
      CardType.ofWord? (typeWord type) = some type := by
    cases type with
    | instant | sorcery => exact absurd htype (by decide)
    | _ => exact ⟨_, rfl, rfl⟩
  obtain ⟨kind, hnoun, hword⟩ := hboth
  rw [inside, List.map_cons, first?_cons, ← inside]
  unfold starting?
  simp [PhraseWord.noun?, hnoun, hword, inside, hnext]

theorem isSome_noun_typeWord {type : CardType} (h : type.isPermanent = true) :
    (TargetKind.ofNoun? (typeWord type)).isSome = true := by
  revert h
  cases type <;> decide

theorem first?_types {types : List CardType} (htypes : ∀ type ∈ types, type.isPermanent = true)
    {noun : List Char} (hnoun : (TargetKind.ofNoun? noun).isSome = true) (ws : List (List Char)) :
    first? (inside (types.map typeWord ++ noun :: ws)) =
      (first? (inside (noun :: ws))).map fun next =>
        { next with restrictions :=
            types.map (fun type => ⟨.cardType type, false⟩) ++ next.restrictions } := by
  induction types with
  | nil => simp
  | cons type types ih =>
    rw [List.forall_mem_cons] at htypes
    have hstep : first? (inside (typeWord type :: (types.map typeWord ++ noun :: ws))) =
        (first? (inside (types.map typeWord ++ noun :: ws))).map (qualify ⟨.cardType type, false⟩) := by
      cases types with
      | nil => exact first?_type htypes.1 hnoun ws
      | cons second types =>
        have hsecond := isSome_noun_typeWord (htypes.2 second List.mem_cons_self)
        exact first?_type htypes.1 hsecond _
    rw [List.map_cons, List.cons_append, hstep, ih htypes.2]
    simp [Function.comp_def, qualify]

/-! ## The tail -/

theorem tail_skip (front rest : List PhraseWord) : tail front.length (front ++ rest) = tail 0 rest := by
  induction front with
  | nil => rfl
  | cons word front ih => exact ih

/-- A part of the tail whose words are all read does not touch the rest. -/
theorem tail_cons {front : List PhraseWord} {restriction : Restriction}
    (hends : ∀ word ∈ front, word.ends = false) (rest : List PhraseWord)
    (h : tailPart? (front ++ rest) = some (restriction, front.length))
    (hne : front ≠ []) :
    tail 0 (front ++ rest) = restriction :: tail 0 rest := by
  obtain ⟨word, front, rfl⟩ := List.exists_cons_of_ne_nil hne
  rw [List.cons_append] at h ⊢
  rw [tail, h]
  dsimp only
  have hlast : ((word :: (front ++ rest))[(word :: front).length - 1]?).any (·.ends) = false := by
    rw [← List.cons_append, List.getElem?_append_left (by simp), List.getElem?_eq_getElem (by simp)]
    exact hends _ (List.getElem_mem _)
  rw [hlast, if_neg Bool.false_ne_true]
  exact congrArg _ (tail_skip front rest)

/-- A bound that is not written out ends before the next part. -/
theorem comparison?_inside (bound : Bound) {n : Int32} (hn : 0 ≤ n.toInt) {ws : List (List Char)}
    (hws : Opens ws) :
    comparison? (inside (Text.digits n.toInt.toNat :: (bound.words ++ ws))) =
      some (bound.comparison, n, bound.words.length + 1) := by
  rw [inside, List.map_cons, ← inside]
  unfold comparison?
  dsimp only
  rw [ofText?_digits hn]
  cases bound with
  | atMost | atLeast => rfl
  | exactly =>
    have hopeners : ∀ w ∈ openers, PhraseWord.is ⟨w, false⟩ "or" = false := by decide
    cases ws with
    | nil => rfl
    | cons first rest =>
      have hor := hopeners first (hws first rfl)
      cases rest with
      | nil => rfl
      | cons second rest => simp [Bound.words, inside, hor, Bound.comparison]

theorem quality?_measured (measure : Measure) (bound : Bound) {n : Int32} (hn : 0 ≤ n.toInt)
    {ws : List (List Char)} (hws : Opens ws) :
    quality? (inside ((Quality.measured measure bound n hn).words ++ ws)) =
      some ((Quality.measured measure bound n hn).trait,
        (Quality.measured measure bound n hn).words.length) := by
  have hcomparison := comparison?_inside bound hn hws
  cases measure with
  | power | toughness =>
    show (comparison? (inside (Text.digits n.toInt.toNat :: (bound.words ++ ws)))).map _ = _
    rw [hcomparison]
    rfl
  | manaValue =>
    show (comparison? (inside (Text.digits n.toInt.toNat :: (bound.words ++ ws)))).map _ = _
    rw [hcomparison]
    rfl

/-- Whether the one or two words are those of a keyword, and are mistaken for nothing else in front of a
part of the tail. -/
def names (keyword : Keyword) : List (List Char) → Bool
  | [first] => !PhraseWord.isOneOf ⟨first, false⟩ ["power", "toughness", "mana"] &&
      Keyword.ofText? first == some keyword &&
      openers.all fun opener => (Keyword.ofText? (first ++ ' ' :: opener)).isNone
  | [first, second] => !PhraseWord.isOneOf ⟨first, false⟩ ["power", "toughness", "mana"] &&
      Keyword.ofText? (first ++ ' ' :: second) == some keyword
  | _ => false

theorem names_words : ∀ keyword ∈ Keyword.plain,
    names keyword (Text.words (Text.lower keyword.text.toList)) = true := by
  decide

theorem quality?_keyword {keyword : Keyword} {words : List (List Char)} (h : names keyword words = true)
    {ws : List (List Char)} (hws : Opens ws) :
    quality? (inside (words ++ ws)) = some (.keyword keyword, words.length) := by
  match words, h with
  | [first], h =>
    simp only [names, PhraseWord.isOneOf, List.any_cons, List.any_nil, Bool.or_false, Bool.not_or,
      Bool.and_eq_true, Bool.not_eq_true', beq_iff_eq, List.all_eq_true, Option.isNone_iff_eq_none] at h
    obtain ⟨⟨⟨hpower, htoughness, hmana⟩, hkeyword⟩, hlonger⟩ := h
    cases ws with
    | nil => simp [inside, quality?, hpower, htoughness, hkeyword]
    | cons second rest =>
      have hnone := hlonger second (hws second rfl)
      simp [inside, quality?, hpower, htoughness, hmana, hkeyword, hnone]
  | [first, second], h =>
    simp only [names, PhraseWord.isOneOf, List.any_cons, List.any_nil, Bool.or_false, Bool.not_or,
      Bool.and_eq_true, Bool.not_eq_true', beq_iff_eq] at h
    obtain ⟨⟨hpower, htoughness, hmana⟩, hkeyword⟩ := h
    simp [inside, quality?, hpower, htoughness, hmana, hkeyword]

theorem quality?_inside (quality : Quality) {ws : List (List Char)} (hws : Opens ws) :
    quality? (inside (quality.words ++ ws)) = some (quality.trait, quality.words.length) := by
  cases quality with
  | measured measure bound n nonneg => exact quality?_measured measure bound nonneg hws
  | keyword keyword plain => exact quality?_keyword (names_words keyword plain) hws

theorem tailPart?_inside (part : Tail) {ws : List (List Char)} (hws : Opens ws) :
    tailPart? (inside (part.words ++ ws)) = some (part.restriction, part.words.length) := by
  cases part with
  | quality without quality =>
    have hquality := quality?_inside quality hws
    cases without with
    | false =>
      show (quality? (inside (quality.words ++ ws))).map _ = _
      rw [hquality]
      rfl
    | true =>
      show (quality? (inside (quality.words ++ ws))).map _ = _
      rw [hquality]
      rfl
  | yours => cases ws <;> rfl
  | notYours => rfl
  | opponents => rfl

/-- Every part of the tail starts with one of the four words. -/
theorem Tail.exists_words (part : Tail) : ∃ first rest, part.words = first :: rest ∧ first ∈ openers := by
  cases part with
  | quality without quality => cases without <;> exact ⟨_, _, rfl, by decide⟩
  | yours | notYours | opponents => exact ⟨_, _, rfl, by decide⟩

theorem opens_tails (tails : List Tail) : Opens (tails.flatMap Tail.words) := by
  cases tails with
  | nil => exact fun w hw => by simp at hw
  | cons part tails =>
    obtain ⟨first, rest, hwords, hfirst⟩ := part.exists_words
    rw [List.flatMap_cons, hwords]
    intro w hw
    rw [← Option.some.inj hw]
    exact hfirst

theorem tail_tails (tails : List Tail) :
    tail 0 (inside (tails.flatMap Tail.words)) = tails.map Tail.restriction := by
  induction tails with
  | nil => rfl
  | cons part tails ih =>
    have hpart := tailPart?_inside part (opens_tails tails)
    have hne : inside part.words ≠ [] := by
      obtain ⟨first, rest, hwords, -⟩ := part.exists_words
      simp [inside, hwords]
    have hends : ∀ word ∈ inside part.words, word.ends = false := by
      intro word hword
      obtain ⟨w, -, rfl⟩ := List.mem_map.mp hword
      rfl
    rw [inside, List.map_append, ← inside, ← inside] at hpart
    rw [List.flatMap_cons, List.map_cons, inside, List.map_append, ← inside, ← inside, ← ih]
    exact tail_cons hends _ (by rw [hpart, inside, List.length_map]) hne

/-! ## The whole phrase -/

theorem Quality.isWord (quality : Quality) : ∀ w ∈ quality.words, IsWord w := by
  cases quality with
  | measured measure bound n nonneg =>
    have hmeasure : ∀ w ∈ measure.words, IsWord w := by cases measure <;> decide
    have hbound : ∀ w ∈ bound.words, IsWord w := by cases bound <;> decide
    exact List.forall_mem_append.mpr ⟨hmeasure, List.forall_mem_cons.mpr ⟨isWord_digits _, hbound⟩⟩
  | keyword keyword plain =>
    have hall : ∀ k ∈ Keyword.plain, ∀ w ∈ Text.words (Text.lower k.text.toList), IsWord w := by decide
    exact hall keyword plain

theorem Tail.isWord (part : Tail) : ∀ w ∈ part.words, IsWord w := by
  cases part with
  | quality without quality =>
    cases without with
    | false => exact List.forall_mem_cons.mpr ⟨by decide, quality.isWord⟩
    | true => exact List.forall_mem_cons.mpr ⟨by decide, quality.isWord⟩
  | yours | notYours | opponents => decide

theorem Spoken.isWord (phrase : Spoken) : ∀ w ∈ phrase.words, IsWord w := by
  unfold Spoken.words
  rw [List.forall_mem_append, List.forall_mem_append, List.forall_mem_cons]
  refine ⟨fun w hw => ?_, fun w hw => ?_, isWord_noun phrase.plain, fun w hw => ?_⟩
  · obtain ⟨lead, -, rfl⟩ := List.mem_map.mp hw
    exact lead.isWord
  · obtain ⟨type, -, rfl⟩ := List.mem_map.mp hw
    exact isWord_typeWord type
  · obtain ⟨part, -, hpart⟩ := List.mem_flatMap.mp hw
    exact part.isWord w hpart

/-- Target phrases that are written out are read back. Take any leading restrictions, any types of
permanents, a noun and any restrictions of its tail; written one after the other behind "target", these are
one phrase, which asks for the noun with all restrictions in the order in which they were written. -/
theorem phrasesIn_text (phrase : Spoken) : phrasesIn phrase.text = [phrase.target] := by
  have hnoun : (TargetKind.ofNoun? phrase.noun.text.toList).isSome = true := by
    rw [ofNoun?_text phrase.plain]
    rfl
  have hread : first? (inside phrase.words) = some phrase.target := by
    unfold Spoken.words
    rw [first?_leads, first?_types phrase.permanent hnoun, first?_noun phrase.plain (opens_tails _),
      tail_tails]
    rfl
  unfold Spoken.text
  rw [phrasesIn_ofWords phrase.isWord, ← inside, hread]
  rfl

/-- A phrase with something in each of its places. -/
example :
    ({ leads := [.notColor .black, .subtype "Elf".toList
        ⟨by decide, by decide, by decide, by decide, by decide, by decide⟩]
       types := [.artifact]
       permanent := by decide
       noun := .creature
       plain := by decide
       tails := [.quality false (.measured .power .atMost 2 (by decide)), .opponents] } : Spoken).text =
      "target nonblack Elf artifact creature with power 2 or less an opponent controls".toList := by
  decide

end Phrase

end CardRules
