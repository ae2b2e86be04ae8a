import CardRules.Ability
import CardRules.Text.Search

/-!
# Target phrases

A second, closer reading of target phrases: "target nonartifact creature with power 2 or less an
opponent controls". A phrase is adjectives, a noun, and a tail of further restrictions; punctuation
ends it. `phrasesIn` finds the phrases of a sentence, and `Ability.refine` hands the restrictions
found to the target slots of an ability, provided there are as many phrases as slots. A slot whose
category differs from that of its phrase is left alone.
-/

set_option autoImplicit false

namespace CardRules

/-- A word of rules text, and whether punctuation ends the phrase after it. -/
structure PhraseWord where
  text : List Char
  ends : Bool
deriving DecidableEq, Repr, Inhabited

namespace PhraseWord

/-- Whether a character ends a phrase. -/
def isPunctuation (c : Char) : Bool := c == ',' || c == '.' || c == ';' || c == ':'

/-- A run of characters as a word. -/
def ofRun (run : List Char) : PhraseWord :=
  let text := Text.dropBack isPunctuation run
  { text, ends := text.length != run.length }

/-- Whether the word is a given one, case disregarded. -/
def is (word : PhraseWord) (other : String) : Bool := Text.sameLetters word.text other.toList

/-- Whether the word is one of several, case disregarded. -/
def isOneOf (word : PhraseWord) (others : List String) : Bool := others.any word.is

/-- The category the word names as a noun. -/
def noun? (word : PhraseWord) : Option TargetKind := TargetKind.ofNoun? word.text

/-- Whether the word starts with a capital letter. -/
def isCapitalized (word : PhraseWord) : Bool := word.text.head?.any Char.isUpper

end PhraseWord

namespace Phrase

/-- The words of a text. -/
def words (s : List Char) : List PhraseWord := (Text.words s).map PhraseWord.ofRun

/-! ## Adjectives -/

/-- The restriction that "non" and a word make: a card type, a color, or a subtype, which has to
be capitalized somewhere. -/
def negated? (word : PhraseWord) : Option Restriction := do
  let rest ← Text.after? "non".toList (Text.lower word.text)
  let rest := rest.dropWhile (· == '-')
  match CardType.ofWord? rest, Color.ofWord? rest with
  | some t, _ => some ⟨.cardType t, true⟩
  | none, some c => some ⟨.color c, true⟩
  | none, none =>
    if !rest.isEmpty && rest.all Char.isAlpha && word.text.any Char.isUpper then
      some ⟨.subtype (String.ofList (word.text.drop (word.text.length - rest.length))), true⟩
    else none

/-- The restriction that a word makes on its own: a state, a color, or a capitalized subtype. -/
def plain? (word : PhraseWord) : Option Restriction :=
  if word.is "tapped" then some ⟨.tapped, false⟩
  else if word.is "untapped" then some ⟨.untapped, false⟩
  else if word.isOneOf ["attacking", "blocking", "other", "another"] then
    some ⟨.other (String.ofList (Text.lower word.text)), false⟩
  else match Color.ofWord? word.text with
    | some c => some ⟨.color c, false⟩
    | none =>
      if word.isCapitalized && word.noun?.isNone then
        some ⟨.subtype (String.ofList word.text), false⟩
      else none

/-- The restriction an adjective makes. -/
def adjective? (word : PhraseWord) : Option Restriction := negated? word <|> plain? word

/-! ## The tail of a phrase -/

/-- A comparison with an amount ("2 or less"), and the number of words it takes. -/
def comparison? : List PhraseWord → Option (Comparison × Int32 × Nat)
  | [] => none
  | first :: rest => do
    let n ← Amount.ofText? first.text
    match rest with
    | joint :: bound :: _ =>
      if joint.is "or" && bound.isOneOf ["less", "fewer"] then some (.lessOrEqual, n, 3)
      else if joint.is "or" && bound.isOneOf ["greater", "more"] then some (.greaterOrEqual, n, 3)
      else some (.equal, n, 1)
    | _ => some (.equal, n, 1)

/-- A trait after "with", and the number of words it takes. -/
def quality? : List PhraseWord → Option (Trait × Nat)
  | [] => none
  | first :: rest =>
    if first.is "power" then
      (comparison? rest).map fun (c, n, used) => (.power c n, used + 1)
    else if first.is "toughness" then
      (comparison? rest).map fun (c, n, used) => (.toughness c n, used + 1)
    else match rest with
      | [] => (Keyword.ofText? first.text).map fun k => (.keyword k, 1)
      | second :: rest =>
        if first.is "mana" && second.is "value" then
          (comparison? rest).map fun (c, n, used) => (.manaValue c n, used + 2)
        else
          ((Keyword.ofText? (first.text ++ ' ' :: second.text)).map fun k => (.keyword k, 2)) <|>
            (Keyword.ofText? first.text).map fun k => (.keyword k, 1)

/-- A restriction on the controller, and the number of words it takes. -/
def control? : List PhraseWord → Option (Restriction × Nat)
  | first :: second :: rest =>
    if first.is "you" && second.is "control" then some (⟨.controller .you, false⟩, 2)
    else match rest with
      | [] => none
      | third :: _ =>
        if first.is "you" && second.is "don't" && third.is "control" then
          some (⟨.controller .you, true⟩, 3)
        else if first.isOneOf ["an", "your"] && second.isOneOf ["opponent", "opponents"] &&
            third.isOneOf ["controls", "control"] then
          some (⟨.controller .opponent, false⟩, 3)
        else none
  | _ => none

/-- A restriction after the noun, and the number of words it takes. -/
def tailPart? : List PhraseWord → Option (Restriction × Nat)
  | [] => none
  | first :: rest =>
    if first.isOneOf ["with", "without"] then
      (quality? rest).map fun (trait, used) => (⟨trait, first.is "without"⟩, used + 1)
    else control? (first :: rest)

/-- The restrictions after the noun, skipping some words that are read already. The tail ends
with punctuation, or where a word makes no restriction. -/
def tail : (skip : Nat) → List PhraseWord → List Restriction
  | _, [] => []
  | skip + 1, _ :: words => tail skip words
  | 0, word :: words =>
    match tailPart? (word :: words) with
    | none => []
    | some (restriction, used) =>
      if ((word :: words)[used - 1]?).any (·.ends) then [restriction]
      else restriction :: tail (used - 1) words

/-! ## The phrase -/

/-- The category and the restriction that two nouns joined by "or" make. -/
def join (a b : TargetKind) : TargetKind × List Restriction :=
  match a, b with
  | .creature, .player | .player, .creature => (.creatureOrPlayer, [])
  | a, b => (.permanent, [⟨.other (a.text ++ " or " ++ b.text), false⟩])

/-- A phrase from its noun on, perhaps joined to another by "or", with its tail. -/
def ofNoun (word : PhraseWord) (kind : TargetKind) (rest : List PhraseWord) : Target :=
  let alone : Target := { kind, restrictions := if word.ends then [] else tail 0 rest }
  match rest with
  | joint :: other :: after =>
    match other.noun? with
    | some otherKind =>
      if !word.ends && joint.is "or" then
        let (kind, extra) := join kind otherKind
        { kind, restrictions := extra ++ if other.ends then [] else tail 0 after }
      else alone
    | none => alone
  | _ => alone

/-- A phrase with an adjective put in front of it. -/
def qualify (restriction : Restriction) (phrase : Target) : Target :=
  { phrase with restrictions := restriction :: phrase.restrictions }

/-- The phrase that starts with a word, given the words after it and the phrase that starts with
the next one. A type word before a noun is an adjective. -/
def starting? (word : PhraseWord) (rest : List PhraseWord) (next : Option Target) :
    Option Target :=
  let nounFollows := rest.head?.any fun next => next.noun?.isSome
  match word.noun?, CardType.ofWord? word.text with
  | some kind, some t =>
    if nounFollows && !word.ends then next.map (qualify ⟨.cardType t, false⟩)
    else some (ofNoun word kind rest)
  | some kind, none => some (ofNoun word kind rest)
  | none, _ =>
    if word.ends then none
    else (adjective? word).bind fun restriction => next.map (qualify restriction)

/-- The phrase that starts with the first of some words, and the targets of the phrases after the
word "target" among them; `afterAny` says that the word before was "any". -/
def readFrom : (afterAny : Bool) → List PhraseWord → Option Target × List Target
  | _, [] => (none, [])
  | afterAny, word :: words =>
    let (next, more) := readFrom (word.is "any") words
    (starting? word words next,
      if word.isOneOf ["target", "targets"] then
        if afterAny then { kind := .any } :: more
        else if word.ends then more
        else next.toList ++ more
      else more)

end Phrase

/-- The target of every target phrase in a text, in order. -/
def phrasesIn (s : List Char) : List Target := (Phrase.readFrom false (Phrase.words s)).2

/-! ## Handing restrictions to target slots -/

/-- A slot with the restrictions of its phrase, if the phrase fits it and has any. -/
def Target.refine? (slot phrase : Target) : Option Target :=
  if phrase.kind = slot.kind ∧ phrase.restrictions ≠ [] then
    some { slot with restrictions := phrase.restrictions }
  else none

/-- An effect with the restrictions of its phrases, if any of its slots gains some. -/
def Effect.refine? (effect : Effect) (phrases : List Target) : Option Effect :=
  let refined := (effect.targets.zip phrases).map fun (slot, phrase) => slot.refine? phrase
  if refined.any (·.isSome) then
    some (Effect.describe { effect with
      targets := (effect.targets.zip refined).map fun (slot, new) => new.getD slot })
  else none

/-- Effects with the restrictions of their phrases, which are handed out in order, and whether any
slot gained some. -/
def Effect.refineAll : List Effect → List Target → Bool × List Effect
  | [], _ => (false, [])
  | effect :: effects, phrases =>
    let (changed, rest) := refineAll effects (phrases.drop effect.targets.length)
    match effect.refine? (phrases.take effect.targets.length) with
    | some effect => (true, effect :: rest)
    | none => (changed, effect :: rest)

/-- An ability with the restrictions of the target phrases in its sentence, and whether any slot
gained some. -/
def Ability.refine (ability : Ability) : Bool × Ability :=
  let phrases := phrasesIn ability.oracleText.toList
  if phrases.isEmpty || phrases.length != ability.targets.length then (false, ability)
  else
    let (changed, effects) := Effect.refineAll ability.effects phrases
    (changed, { ability with effects })

end CardRules
