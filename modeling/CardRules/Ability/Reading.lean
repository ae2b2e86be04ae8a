import CardRules.Ability.Draft
import CardRules.Fault
import CardRules.Journal
import CardRules.Sentence
import CardRules.Target.Phrase

/-!
# Reading abilities

From rules text to abilities: the text is made plain and cut into sentences, and every sentence
gives at most one ability. Abilities are numbered as they are read, and the numbering goes on from
text to text. A sentence that nothing is made of is reported and otherwise passed over.

"Activate only ..." is no ability of its own: it limits the activated ability before it.
-/

set_option autoImplicit false

namespace CardRules

/-- How abilities are read, and the number of the next one. -/
structure AbilityReader where
  /-- The kinds of phrasings, in the order in which they are tried. -/
  kinds : List AbilityKind := AbilityKind.all
  /-- Whether target phrases are read closely. -/
  closely : Bool := true
  nextId : AbilityId := .first
deriving DecidableEq, Repr

/-- What reading some sentences gives: the abilities in order, the events, the next number. -/
structure Readings where
  abilities : List Ability := []
  events : List Event := []
  nextId : AbilityId
deriving DecidableEq, Repr

/-- A draft whose targets, if need be, exclude the source itself. -/
def Draft.exclude (draft : Draft) (source : CardId) : Draft :=
  if draft.excludesSource then
    { draft with effects := draft.effects.map fun effect => Effect.describe { effect with
        targets := effect.targets.map fun target => target.restrict ⟨.card source, true⟩ } }
  else draft

/-- The ability that a draft of a sentence becomes. -/
def Draft.ability? (draft : Draft) (id : AbilityId) (source : CardId) (sentence : List Char) :
    Option Ability :=
  let draft := draft.exclude source
  match Ability.make id draft.name draft.kind source draft.cost draft.effects with
  | .error _ => none
  | .ok ability => some { ability with
      timing := draft.timing
      oracleText := String.ofList sentence
      trigger := draft.trigger
      parsed := true }

namespace Readings

/-- When an ability may be used, as an "activate only" sentence says. -/
def activationLimit? (sentence : List Char) : Option (List Char) :=
  let limit : Text.Reader (List Char) := do
    Text.Reader.words "activate "
    let _ ← Text.Reader.flag (Text.Reader.words "this ability ")
    Text.Reader.words "only "
    Text.Reader.line
  limit.read? sentence

/-- An ability with the limits that some words put on it, if they are understood. -/
def limit? (words : List Char) (ability : Ability) : Option Ability :=
  let has (phrase : String) := Text.occurs phrase.toList (Text.lower words)
  let sorcery := has "as a sorcery" || has "any time you could cast a sorcery"
  let combat := has "during combat"
  let yours := has "during your turn"
  let once := has "once each turn"
  if sorcery || combat || yours || once then
    some { ability with
      timing :=
        { sorcerySpeed := sorcery || ability.timing.sorcerySpeed
          combatOnly := combat || ability.timing.combatOnly
          yourTurnOnly := yours || ability.timing.yourTurnOnly }
      usageLimit :=
        if once then { ability.usageLimit with perTurn := some 1 } else ability.usageLimit }
  else none

/-- Some abilities with the last one that can be used limited, if there is one and the words are
understood. -/
def limitLast? (words : List Char) (abilities : List Ability) : Option (List Ability) :=
  let after := (abilities.reverse.takeWhile fun ability => !ability.kind.isActivatable).reverse
  match (abilities.take (abilities.length - after.length)).getLast? with
  | none => none
  | some ability => (limit? words ability).map fun ability =>
      abilities.take (abilities.length - after.length - 1) ++ ability :: after

/-- The readings with one more sentence, read as an ability. -/
def addAbility (reader : AbilityReader) (source : CardId) (readings : Readings)
    (sentence : List Char) : Readings :=
  let missed : Event :=
    .verbose ("no pattern matched: '" ++ String.ofList sentence ++ "'")
  match Draft.ofSentence? (reader.kinds.flatMap Phrasing.ofKind) sentence with
  | none => { readings with events := readings.events ++ [missed] }
  | some draft =>
    let nextId := readings.nextId.next
    match draft.ability? readings.nextId source sentence with
    | none => { readings with events := readings.events ++ [missed], nextId }
    | some ability =>
      let (changed, ability) := if reader.closely then ability.refine else (false, ability)
      let refined : List Event :=
        if changed then [.verbose ("enhanced targets for '" ++ String.ofList sentence ++ "'")]
        else []
      { abilities := readings.abilities ++ [ability]
        events := readings.events ++ refined ++
          [.ofCategory .verbose "parser" ("parsed " ++ ability.text)]
        nextId }

/-- The readings with one more sentence. -/
def add (reader : AbilityReader) (source : CardId) (readings : Readings) (sentence : List Char) :
    Readings :=
  match (activationLimit? sentence).bind fun words => limitLast? words readings.abilities with
  | some abilities => { readings with abilities }
  | none => readings.addAbility reader source sentence

end Readings

namespace AbilityReader

/-- The abilities of plain text. -/
def readPlain (reader : AbilityReader) (text : List Char) (source : CardId) : Readings :=
  (Sentence.split text).foldl (Readings.add reader source) { nextId := reader.nextId }

/-- The abilities of rules text. With a name, that name means the card itself. -/
def read (reader : AbilityReader) (text : String) (name : Option String) (source : CardId) :
    Readings :=
  reader.readPlain (Sentence.normalize text.toList (name.map String.toList)) source

/-- The reader that goes on after some readings. -/
def after (reader : AbilityReader) (readings : Readings) : AbilityReader :=
  { reader with nextId := readings.nextId }

end AbilityReader

end CardRules
