import CardRules.Ability.Reading
import CardRules.Spell

/-!
# Card files

A card is described by lines of the form `Key:Value`. Blank lines, lines that start with `#`,
lines without a colon and keys that have no meaning here are passed over; of a key that may occur
once the last line counts. The abilities come from reading the rules text.
-/

set_option autoImplicit false

namespace CardRules

/-- A card as it is described, not yet in a game. -/
structure CardDefinition where
  name : String
  manaCost : ManaCost
  types : List CardType
  subtypes : List Subtype
  colors : List Color
  power : Option Int8
  toughness : Option Int8
  oracle : String
  keywords : List Keyword
deriving DecidableEq, Repr

/-- A card ready to be put into a game, with what its text was read as. -/
structure LoadedCard where
  card : Card
  /-- Everything but the instructions of the spell. -/
  abilities : List Ability
  /-- The spell of an instant or sorcery whose text was understood. -/
  spell : Option Spell
deriving DecidableEq, Repr

namespace CardFile

/-- What the lines read so far say. -/
structure Entries where
  name : Option String := none
  manaCost : ManaCost := {}
  types : List CardType := []
  subtypes : List Subtype := []
  power : Option Int8 := none
  toughness : Option Int8 := none
  oracle : String := ""
  keywords : List Keyword := []
deriving DecidableEq, Repr

/-- Words of the type line that are neither types nor subtypes. -/
def supertypes : List String := ["Legendary", "Basic", "Snow", "World"]

/-- The entries with one more word of the type line. -/
def addTypeWord (entries : Entries) (word : List Char) : Entries :=
  if supertypes.any fun supertype => supertype.toList == word then entries
  else match CardType.ofWord? word with
    | some t => { entries with types := entries.types ++ [t] }
    | none => { entries with subtypes := entries.subtypes ++ [⟨String.ofList word⟩] }

/-- The entries with one more line, given by its key and its value. -/
def addEntry (entries : Entries) (key value : List Char) : Except Fault Entries :=
  let text := String.ofList value
  match String.ofList key with
  | "Name" => .ok { entries with name := some text }
  | "ManaCost" =>
    if text = "no cost" then .ok entries
    else .ok { entries with manaCost := ManaCost.ofText value }
  | "Types" => .ok ((Text.words value).foldl addTypeWord entries)
  | "PT" => match Text.cut? ['/'] value with
    | none => .error (.badCard (.badSize text))
    | some (power, toughness) => .ok { entries with
        power := Text.small? (Text.trim power)
        toughness := Text.small? (Text.trim toughness) }
  | "Oracle" =>
    .ok { entries with oracle := String.ofList (Text.replace ['\\', 'n'] ['\n'] value) }
  | "K" =>
    let keyword := (Keyword.ofText? value).getD (.other text)
    .ok { entries with keywords := entries.keywords ++ [keyword] }
  | _ => .ok entries

/-- The entries with one more line. -/
def addLine (entries : Entries) (line : List Char) : Except Fault Entries :=
  let line := Text.trim line
  if line.head? = some '#' then .ok entries
  else match Text.cut? [':'] line with
    | none => .ok entries
    | some (key, value) => addEntry entries (Text.trim key) (Text.trim value)

/-- The entries of some lines, up to the first that is refused. -/
def readLines (entries : Entries) : List (List Char) → Except Fault Entries
  | [] => .ok entries
  | line :: lines => do
    let entries ← addLine entries line
    readLines entries lines

/-- The card that some entries describe: it needs a name and a card type. -/
def define (entries : Entries) : Except Fault CardDefinition :=
  match entries.name with
  | none => .error (.badCard .noName)
  | some name =>
    if entries.types.isEmpty then .error (.badCard (.noTypes name))
    else .ok
      { name
        manaCost := entries.manaCost
        types := entries.types
        subtypes := entries.subtypes
        colors := entries.manaCost.colors
        power := entries.power
        toughness := entries.toughness
        oracle := entries.oracle
        keywords := entries.keywords }

/-- Reads the description of a card. -/
def read (content : String) : Except Fault CardDefinition := do
  let entries ← readLines {} (Text.lines content.toList)
  define entries

end CardFile

namespace CardDefinition

/-- The card under a number, owned and controlled by a player. -/
def card (definition : CardDefinition) (id : CardId) (owner : PlayerId) : Card :=
  { Card.blank id definition.name owner with
    manaCost := definition.manaCost
    types := definition.types
    subtypes := definition.subtypes
    colors := definition.colors
    power := definition.power
    toughness := definition.toughness
    text := definition.oracle
    keywords := definition.keywords }

/-- Whether the card is an instant or a sorcery. -/
def isInstantOrSorcery (definition : CardDefinition) : Bool :=
  definition.types.any fun t => t == .instant || t == .sorcery

/-- Some keywords with those that static abilities grant and that are not there yet. -/
def addGranted (keywords : List Keyword) (abilities : List Ability) : List Keyword :=
  let granted := (abilities.filter (·.kind == .static)).flatMap fun ability =>
    ability.effects.filterMap Effect.grantedKeyword?
  granted.foldl
    (fun keywords keyword => if keywords.contains keyword then keywords else keywords ++ [keyword])
    keywords

/-- The card with its rules text read. Keywords in its static lines become keywords of the card.
Also answers what was read. -/
def load (definition : CardDefinition) (id : CardId) (owner : PlayerId) (reader : AbilityReader) :
    LoadedCard × Readings :=
  let readings := reader.read definition.oracle (some definition.name) id
  let card := definition.card id owner
  let card := { card with keywords := addGranted card.keywords readings.abilities }
  let isSpell (ability : Ability) := ability.kind == .spell
  let effects := (readings.abilities.filter isSpell).flatMap (·.effects)
  let spell :=
    if definition.isInstantOrSorcery && !effects.isEmpty then some (Spell.ofCard card effects)
    else none
  ({ card, abilities := readings.abilities.filter fun ability => !isSpell ability, spell }, readings)

end CardDefinition

end CardRules
