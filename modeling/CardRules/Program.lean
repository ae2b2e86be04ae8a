import CardRules.CardFile
import CardRules.Data.Forms.Table
import CardRules.Invocation
import CardRules.Stack.Play
import CardRules.Target.Choosing

/-!
# The program

What the program prints and answers for its arguments and files. It reads rules text, reads a card
file, or casts the spell of a card file in a game of two and lets it resolve. Events are printed
among the other lines as the configuration says. Output that was made before a failure stays.
-/

set_option autoImplicit false

namespace CardRules

/-- What a run of the program leaves behind. -/
structure Outcome where
  /-- Zero for success, one for a failure, two for arguments that make no sense. -/
  code : UInt8
  output : List String := []
  failure : Option String := none
deriving DecidableEq, Repr

namespace Program

/-- A computation that prints lines and may fail with a message. -/
abbrev Report (α : Type) : Type := ExceptT String (StateM (List String)) α

/-- Prints a line. -/
def say (line : String) : Report Unit := modify (· ++ [line])

/-- Prints events as a configuration says. -/
def sayEvents (config : Config) (events : List Event) : Report Unit :=
  (config.journal.lines events).forM say

/-- A value that must be there. -/
def need {α : Type} (message : String) : Option α → Report α
  | some a => pure a
  | none => throw message

/-- A result whose failure ends the run. -/
def ofExcept {α : Type} : Except Fault α → Report α
  | .ok a => pure a
  | .error fault => throw fault.message

/-- Reads a file through one of the readers of the library. -/
def load {α : Type} (what : String) (readFile : String → Option String)
    (read : String → Except Fault α) (file : String) : Report α :=
  need ("loading " ++ what ++ " " ++ file) ((readFile file).bind fun text => (read text).toOption)

/-! ## Reading -/

/-- Prints the abilities in a text. -/
def parse (config : Config) (text : String) (name : Option String) (json : Bool) : Report Unit := do
  let readings := config.reader.read text name ⟨1⟩
  sayEvents config readings.events
  if json then
    say (encode readings.abilities).block
  else
    if readings.abilities.isEmpty then
      say "No abilities recognized"
    readings.abilities.forM fun ability => say ability.text

/-- The types of a card, and its subtypes if there are any. -/
def typeLine (card : Card) : String :=
  let types := " ".intercalate (card.types.map CardType.name)
  if card.subtypes.isEmpty then types
  else types ++ " - " ++ " ".intercalate (card.subtypes.map Subtype.text)

/-- A card and what its text was read as, for readers. -/
def cardLines (loaded : LoadedCard) : List String :=
  let card := loaded.card
  let size := match card.power, card.toughness with
    | some power, some toughness => [toString power.toInt ++ "/" ++ toString toughness.toInt]
    | _, _ => []
  let keywords :=
    if card.keywords.isEmpty then []
    else ["Keywords: " ++ ", ".intercalate (card.keywords.map Keyword.text)]
  let spell := loaded.spell.toList.map fun spell =>
    "  [Spell] " ++ "; ".intercalate (spell.effects.map Effect.text)
  [card.name ++ " " ++ card.manaCost.text, typeLine card] ++ size ++ keywords ++
    loaded.abilities.map (fun ability => "  " ++ ability.text) ++ spell

/-- Prints a card. -/
def card (config : Config) (definition : CardDefinition) (json : Bool) : Report Unit := do
  let (loaded, readings) := definition.load ⟨1⟩ ⟨1⟩ config.reader
  sayEvents config readings.events
  if json then
    say (encode loaded.abilities).block
    loaded.spell.toList.forM fun spell => say (encode spell).block
  else
    (cardLines loaded).forM say

/-! ## Casting -/

/-- Makes a move in a game and prints its events. -/
def play {α : Type} (config : Config) (scene : Scene) (move : Scene.Move α) : Report (α × Scene) := do
  let run := move scene
  sayEvents config (run.events.map (·.2))
  let a ← ofExcept run.result
  pure (a, run.state)

/-- The players pass in turn, at most so many times, until an item resolves. -/
def passRound : Nat → Scene.Move (Option Resolution)
  | 0 => pure none
  | passes + 1 => do
    match ← Scene.pass (← Act.get).stack.holder with
    | .passed _ => passRound passes
    | .resolved resolution => pure (some resolution)
    | .stackEmpty => pure none

/-- How a resolution is printed. -/
def resolutionText : Resolution → String
  | .resolved item => s!"Resolved(StackItemId({item.number.toNat}))"
  | .countered item => s!"Countered(StackItemId({item.number.toNat}))"
  | .fizzled item => s!"Fizzled(StackItemId({item.number.toNat}))"

/-- A game of two in the first main phase, with a card that the first player owns. -/
def opening (config : Config) : Table :=
  (Table.seat ["Alice", "Bob"] config.startingLife).setStep .main1

/-- Casts the spell of a card with exactly the mana it needs and lets it resolve. -/
def cast (config : Config) (definition : CardDefinition) (x : Option UInt32) : Report Unit := do
  let table := opening config
  let caster := table.turn.active
  let (loaded, readings) := definition.load table.nextId caster config.reader
  sayEvents config readings.events
  let spell ← need (definition.name ++ " is not an instant or sorcery with parsed effects")
    loaded.spell
  let value := (x.getD 0).toNat
  let cost ← need s!"X = {value} is more mana than a cost can hold"
    (spell.manaCost.withX (x.getD 0))
  let table := (table.insertCard loaded.card).2.updatePlayer caster fun player =>
    { player with manaPool := .covering cost }
  let targets := View.chooseTargets { table } config.rules spell.targets caster
    spell.manaCost.colors
  let stack ← ofExcept (Stack.ofTable table)
  let scene : Scene := { table, engine := { rules := config.rules }, stack }
  let (item, scene) ← play config scene (Scene.cast spell caster targets x false)
  say ("Cast " ++ definition.name ++ " as " ++ item.text)
  let (resolution, scene) ← play config scene (passRound stack.seats.length)
  resolution.toList.forM fun resolution => say (resolutionText resolution)
  let (_, scene) ← play config scene (Scene.onTable Table.buryDying)
  scene.table.players.forM fun player =>
    say (player.name ++ ": " ++ toString player.life.toInt ++ " life")

/-! ## Running -/

/-- What the program does for an invocation. -/
def report (readFile : String → Option String) (invocation : Invocation) : Report Unit := do
  let config ← match invocation.settings.config with
    | none => pure {}
    | some file => load "config" readFile Config.read file
  let config := invocation.settings.adjust config
  match invocation.command with
  | .parse text name json => parse config text name json
  | .card file json => do card config (← load "card" readFile CardFile.read file) json
  | .cast file x => do cast config (← load "card" readFile CardFile.read file) x

/-- Runs the program on its arguments; files are read through `readFile`. -/
def run (readFile : String → Option String) (args : List String) : Outcome :=
  match Invocation.ofList? args with
  | none => { code := 2 }
  | some invocation =>
    match (report readFile invocation).run [] with
    | (.ok (), output) => { code := 0, output }
    | (.error message, output) => { code := 1, output, failure := some ("Error: " ++ message) }

end Program

end CardRules
