import CardRules.Data.Forms.Ability
import CardRules.Journal
import CardRules.Table

/-!
# Games as data

The data forms of cards, players, piles and turns, of journals (settings alone, without what they
have kept) and of a saved game, which is a table together with its journal.
-/

set_option autoImplicit false

namespace CardRules

instance : Serial Modifier where
  encode m := .object
    [("power", encode m.power), ("toughness", encode m.toughness),
      ("duration", encode m.duration)]
  decode d := do
    let f ← d.fields? ["power", "toughness", "duration"]
    pure
      { power := ← f.need "power", toughness := ← f.need "toughness"
        duration := ← f.need "duration" }

instance : Serial Card where
  encode card := .object
    [("id", encode card.id), ("name", encode card.name), ("mana_cost", encode card.manaCost),
      ("types", encode card.types), ("subtypes", encode card.subtypes),
      ("colors", encode card.colors), ("power", encode card.power),
      ("toughness", encode card.toughness), ("text", encode card.text),
      ("owner", encode card.owner), ("controller", encode card.controller),
      ("tapped", encode card.tapped), ("keywords", encode card.keywords),
      ("modifiers", encode card.modifiers), ("damage", encode card.damage)]
  decode d := do
    let f ← d.fields? ["id", "name", "mana_cost", "types", "subtypes", "colors", "power",
      "toughness", "text", "owner", "controller", "tapped", "keywords", "modifiers", "damage"]
    pure
      { id := ← f.need "id", name := ← f.need "name", manaCost := ← f.need "mana_cost"
        types := ← f.need "types", subtypes := ← f.need "subtypes", colors := ← f.need "colors"
        power := ← f.want "power", toughness := ← f.want "toughness", text := ← f.need "text"
        owner := ← f.need "owner", controller := ← f.need "controller"
        tapped := ← f.need "tapped", keywords := ← f.need "keywords"
        modifiers := ← f.need "modifiers", damage := ← f.need "damage" }

instance : Serial ManaPool where
  encode pool := .object
    [("white", encode pool.white), ("blue", encode pool.blue), ("black", encode pool.black),
      ("red", encode pool.red), ("green", encode pool.green),
      ("colorless", encode pool.colorless)]
  decode d := do
    let f ← d.fields? ["white", "blue", "black", "red", "green", "colorless"]
    pure
      { white := ← f.need "white", blue := ← f.need "blue", black := ← f.need "black"
        red := ← f.need "red", green := ← f.need "green", colorless := ← f.need "colorless" }

instance : Serial Player where
  encode player := .object
    [("id", encode player.id), ("name", encode player.name), ("life", encode player.life),
      ("mana_pool", encode player.manaPool)]
  decode d := do
    let f ← d.fields? ["id", "name", "life", "mana_pool"]
    pure
      { id := ← f.need "id", name := ← f.need "name", life := ← f.need "life"
        manaPool := ← f.need "mana_pool" }

instance : Serial Zone where
  encode zone := .text zone.name
  decode := Data.constantOf? Zone.all Zone.name

instance : Serial Pile where
  encode pile := .object
    [("zone_type", encode pile.zone), ("owner", encode pile.owner), ("cards", encode pile.cards)]
  decode d := do
    let f ← d.fields? ["zone_type", "owner", "cards"]
    pure { zone := ← f.need "zone_type", owner := ← f.need "owner", cards := ← f.need "cards" }

instance : Serial PlayerZones where
  encode zones := .object
    [("library", encode zones.library), ("hand", encode zones.hand),
      ("graveyard", encode zones.graveyard), ("exile", encode zones.exile)]
  decode d := do
    let f ← d.fields? ["library", "hand", "graveyard", "exile"]
    pure
      { library := ← f.need "library", hand := ← f.need "hand"
        graveyard := ← f.need "graveyard", exile := ← f.need "exile" }

instance : Serial Step where
  encode step := .text step.name
  decode := Data.constantOf? Step.all Step.name

instance : Serial Turn where
  encode turn := .object
    [("turn_number", encode turn.number), ("current_step", encode turn.step),
      ("active_player", encode turn.active)]
  decode d := do
    let f ← d.fields? ["turn_number", "current_step", "active_player"]
    pure
      { number := ← f.need "turn_number", step := ← f.need "current_step"
        active := ← f.need "active_player" }

instance : Serial Verbosity where
  encode verbosity := .text verbosity.name
  decode := Data.constantOf? Verbosity.all Verbosity.name

instance : Serial Format where
  encode format := .text format.name
  decode := Data.constantOf? Format.all Format.name

instance : Serial Mode where
  encode mode := .text mode.name
  decode := Data.constantOf? Mode.all Mode.name

/-- An event as data; the members stand in the order of a printed line. -/
def Event.encode (event : Event) : Data := .object
  [("level", CardRules.encode event.level), ("message", .text event.message),
    ("category", CardRules.encode event.category)]

/-- The settings of a journal; a setting that is not there has its usual value. -/
instance : Serial Journal where
  encode journal := .object
    [("verbosity", encode journal.verbosity), ("output_format", encode journal.format),
      ("output_mode", encode journal.mode)]
  decode d := do
    let f ← d.someFields? ["verbosity", "output_format", "output_mode"]
    pure
      { verbosity := ← f.orElse "verbosity" .normal, format := ← f.orElse "output_format" .text
        mode := ← f.orElse "output_mode" .stdout }

/-- An event as a line of output. -/
def Event.line (event : Event) : Format → String
  | .json => event.encode.line
  | .text => if event.level = .minimal then event.message else "  " ++ event.message

/-- The lines that a journal prints for some events. -/
def Journal.lines (journal : Journal) (events : List Event) : List String :=
  (journal.printed events).map fun event => event.line journal.format

instance {α : Type} [Serial α] : Serial (Store α) where
  encode store := .object [("entities", .object (store.entries.map fun (id, a) =>
    (id.text, encode a)))]
  decode d := do
    let f ← d.fields? ["entities"]
    match f.members.lookup "entities" with
    | some (.object members) =>
      let entries ← members.mapM fun (key, d) => do
        let id ← Text.word? key.toList
        let a ← decode d
        pure ((⟨id⟩ : EntityId), a)
      pure (entries.foldl (fun store (id, a) => store.insert id a) {})
    | _ => none

/-- A saved game. -/
structure Save where
  table : Table
  journal : Journal

instance : Serial Save where
  encode save := .object
    [("cards", encode save.table.cards), ("players", encode save.table.players),
      ("player_zones", encode save.table.zones), ("battlefield", encode save.table.battlefield),
      ("turn", encode save.table.turn), ("next_entity_id", encode save.table.nextId),
      ("logger", encode save.journal)]
  decode d := do
    let f ← d.fields? ["cards", "players", "player_zones", "battlefield", "turn",
      "next_entity_id", "logger"]
    pure
      { table :=
          { cards := ← f.need "cards", players := ← f.need "players"
            zones := ← f.need "player_zones", battlefield := ← f.need "battlefield"
            turn := ← f.need "turn", nextId := ← f.need "next_entity_id" }
        journal := ← f.need "logger" }

end CardRules
