import CardRules.Data.Serial
import CardRules.Spell

/-!
# Abilities as data

The data forms of abilities and of all they are made of: colors and mana costs, keywords, target
requirements, effects. Numbers that identify something are kept as bare numbers.
-/

set_option autoImplicit false

namespace CardRules

instance : Serial EntityId where
  encode id := encode id.number
  decode d := (decode d).map EntityId.mk

instance : Serial AbilityId where
  encode id := encode id.number
  decode d := (decode d).map AbilityId.mk

instance : Serial ItemId where
  encode id := encode id.number
  decode d := (decode d).map ItemId.mk

instance : Serial Color where
  encode color := .text color.name
  decode := Data.constantOf? Color.all Color.name

instance : Serial CardType where
  encode t := .text t.name
  decode := Data.constantOf? CardType.all CardType.name

instance : Serial Subtype where
  encode subtype := .text subtype.text
  decode d := (decode d).map Subtype.mk

instance : Serial Duration where
  encode duration := .text duration.name
  decode := Data.constantOf? Duration.all Duration.name

instance : Serial Keyword where
  encode
    | .protectionFrom color => .object [("ProtectionFrom", encode color)]
    | .other text => .object [("Other", .text text)]
    | keyword => .text keyword.name
  decode d :=
    match d.tagged? with
    | some ("ProtectionFrom", d) => (decode d).map Keyword.protectionFrom
    | some ("Other", d) => (decode d).map Keyword.other
    | _ => d.constantOf? Keyword.plain Keyword.name

instance : Serial ManaCost where
  encode cost := .object
    [("generic", encode cost.generic), ("white", encode cost.white), ("blue", encode cost.blue),
      ("black", encode cost.black), ("red", encode cost.red), ("green", encode cost.green),
      ("colorless", encode cost.colorless), ("x", encode cost.x)]
  decode d := do
    let f ← d.fields? ["generic", "white", "blue", "black", "red", "green", "colorless", "x"]
    pure
      { generic := ← f.need "generic", white := ← f.need "white", blue := ← f.need "blue"
        black := ← f.need "black", red := ← f.need "red", green := ← f.need "green"
        colorless := ← f.need "colorless", x := ← f.need "x" }

instance : Serial Cost where
  encode cost := .object
    [("mana", encode cost.mana), ("tap", encode cost.tap), ("sacrifice", encode cost.sacrifice),
      ("discard", encode cost.discard), ("life", encode cost.life), ("other", encode cost.other)]
  decode d := do
    let f ← d.fields? ["mana", "tap", "sacrifice", "discard", "life", "other"]
    pure
      { mana := ← f.need "mana", tap := ← f.need "tap", sacrifice := ← f.need "sacrifice"
        discard := ← f.need "discard", life := ← f.need "life", other := ← f.need "other" }

instance : Serial TargetKind where
  encode kind := .text kind.name
  decode := Data.constantOf? TargetKind.all TargetKind.name

instance : Serial Comparison where
  encode comparison := .text comparison.name
  decode := Data.constantOf? Comparison.all Comparison.name

instance : Serial Control where
  encode control := .text control.name
  decode := Data.constantOf? Control.all Control.name

instance : Serial Trait where
  encode
    | .cardType t => .object [("CardType", encode t)]
    | .subtype s => .object [("Subtype", .text s)]
    | .keyword k => .object [("Keyword", encode k)]
    | .power c n => .object [("Power", encode (c, n))]
    | .toughness c n => .object [("Toughness", encode (c, n))]
    | .manaValue c n => .object [("ManaValue", encode (c, n))]
    | .controller c => .object [("Controller", encode c)]
    | .color c => .object [("Color", encode c)]
    | .tapped => .text "Tapped"
    | .untapped => .text "Untapped"
    | .card id => .object [("Card", encode id)]
    | .other s => .object [("Other", .text s)]
  decode d :=
    match d.tagged? with
    | some ("CardType", d) => (decode d).map Trait.cardType
    | some ("Subtype", d) => (decode d).map Trait.subtype
    | some ("Keyword", d) => (decode d).map Trait.keyword
    | some ("Power", d) => (decode d).map fun (c, n) => Trait.power c n
    | some ("Toughness", d) => (decode d).map fun (c, n) => Trait.toughness c n
    | some ("ManaValue", d) => (decode d).map fun (c, n) => Trait.manaValue c n
    | some ("Controller", d) => (decode d).map Trait.controller
    | some ("Color", d) => (decode d).map Trait.color
    | some ("Card", d) => (decode d).map Trait.card
    | some ("Other", d) => (decode d).map Trait.other
    | _ => match d.constant? with
      | some "Tapped" => some .tapped
      | some "Untapped" => some .untapped
      | _ => none

instance : Serial Restriction where
  encode r := .object [("kind", encode r.trait), ("negated", encode r.negated)]
  decode d := do
    let f ← d.fields? ["kind", "negated"]
    pure { trait := ← f.need "kind", negated := ← f.need "negated" }

instance : Serial Target where
  encode target := .object
    [("target_type", encode target.kind), ("required", encode target.required),
      ("count", encode target.count), ("restrictions", encode target.restrictions)]
  decode d := do
    let f ← d.fields? ["target_type", "required", "count", "restrictions"]
    pure
      { kind := ← f.need "target_type", required := ← f.need "required"
        count := ← f.need "count", restrictions := ← f.need "restrictions" }

instance : Serial Choice where
  encode
    | .player id => .object [("Player", encode id)]
    | .permanent id => .object [("Permanent", encode id)]
    | .spell id => .object [("Spell", encode id)]
  decode d :=
    match d.tagged? with
    | some ("Player", d) => (decode d).map Choice.player
    | some ("Permanent", d) => (decode d).map Choice.permanent
    | some ("Spell", d) => (decode d).map Choice.spell
    | _ => none

instance : Serial EffectKind where
  encode kind := .text kind.name
  decode := Data.constantOf? EffectKind.all EffectKind.name

instance : Serial Effect where
  encode effect := .object
    [("effect_type", encode effect.kind), ("magnitude", encode effect.magnitude),
      ("duration", encode effect.duration), ("targets", encode effect.targets),
      ("description", encode effect.description)]
  decode d := do
    let f ← d.fields? ["effect_type", "magnitude", "duration", "targets", "description"]
    pure
      { kind := ← f.need "effect_type", magnitude := ← f.need "magnitude"
        duration := ← f.need "duration", targets := ← f.need "targets"
        description := ← f.need "description" }

instance : Serial AbilityKind where
  encode kind := .text kind.name
  decode := Data.constantOf? AbilityKind.all AbilityKind.name

instance : Serial Trigger where
  encode trigger := .text trigger.name
  decode := Data.constantOf? Trigger.all Trigger.name

instance : Serial Timing where
  encode timing := .object
    [("sorcery_speed", encode timing.sorcerySpeed), ("combat_only", encode timing.combatOnly),
      ("your_turn_only", encode timing.yourTurnOnly)]
  decode d := do
    let f ← d.fields? ["sorcery_speed", "combat_only", "your_turn_only"]
    pure
      { sorcerySpeed := ← f.need "sorcery_speed", combatOnly := ← f.need "combat_only"
        yourTurnOnly := ← f.need "your_turn_only" }

instance : Serial UsageLimit where
  encode limit := .object
    [("per_turn", encode limit.perTurn), ("per_game", encode limit.perGame)]
  decode d := do
    let f ← d.fields? ["per_turn", "per_game"]
    pure { perTurn := ← f.want "per_turn", perGame := ← f.want "per_game" }

instance : Serial Ability where
  encode ability := .object
    [("id", encode ability.id), ("name", encode ability.name),
      ("ability_type", encode ability.kind), ("source", encode ability.source),
      ("cost", encode ability.cost), ("effects", encode ability.effects),
      ("trigger", encode ability.trigger), ("timing", encode ability.timing),
      ("usage_limit", encode ability.usageLimit),
      ("uses_this_turn", encode ability.usesThisTurn),
      ("uses_this_game", encode ability.usesThisGame),
      ("oracle_text", encode ability.oracleText), ("parsed", encode ability.parsed)]
  decode d := do
    let f ← d.fields? ["id", "name", "ability_type", "source", "cost", "effects", "trigger",
      "timing", "usage_limit", "uses_this_turn", "uses_this_game", "oracle_text", "parsed"]
    pure
      { id := ← f.need "id", name := ← f.need "name", kind := ← f.need "ability_type"
        source := ← f.need "source", cost := ← f.need "cost", effects := ← f.need "effects"
        trigger := ← f.want "trigger", timing := ← f.need "timing"
        usageLimit := ← f.need "usage_limit", usesThisTurn := ← f.need "uses_this_turn"
        usesThisGame := ← f.need "uses_this_game", oracleText := ← f.need "oracle_text"
        parsed := ← f.need "parsed" }

instance : Serial Spell where
  encode spell := .object
    [("name", encode spell.name), ("mana_cost", encode spell.manaCost),
      ("types", encode spell.types), ("oracle_text", encode spell.oracleText),
      ("effects", encode spell.effects), ("source", encode spell.source),
      ("flash", encode spell.flash)]
  decode d := do
    let f ← d.fields? ["name", "mana_cost", "types", "oracle_text", "effects", "source", "flash"]
    pure
      { name := ← f.need "name", manaCost := ← f.need "mana_cost", types := ← f.need "types"
        oracleText := ← f.need "oracle_text", effects := ← f.need "effects"
        source := ← f.need "source", flash := ← f.need "flash" }

end CardRules
