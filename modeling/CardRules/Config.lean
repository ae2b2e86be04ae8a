import CardRules.Ability.Reading
import CardRules.Data.Forms.Table
import CardRules.Target.Legality

/-!
# Configuration

The settings of a run: how events are reported, how much life players start with, and how rules
text and untargetability are read. A configuration is kept as a JSON object in which every member
may be missing (`read`, `text`).
-/

set_option autoImplicit false

namespace CardRules

/-- The settings of a run. -/
structure Config where
  verbosity : Verbosity := .normal
  mode : Mode := .stdout
  format : Format := .text
  startingLife : Int32 := 20
  /-- Whether target phrases are read closely. -/
  closely : Bool := true
  /-- Whether shroud, hexproof and protection are read from keywords. -/
  keywordRules : Bool := false
deriving DecidableEq, Repr, Inhabited

namespace Config

instance : Serial Config where
  encode config := .object
    [("verbosity", encode config.verbosity), ("output_mode", encode config.mode),
      ("output_format", encode config.format), ("starting_life", encode config.startingLife),
      ("enhanced_targeting", encode config.closely),
      ("keyword_untargetability", encode config.keywordRules)]
  decode d := do
    let f ← d.someFields? ["verbosity", "output_mode", "output_format", "starting_life",
      "enhanced_targeting", "keyword_untargetability"]
    pure
      { verbosity := ← f.orElse "verbosity" .normal, mode := ← f.orElse "output_mode" .stdout
        format := ← f.orElse "output_format" .text
        startingLife := ← f.orElse "starting_life" 20
        closely := ← f.orElse "enhanced_targeting" true
        keywordRules := ← f.orElse "keyword_untargetability" false }

/-- Reads a configuration; players have to start alive. -/
def read (text : String) : Except Fault Config :=
  match (Data.read? text).bind decode with
  | none => .error .malformed
  | some (config : Config) =>
    if config.startingLife ≤ 0 then .error (.badLife config.startingLife) else .ok config

/-- A configuration as text over several lines. -/
def text (config : Config) : String := (encode config).block

/-- An empty journal with these settings. -/
def journal (config : Config) : Journal :=
  { verbosity := config.verbosity, format := config.format, mode := config.mode }

/-- A reader of abilities with these settings, at its first ability. -/
def reader (config : Config) : AbilityReader := { closely := config.closely }

/-- What makes objects untargetable. -/
def rules (config : Config) : Untargetability := if config.keywordRules then .keywords else .ignored

end Config

end CardRules
