import CardRules.Arguments
import CardRules.Config
import CardRules.Text.Case

/-!
# What the program is asked to do

An invocation is a command together with the options that hold for all commands. Those may stand
before the name of the command or after it; after it they count.
-/

set_option autoImplicit false

namespace CardRules

/-- What the program can do. -/
inductive Command where
  /-- Read rules text. -/
  | parse (text : String) (name : Option String) (json : Bool)
  /-- Read a card file. -/
  | card (file : String) (json : Bool)
  /-- Cast the spell of a card file, with a value for X. -/
  | cast (file : String) (x : Option UInt32)
deriving DecidableEq, Repr

/-- Options that hold for all commands. -/
structure Settings where
  config : Option String := none
  verbosity : Option Verbosity := none
deriving DecidableEq, Repr

/-- A command and its options. -/
structure Invocation where
  settings : Settings
  command : Command
deriving DecidableEq, Repr

/-- The level that a word or its rank names, case disregarded. -/
def Verbosity.ofArgument? (argument : String) : Option Verbosity :=
  all.find? fun level =>
    Text.sameLetters argument.toList level.name.toList || argument == toString level.rank

/-- The name of a file, which is not empty. -/
def fileName? (argument : String) : Option String := if argument.isEmpty then none else some argument

/-- A value for X. -/
def xValue? (argument : String) : Option UInt32 := do
  let n ← Text.integer? argument.toList
  if 0 ≤ n ∧ n ≤ 4294967295 then some (UInt32.ofNat n.toNat) else none

namespace Settings

/-- The options that hold for all commands. -/
def forms : List OptionForm := [⟨"config", none, true⟩, ⟨"verbosity", some 'v', true⟩]

/-- The settings among some arguments. -/
def ofArguments? (arguments : Arguments) : Option Settings := do
  pure
    { config := ← arguments.value? "config" fileName?
      verbosity := ← arguments.value? "verbosity" Verbosity.ofArgument? }

/-- Settings that count, and others for what they leave open. -/
def orElse (inner outer : Settings) : Settings where
  config := inner.config <|> outer.config
  verbosity := inner.verbosity <|> outer.verbosity

/-- A configuration with the settings that go before it. -/
def adjust (settings : Settings) (config : Config) : Config :=
  { config with verbosity := settings.verbosity.getD config.verbosity }

end Settings

namespace Command

/-- The names of the commands. -/
def names : List String := ["parse", "card", "cast"]

/-- The options of a command, apart from those that hold for all. -/
def forms : String → List OptionForm
  | "parse" => [⟨"name", none, true⟩, ⟨"json", none, false⟩]
  | "card" => [⟨"json", none, false⟩]
  | "cast" => [⟨"x-value", some 'x', true⟩]
  | _ => []

/-- The command of a name, with its arguments. -/
def ofArguments? (name : String) (arguments : Arguments) : Option Command := do
  let operand ← arguments.operand?
  match name with
  | "parse" =>
    pure (.parse operand (← arguments.value? "name" some) (arguments.given "json"))
  | "card" => pure (.card (← fileName? operand) (arguments.given "json"))
  | "cast" => pure (.cast (← fileName? operand) (← arguments.value? "x-value" xValue?))
  | _ => none

/-- The card file that a command reads. -/
def file? : Command → Option String
  | parse _ _ _ => none
  | card file _ | cast file _ => some file

end Command

namespace Invocation

/-- The invocation that the arguments of the program are. -/
def ofList? (args : List String) : Option Invocation := do
  let outer ← Arguments.ofList? Settings.forms Command.names.contains args
  if !outer.operands.isEmpty then none
  else match outer.rest with
    | [] => none
    | name :: args =>
      let inner ← Arguments.ofList? (Settings.forms ++ Command.forms name) (fun _ => false) args
      let settings ← Settings.ofArguments? outer
      pure
        { settings := (← Settings.ofArguments? inner).orElse settings
          command := ← Command.ofArguments? name inner }

/-- The files that are read for an invocation. -/
def files (invocation : Invocation) : List String :=
  invocation.settings.config.toList ++ invocation.command.file?.toList

end Invocation

end CardRules
