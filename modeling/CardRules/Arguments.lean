import CardRules.Text.Search

/-!
# Command-line arguments

The arguments of a command are options and operands. An option is written with two dashes and its
name or with one dash and its letter. Its value, if it takes one, follows after an equals sign,
directly after the letter, or as the next argument, which then must not look like an option. Two
dashes alone end the options. No option may be given twice.
-/

set_option autoImplicit false

namespace CardRules

/-- An option that a command knows. Options with a letter take a value. -/
structure OptionForm where
  name : String
  letter : Option Char := none
  takesValue : Bool := true
deriving DecidableEq, Repr

/-- How an option is referred to. -/
inductive OptionKey where
  | name (name : List Char)
  | letter (letter : Char)
deriving DecidableEq, Repr

/-- Whether an option is the one referred to. -/
def OptionForm.answersTo (form : OptionForm) : OptionKey → Bool
  | .name name => form.name.toList == name
  | .letter letter => form.letter == some letter

/-- What an argument looks like. -/
inductive ArgumentShape where
  /-- The end of the options. -/
  | terminator
  /-- An option, with its value if that is part of the argument. -/
  | option (key : OptionKey) (value : Option (List Char))
  | operand
deriving DecidableEq, Repr

namespace ArgumentShape

/-- The value that follows the letter of an option. -/
def attached? : List Char → Option (List Char)
  | [] => none
  | '=' :: value => some value
  | value => some value

/-- What an argument looks like. A single dash is an operand. -/
def ofText : List Char → ArgumentShape
  | ['-', '-'] => .terminator
  | '-' :: '-' :: body =>
    match Text.cut? ['='] body with
    | some (name, value) => .option (.name name) (some value)
    | none => .option (.name body) none
  | '-' :: letter :: rest => .option (.letter letter) (attached? rest)
  | _ => .operand

end ArgumentShape

/-- The arguments of a command, sorted out. -/
structure Arguments where
  /-- The options by name, with their values; an option without value has the empty one. -/
  options : List (String × String) := []
  operands : List String := []
  /-- The name of another command and the arguments for it, where such a name ended the scan. -/
  rest : List String := []
deriving DecidableEq, Repr

namespace Arguments

/-- The arguments with one more option in front. -/
def addOption (arguments : Arguments) (name value : String) : Arguments :=
  { arguments with options := (name, value) :: arguments.options }

/-- The arguments with one more operand in front. -/
def addOperand (arguments : Arguments) (operand : String) : Arguments :=
  { arguments with operands := operand :: arguments.operands }

/-- Sorts out arguments for a command with these options. The scan ends at an operand that names
another command. -/
def scan? (forms : List OptionForm) (isCommand : String → Bool) : List String → Option Arguments
  | [] => some {}
  | arg :: args =>
    match ArgumentShape.ofText arg.toList with
    | .terminator => some { operands := args }
    | .operand =>
      if isCommand arg then some { rest := arg :: args }
      else (scan? forms isCommand args).map (·.addOperand arg)
    | .option key value => do
      let form ← forms.find? (·.answersTo key)
      match form.takesValue, value, args with
      | true, some value, args =>
        (scan? forms isCommand args).map (·.addOption form.name (String.ofList value))
      | true, none, value :: args =>
        if ArgumentShape.ofText value.toList = .operand then
          (scan? forms isCommand args).map (·.addOption form.name value)
        else none
      | true, none, [] => none
      | false, none, args => (scan? forms isCommand args).map (·.addOption form.name "")
      | false, some _, _ => none
termination_by args => args.length

/-- The arguments of a command, if they are in order and no option is given twice. -/
def ofList? (forms : List OptionForm) (isCommand : String → Bool) (args : List String) :
    Option Arguments :=
  (scan? forms isCommand args).filter fun arguments => (arguments.options.map (·.1)).Nodup

/-- The value of an option that may be missing, through a reader that may refuse it. -/
def value? {α : Type} (arguments : Arguments) (name : String) (read : String → Option α) :
    Option (Option α) :=
  match arguments.options.lookup name with
  | none => some none
  | some value => (read value).map some

/-- Whether an option is given. -/
def given (arguments : Arguments) (name : String) : Bool := (arguments.options.lookup name).isSome

/-- The only operand. -/
def operand? (arguments : Arguments) : Option String :=
  match arguments.operands with
  | [operand] => some operand
  | _ => none

end Arguments

end CardRules
