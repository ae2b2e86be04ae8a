import CardRules.Text.Search

/-!
# Events and journals

What happens is reported as events: a level, perhaps a category, and a message. A journal decides
by its mode whether an event is kept, printed or both; printing also depends on its verbosity.
Events never go back into play: a journal is only ever written to.
-/

set_option autoImplicit false

namespace CardRules

/-- How much is reported, in increasing order. -/
inductive Verbosity where
  | silent
  | minimal
  | normal
  | verbose
deriving DecidableEq, Repr, Inhabited

namespace Verbosity

/-- Every level. -/
def all : List Verbosity := [silent, minimal, normal, verbose]

/-- The name of a level. -/
def name : Verbosity → String
  | silent => "Silent"
  | minimal => "Minimal"
  | normal => "Normal"
  | verbose => "Verbose"

/-- The rank of a level. -/
def rank : Verbosity → Nat
  | silent => 0
  | minimal => 1
  | normal => 2
  | verbose => 3

/-- Whether events of a level are printed at a verbosity. -/
def admits (verbosity level : Verbosity) : Bool := level.rank ≤ verbosity.rank

end Verbosity

/-- How events are printed. -/
inductive Format where
  | text
  | json
deriving DecidableEq, Repr, Inhabited

namespace Format

/-- Both formats. -/
def all : List Format := [text, json]

/-- The name of a format. -/
def name : Format → String
  | text => "Text"
  | json => "Json"

end Format

/-- Where events go. -/
inductive Mode where
  | stdout
  | memory
  | both
deriving DecidableEq, Repr, Inhabited

namespace Mode

/-- Every mode. -/
def all : List Mode := [stdout, memory, both]

/-- The name of a mode. -/
def name : Mode → String
  | stdout => "Stdout"
  | memory => "Memory"
  | both => "Both"

/-- Whether events are kept. -/
def keeps : Mode → Bool
  | stdout => false
  | memory | both => true

/-- Whether events are printed. -/
def prints : Mode → Bool
  | memory => false
  | stdout | both => true

end Mode

/-- Something that happened. -/
structure Event where
  level : Verbosity
  message : String
  category : Option String := none
deriving DecidableEq, Repr, Inhabited

namespace Event

/-- An event without category at the usual level. -/
def normal (message : String) : Event := { level := .normal, message }

/-- An event without category for readers who want every detail. -/
def verbose (message : String) : Event := { level := .verbose, message }

/-- An event of a category. -/
def ofCategory (level : Verbosity) (category message : String) : Event :=
  { level, message, category := some category }

end Event

/-- The settings of a journal and the events it has kept, oldest first. -/
structure Journal where
  verbosity : Verbosity := .normal
  format : Format := .text
  mode : Mode := .stdout
  entries : List Event := []
deriving DecidableEq, Repr, Inhabited

namespace Journal

/-- A journal that keeps everything and prints nothing. -/
def keeping : Journal := { verbosity := .verbose, mode := .memory }

/-- A journal with the same settings and nothing kept. -/
def fresh (journal : Journal) : Journal := { journal with entries := [] }

/-- Whether an event is printed when it is reported. -/
def prints (journal : Journal) (event : Event) : Bool :=
  journal.mode.prints && journal.verbosity.admits event.level

/-- The events, among some, that are printed when they are reported. -/
def printed (journal : Journal) (events : List Event) : List Event := events.filter journal.prints

/-- The journal after some events. -/
def record (journal : Journal) (events : List Event) : Journal :=
  if journal.mode.keeps then { journal with entries := journal.entries ++ events } else journal

/-- The kept events that flushing prints, whatever the mode. -/
def flushed (journal : Journal) : List Event :=
  journal.entries.filter fun event => journal.verbosity.admits event.level

/-- The number of kept events whose message contains a text. -/
def count (journal : Journal) (text : String) : Nat :=
  (journal.entries.filter fun event => Text.occurs text.toList event.message.toList).length

theorem record_append (journal : Journal) (before after : List Event) :
    journal.record (before ++ after) = (journal.record before).record after := by
  simp only [record]
  split <;> simp_all

end Journal

end CardRules
