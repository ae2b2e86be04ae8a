import CardRules.Text.Blank
import CardRules.Text.Plain
import CardRules.Text.Reader
import CardRules.Text.Search
import CardRules.Text.WordChar

/-!
# Sentences of rules text

Rules text is first made plain: typographic characters become ASCII, reminder text in parentheses
goes, and a card's own name becomes "this permanent". Then it is cut into sentences, at the ends
of lines and at periods outside braces. A choice of modes ("Choose one --") takes the bulleted
lines that follow it into one sentence, with semicolons between the modes.
-/

set_option autoImplicit false

namespace CardRules.Sentence

open Text (isBlank)

/-! ## Plain text -/

/-- How a permanent's text names the permanent itself. -/
def self : List Char := "this permanent".toList

/-- A text without reminder text, read inside of one or not; `gap` holds the blanks just read, the
last one first, which go if a reminder text follows. -/
def dropRemindersFrom : (inside : Bool) → (gap : List Char) → List Char → List Char
  | _, gap, [] => gap.reverse
  | true, gap, c :: s => dropRemindersFrom (c != ')') gap s
  | false, gap, c :: s =>
    if isBlank c then dropRemindersFrom false (c :: gap) s
    else if c = '(' ∧ s.contains ')' then dropRemindersFrom true [] s
    else gap.reverse ++ c :: dropRemindersFrom false [] s

/-- A text without reminder text and the blanks before it. A parenthesis that is never closed opens
none. -/
def dropReminders (s : List Char) : List Char := dropRemindersFrom false [] s

/-- A text with every row of spaces and tabs made one space. -/
def squeeze : List Char → List Char
  | [] => []
  | c :: s =>
    if c = ' ' ∨ c = '\t' then
      if s.head? = some ' ' ∨ s.head? = some '\t' then squeeze s else ' ' :: squeeze s
    else c :: squeeze s

/-- A text in which a name is replaced; blank names are not looked for. -/
def replaceName (name : Option (List Char)) (s : List Char) : List Char :=
  match name with
  | none => s
  | some name => if (Text.trim name).isEmpty then s else Text.replace (Text.plain name) self s

/-- Rules text made plain. With a name, that name means the permanent itself, as do the marks `~`
and `CARDNAME`. -/
def normalize (text : List Char) (name : Option (List Char)) : List Char :=
  let text := replaceName name (dropReminders (Text.plain text))
  let text := Text.replace ['~'] self (Text.replace "CARDNAME".toList self text)
  Text.joinWith ['\n'] ((Text.lines text).map fun line => squeeze (Text.trim line))

/-! ## Cutting into sentences -/

/-- The sentences of a line, given the depth of braces and the sentence so far, last character
first. -/
def cutFrom : (depth : Nat) → (seen : List Char) → List Char → List (List Char)
  | _, seen, [] => [seen.reverse]
  | depth, seen, c :: s =>
    let depth := if c = '{' then depth + 1 else if c = '}' then depth - 1 else depth
    if c = '.' ∧ depth = 0 then seen.reverse :: cutFrom depth [] s
    else cutFrom depth (c :: seen) s

/-- The sentences of a line: it is cut at periods outside braces. -/
def cutLine (line : List Char) : List (List Char) :=
  ((cutFrom 0 [] line).map Text.trim).filter (!·.isEmpty)

/-- Whether a line announces a choice of modes. -/
def isModalHeader (line : List Char) : Bool :=
  let header : Text.Reader Unit := do
    Text.Reader.words "choose "
    Text.Reader.anyWords ["one", "two", "three"]
  (header line).any fun (_, rest) => !rest.head?.any Text.isWordChar

/-- Whether a character marks a mode. -/
def isBulletMark (c : Char) : Bool := c == '*' || c == '-' || c == '\u2022'

/-- Whether a line is a mode. -/
def isBullet (line : List Char) : Bool := line.head?.any isBulletMark

/-- A mode without its mark and its final periods. -/
def mode (line : List Char) : List Char :=
  Text.dropBack (· == '.') (line.dropWhile fun c => isBulletMark c || c == ' ')

/-- A choice of modes with one more mode. -/
def addMode (block line : List Char) : List Char :=
  block ++ (if block.getLast? = some '-' then [' '] else [';', ' ']) ++ mode line

/-- The sentences of some lines, given the choice of modes that the lines before are part of. -/
def cutLines : (block : Option (List Char)) → List (List Char) → List (List Char)
  | none, [] => []
  | some block, [] => [block]
  | none, line :: lines =>
    if isModalHeader line then cutLines (some (Text.dropBack (· == '.') line)) lines
    else cutLine line ++ cutLines none lines
  | some block, line :: lines =>
    if isBullet line then cutLines (some (addMode block line)) lines
    else if isModalHeader line then
      block :: cutLines (some (Text.dropBack (· == '.') line)) lines
    else block :: (cutLine line ++ cutLines none lines)

/-- The sentences of a text. -/
def split (s : List Char) : List (List Char) :=
  cutLines none (((Text.lines s).map Text.trim).filter (!·.isEmpty))

end CardRules.Sentence
