/-!
# Mana symbols

A symbol is written in braces. Three readings of a text with symbols are used: `symbolsIn` finds
every symbol anywhere, `symbolRun?` accepts a text that is nothing but symbols (with gaps before
and between them and at the end), and `symbolParts` cuts a card's cost line at each open brace,
whether or not it is closed.
-/

set_option autoImplicit false

namespace CardRules

/-- Symbols written one after the other, each in braces. -/
def braced (symbols : List (List Char)) : List Char :=
  symbols.flatMap fun s => '{' :: s ++ ['}']

/-- The symbols of a text from inside an open brace (its contents so far, last first) or from
outside. A brace that is closed at once or never holds no symbol. -/
def symbolsFrom : (inside : Option (List Char)) → List Char → List (List Char)
  | _, [] => []
  | none, c :: s => if c = '{' then symbolsFrom (some []) s else symbolsFrom none s
  | some seen, c :: s =>
    if c = '}' then
      if seen.isEmpty then symbolsFrom none s else seen.reverse :: symbolsFrom none s
    else symbolsFrom (some (c :: seen)) s

/-- The contents of every symbol in a text, in order. -/
def symbolsIn (s : List Char) : List (List Char) := symbolsFrom none s

/-- The symbols of a text of symbols and gaps, from inside an open brace or from outside. -/
def symbolRunFrom : (inside : Option (List Char)) → List Char → Option (List (List Char))
  | none, [] => some []
  | some _, [] => none
  | none, c :: s =>
    if c = '{' then symbolRunFrom (some []) s
    else if c = ' ' ∨ c = '\t' then symbolRunFrom none s
    else none
  | some seen, c :: s =>
    if c = '}' then
      if seen.isEmpty then none else (symbolRunFrom none s).map (seen.reverse :: ·)
    else symbolRunFrom (some (c :: seen)) s

/-- The symbols of a text that holds at least one symbol and, apart from spaces and tabs, nothing
else. -/
def symbolRun? (s : List Char) : Option (List (List Char)) :=
  (symbolRunFrom none s).filter (!·.isEmpty)

/-- What follows each open brace, up to the next brace of either kind. -/
def symbolParts (s : List Char) : List (List Char) :=
  ((s.splitOn '{').drop 1).map fun part => part.takeWhile (· != '}')

end CardRules
