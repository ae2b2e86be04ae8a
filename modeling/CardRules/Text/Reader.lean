import CardRules.Text.Case

/-!
# Readers

A reader lists the ways to read a front part of a text, the preferred way first. Reading a whole
text takes the first way that leaves nothing over. So preferences are decided from left to right:
an earlier alternative before a later one, a part that is there before its absence, a shorter
stretch before a longer one (`before`), and a later failure falls back to the next way.

A run of characters, or of repetitions, is read in one way, as far as it goes (`runs`, `skip`,
`times`). That is enough where what follows the run cannot start with one more piece of it, and it
keeps the ways of a long text few.

The words of a phrase are read by simple case folding (`Text.fold`).
-/

set_option autoImplicit false

namespace CardRules.Text

/-- The ways to read a front part of a text: what was read, and the rest. -/
def Reader (α : Type) : Type := List Char → List (α × List Char)

namespace Reader

variable {α β : Type}

/-- Read nothing. -/
protected def pure (a : α) : Reader α := fun s => [(a, s)]

/-- Read one thing, then another that may depend on it. -/
protected def bind (r : Reader α) (f : α → Reader β) : Reader β := fun s =>
  (r s).flatMap fun (a, rest) => f a rest

instance : Monad Reader where
  pure := Reader.pure
  bind := Reader.bind

/-! ## Alternatives -/

/-- Every reader in turn, earlier ones preferred. -/
def oneOf (rs : List (Reader α)) : Reader α := fun s => rs.flatMap fun r => r s

/-- A part that may be missing; present is preferred. -/
def maybe (r : Reader α) : Reader (Option α) := fun s =>
  ((r s).map fun (a, rest) => (some a, rest)) ++ [(none, s)]

/-- A part that may be missing, when all that matters is whether it is there. -/
def flag (r : Reader α) : Reader Bool := fun s =>
  ((r s).map fun (_, rest) => (true, rest)) ++ [(false, s)]

/-! ## Words -/

/-- These very words, case disregarded. -/
def words (phrase : String) : Reader Unit := fun s =>
  go phrase.toList s
where
  /-- The rest after the characters of a phrase. -/
  go : List Char → List Char → List (Unit × List Char)
    | [], s => [((), s)]
    | _ :: _, [] => []
    | a :: phrase, b :: s => if fold b == a then go phrase s else []

/-- One of several phrases, earlier ones preferred. -/
def anyWords (phrases : List String) : Reader Unit := oneOf (phrases.map words)

/-- Any character of a line. -/
def isInLine (c : Char) : Bool := c != '\n'

/-- At least one character of a line, and then what a reader reads; fewer characters are
preferred. -/
def before (r : Reader α) : Reader (List Char × α)
  | [] => []
  | c :: s => if isInLine c then go [c] s else []
where
  /-- The ways after the characters `seen`, the last one first. -/
  go (seen : List Char) (s : List Char) : List ((List Char × α) × List Char) :=
    ((r s).map fun (a, rest) => ((seen.reverse, a), rest)) ++
      match s with
      | [] => []
      | c :: s => if isInLine c then go (c :: seen) s else []

/-- The end of the text. -/
def atEnd : Reader Unit := fun s => if s.isEmpty then [((), [])] else []

/-! ## Runs of characters -/

/-- One character that satisfies `p`. -/
def oneChar (p : Char → Bool) : Reader Char
  | [] => []
  | c :: s => if p c then [(c, s)] else []

/-- All the characters at the front that satisfy `p`, and at least one. -/
def runs (p : Char → Bool) : Reader (List Char) := fun s =>
  if s.head?.any p then [(s.takeWhile p, s.dropWhile p)] else []

/-- All the characters at the front that satisfy `p`. -/
def skip (p : Char → Bool) : Reader Unit := fun s => [((), s.dropWhile p)]

/-- A stretch of at least one character other than `mark`, and the mark after it. -/
def upTo (mark : Char) : Reader (List Char) := fun s =>
  match s.takeWhile (· != mark), s.dropWhile (· != mark) with
  | [], _ => []
  | _ :: _, [] => []
  | front, _ :: rest => [(front, rest)]

/-- All the rest of a line, which may be empty. -/
def lineOrNothing : Reader (List Char) := fun s => if s.all isInLine then [(s, [])] else []

/-- All the rest of a line: at least one character. -/
def line : Reader (List Char) := fun s => if s.isEmpty then [] else lineOrNothing s

/-! ## Whole readings -/

/-- What the preferred ways of a reader, one after the other, read at most so many times. -/
def timesWithin : Nat → Reader α → List Char → List α × List Char
  | 0, _, s => ([], s)
  | n + 1, r, s =>
    match (r s).head? with
    | none => ([], s)
    | some (a, rest) =>
      let (as, rest) := timesWithin n r rest
      (a :: as, rest)

/-- A reader repeated as often as it goes. Each time has to read something. -/
def times (r : Reader α) : Reader (List α) := fun s => [timesWithin s.length r s]

/-- The characters that a reader reads. -/
def captured (r : Reader α) : Reader (List Char) := fun s =>
  (r s).map fun (_, rest) => (s.take (s.length - rest.length), rest)

/-- The first way to read a whole text. -/
def read? (r : Reader α) (s : List Char) : Option α :=
  (r s).findSome? fun (a, rest) => if rest.isEmpty then some a else none

theorem bind_run (r : Reader α) (f : α → Reader β) (s : List Char) :
    (r >>= f) s = (r s).flatMap fun (a, rest) => f a rest := rfl

theorem pure_run (a : α) (s : List Char) : (pure a : Reader α) s = [(a, s)] := rfl

end Reader

end CardRules.Text
