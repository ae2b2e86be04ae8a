/-!
# Blanks, lines and words

The characters that separate (the Unicode `White_Space` property) and the three cuts made with
them: trimming the ends of a text, its lines, and its words. A text is a list of characters
here, so that each cut is a recursion on the data.

Line ends are `\n` and `\r\n`; a text that ends with a line end has no empty last line.
-/

set_option autoImplicit false

namespace CardRules.Text

/-- The Unicode `White_Space` property. -/
def isBlank (c : Char) : Bool :=
  let n := c.toNat
  (9 ≤ n && n ≤ 13) || n == 0x20 || n == 0x85 || n == 0xA0 || n == 0x1680 ||
    (0x2000 ≤ n && n ≤ 0x200A) || n == 0x2028 || n == 0x2029 || n == 0x202F ||
    n == 0x205F || n == 0x3000

theorem isBlank_of_isWhitespace {c : Char} (h : c.isWhitespace = true) : isBlank c = true := by
  simp only [Char.isWhitespace, Bool.or_eq_true, decide_eq_true_eq] at h
  rcases h with ((rfl | rfl) | rfl) | rfl <;> decide

/-- A text without the front characters that satisfy `p`, and without the back ones. -/
def dropEnds (p : Char → Bool) (s : List Char) : List Char :=
  ((s.dropWhile p).reverse.dropWhile p).reverse

/-- A text without the back characters that satisfy `p`. -/
def dropBack (p : Char → Bool) (s : List Char) : List Char :=
  (s.reverse.dropWhile p).reverse

/-- A text without blanks at its ends. -/
def trim (s : List Char) : List Char := dropEnds isBlank s

/-- The lines of a text, without their line ends. -/
def lines : List Char → List (List Char)
  | [] => []
  | '\n' :: rest => [] :: lines rest
  | '\r' :: '\n' :: rest => [] :: lines rest
  | c :: rest =>
    match lines rest with
    | [] => [[c]]
    | line :: more => (c :: line) :: more

/-- The maximal runs of characters that are not blank. -/
def words (s : List Char) : List (List Char) :=
  (s.splitOnP isBlank).filter (!·.isEmpty)

theorem length_dropWhile_le (p : Char → Bool) (s : List Char) :
    (s.dropWhile p).length ≤ s.length := by
  simpa using (List.dropWhile_suffix p (l := s)).length_le

theorem length_dropBack_le (p : Char → Bool) (s : List Char) :
    (dropBack p s).length ≤ s.length := by
  simpa [dropBack] using length_dropWhile_le p s.reverse

theorem length_trim_le (s : List Char) : (trim s).length ≤ s.length := by
  have h := length_dropWhile_le isBlank (s.dropWhile isBlank).reverse
  have h' := length_dropWhile_le isBlank s
  simp only [List.length_reverse] at h
  simp only [trim, dropEnds, List.length_reverse]
  omega

end CardRules.Text
