/-!
# Plain letters

Rules text is read in ASCII. A text stays as it is up to its first character from U+007F on. From
there on it is spelled out: each character beyond ASCII has a plain spelling (an accent is dropped,
a typographic quote becomes a straight one, a letter of another script is written as it sounds), a
character without a known spelling is marked `[?]`, and control characters, line ends among them,
are left out.

The spelling of a whole word ends in a space that keeps it from its neighbour. That space is
dropped at the end of the text and before a spelling that brings a space itself.
-/

set_option autoImplicit false

namespace CardRules.Text

/-- Plain spellings of characters beyond ASCII. -/
def spellings : List (Char × String) :=
  [('\u0085', ""), ('\u00A0', " "), ('©', "(c)"), ('®', "(r)"), ('²', "2"), ('½', "1/2"),
   ('Æ', "AE"), ('É', "E"), ('×', "x"), ('Ø', "O"), ('ß', "ss"), ('ä', "a"), ('é', "e"),
   ('ï', "i"), ('ö', "o"), ('ü', "u"), ('œ', "oe"), ('\u0301', ""), ('Δ', "D"), ('α', "a"),
   ('Ж', "Zh"), ('я', "ia"), ('\u200B', " "), ('\u2010', "-"), ('\u2013', "-"), ('\u2212', "-"),
   ('\u2014', "--"), ('\u2018', "'"), ('\u2019', "'"), ('\u201C', "\""), ('\u201D', "\""),
   ('\u2022', "*"), ('\u2026', "..."), ('\u2028', "\n"), ('\u2029', "\n\n"), ('™', "tm"),
   ('←', "-"), ('→', "-"), ('中', "Zhong "), ('文', "Wen "), ('\uFF34', "T"), ('\uFF41', "a"),
   ('\uFF50', "p"), ('😀', "grinning ")]

/-- Whether a character is in the ASCII range. -/
def isAscii (c : Char) : Bool := c.toNat < 128

/-- Whether a character leaves a text as it stands: it is below the delete character. Control
characters are among them, so that lines and tabs stay. -/
def isPlain (c : Char) : Bool := c.toNat < 0x7F

/-- Whether a character is an ASCII control character. -/
def isControl (c : Char) : Bool := c.toNat < 0x20 || c.toNat == 0x7f

/-- The plain spelling of a character in a text that is spelled out. -/
def spelling (c : Char) : List Char :=
  if isControl c then []
  else if isAscii c then [c]
  else ((spellings.lookup c).getD "[?]").toList

/-- The spelling of a character as it stands before the spelling `next`; `none` is the end. -/
def fitSpelling (s : List Char) (next : Option (List Char)) : List Char :=
  let spaced := match next with
    | none => true
    | some t => t.head? == some ' '
  if 1 < s.length && s.getLast? == some ' ' && spaced then s.dropLast else s

/-- A text spelled out. -/
def spell : List Char → List Char
  | [] => []
  | c :: rest => fitSpelling (spelling c) (rest.head?.map spelling) ++ spell rest

/-- A text in plain letters. -/
def plain (s : List Char) : List Char := s.takeWhile isPlain ++ spell (s.dropWhile isPlain)

/-- Text below U+007F is plain already. -/
theorem plain_of_isPlain {s : List Char} (h : ∀ c ∈ s, isPlain c) : plain s = s := by
  induction s with
  | nil => rfl
  | cons c s ih =>
    simpa [plain, h c (by simp)] using ih fun d hd => h d (by simp [hd])

end CardRules.Text
