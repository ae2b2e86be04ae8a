/-!
# Letter case

Two ways to disregard case. Names and number words are compared after folding the ASCII letters
only; phrases of rules text are read by simple case folding, under which the long s and the
Kelvin sign stand for `s` and `k`, the only two letters beyond ASCII that fold into it.
-/

set_option autoImplicit false

namespace CardRules.Text

/-- ASCII letters in lower case, all else unchanged. -/
def lower (s : List Char) : List Char := s.map Char.toLower

/-- Two texts that differ at most in the case of ASCII letters. -/
def sameLetters (a b : List Char) : Bool := lower a == lower b

/-- A character under simple case folding, as far as it concerns ASCII. -/
def fold (c : Char) : Char :=
  if c == '\u017F' then 's' else if c == '\u212A' then 'k' else c.toLower

/-- The rest of a text after a front part, ASCII case disregarded. -/
def dropFront? (front : List Char) (s : List Char) : Option (List Char) :=
  match front, s with
  | [], s => some s
  | _ :: _, [] => none
  | a :: front, b :: s => if a.toLower == b.toLower then dropFront? front s else none

theorem sameLetters_refl (s : List Char) : sameLetters s s = true := by simp [sameLetters]

theorem length_of_dropFront? {front s rest : List Char} (h : dropFront? front s = some rest) :
    s.length = front.length + rest.length := by
  fun_induction dropFront? front s with
  | case1 => simp_all
  | case2 => simp at h
  | case3 a front b s _ ih => simp [ih h]; omega
  | case4 => simp at h

end CardRules.Text
