import CardRules.Text.Blank

/-!
# Finding and replacing

The first place where one text occurs in another, cutting there, and replacing every occurrence
from the left without overlap.
-/

set_option autoImplicit false

namespace CardRules.Text

/-- The rest of a text after exactly this front part. -/
def after? : (front s : List Char) → Option (List Char)
  | [], s => some s
  | _ :: _, [] => none
  | a :: front, b :: s => if a == b then after? front s else none

theorem eq_append_of_after? {front s rest : List Char} (h : after? front s = some rest) :
    s = front ++ rest := by
  fun_induction after? front s with
  | case1 => simp_all
  | case2 => simp at h
  | case3 a front b s hab ih => simp [ih h, eq_of_beq hab]
  | case4 => simp at h

theorem after?_append (front rest : List Char) : after? front (front ++ rest) = some rest := by
  induction front with
  | nil => rfl
  | cons a front ih => simp [after?, ih]

/-- What stands before and after the first occurrence of `mark`. -/
def cut? (mark : List Char) : List Char → Option (List Char × List Char)
  | [] => if mark.isEmpty then some ([], []) else none
  | c :: s =>
    match after? mark (c :: s) with
    | some rest => some ([], rest)
    | none => (cut? mark s).map fun (front, rest) => (c :: front, rest)

theorem eq_append_of_cut? {mark s front rest : List Char} (h : cut? mark s = some (front, rest)) :
    s = front ++ mark ++ rest := by
  induction s generalizing front with
  | nil =>
    simp only [cut?] at h
    split at h <;> simp_all
  | cons c s ih =>
    simp only [cut?] at h
    split at h
    · rename_i rest' h'
      obtain ⟨rfl, rfl⟩ : [] = front ∧ rest' = rest := by simpa using h
      simpa using eq_append_of_after? h'
    · obtain ⟨⟨a, b⟩, hab, hfr⟩ := Option.map_eq_some_iff.1 h
      obtain ⟨rfl, rfl⟩ : c :: a = front ∧ b = rest := by simpa using hfr
      simp [ih hab]

theorem length_of_cut? {mark s front rest : List Char} (h : cut? mark s = some (front, rest)) :
    s.length = front.length + mark.length + rest.length := by
  simp [eq_append_of_cut? h]; omega

/-- Whether `part` occurs in a text. -/
def occurs (part s : List Char) : Bool := (cut? part s).isSome

/-- A text with every occurrence of `mark` replaced, after `inside` characters that belong to an
occurrence already replaced. -/
def replaceFrom (mark new : List Char) : (inside : Nat) → List Char → List Char
  | _, [] => []
  | inside + 1, _ :: s => replaceFrom mark new inside s
  | 0, c :: s =>
    if (after? mark (c :: s)).isSome then new ++ replaceFrom mark new (mark.length - 1) s
    else c :: replaceFrom mark new 0 s

/-- A text with every occurrence of `mark`, found from the left and without overlap, replaced. A
mark without characters occurs before each character and at the end. -/
def replace (mark new s : List Char) : List Char :=
  if mark.isEmpty then new ++ s.flatMap fun c => c :: new else replaceFrom mark new 0 s

/-- Texts one after the other with `mark` between neighbours. -/
def joinWith (mark : List Char) (parts : List (List Char)) : List Char := mark.intercalate parts

end CardRules.Text
