import CardRules.Data
import CardRules.Data.Token
import Mathlib.Data.List.TakeWhile

/-!
# Cutting what was written

What is written is cut into tokens again, part by part. A number or a word is complete only when
something else follows, so what holds of a part of a text holds of it in front of what completes such a
token (`Writes`). Integers and quoted texts are cut into what they stand for, whatever characters have to
be escaped.
-/

set_option autoImplicit false

namespace CardRules.Data

/-! ## Cutting in parts -/

/-- The tokens of a text that has been cut up to some point. -/
def cutFrom (cut : Cut) (s : List Char) : Option (List Token) := do
  let cut ← s.foldlM Cut.add cut
  let last ← finish cut.place
  pure (cut.tokens.reverse ++ last)

/-- A number or a word in front of the text is complete. -/
def Ends (s : List Char) : Prop := ∀ c ∈ s.head?, isNumberChar c = false ∧ c.isAlpha = false

/-- In front of what completes it, the text is cut into the tokens. -/
def Writes (s : List Char) (tokens : List Token) : Prop :=
  ∀ before rest, Ends rest →
    cutFrom ⟨.between, before⟩ (s ++ rest) = cutFrom ⟨.between, tokens.reverse ++ before⟩ rest

variable {s t : List Char} {tokens more : List Token} {c : Char} {place : Place} {before : List Token}

theorem cutFrom_cons (cut : Cut) (c : Char) (s : List Char) :
    cutFrom cut (c :: s) = (cut.add c).bind fun cut => cutFrom cut s := by
  rw [cutFrom, List.foldlM_cons, Option.bind_eq_bind, Option.bind_eq_bind, Option.bind_assoc]
  rfl

theorem cutFrom_step (h : step place c = some (Place.between, tokens)) (s : List Char) :
    cutFrom ⟨place, before⟩ (c :: s) = cutFrom ⟨.between, tokens.reverse ++ before⟩ s := by
  rw [cutFrom_cons, Cut.add, h]
  rfl

theorem cutFrom_within (after : Place) (h : step place c = some (after, [])) (s : List Char) :
    cutFrom ⟨place, before⟩ (c :: s) = cutFrom ⟨after, before⟩ s := by
  rw [cutFrom_cons, Cut.add, h]
  rfl

theorem ends_nil : Ends [] := by
  intro c hc
  simp at hc

theorem ends_cons (h : isNumberChar c = false ∧ c.isAlpha = false) (s : List Char) : Ends (c :: s) := by
  intro d hd
  rw [← Option.some.inj hd]
  exact h

namespace Writes

theorem nil : Writes [] [] := fun _ _ _ => rfl

/-- Parts are cut one by one if each ends what may come before it. -/
theorem append (hs : Writes s tokens) (ht : Writes t more) (h : ∀ rest, Ends rest → Ends (t ++ rest)) :
    Writes (s ++ t) (tokens ++ more) := by
  intro before rest hrest
  rw [List.append_assoc, hs _ _ (h rest hrest), ht _ _ hrest, List.reverse_append, List.append_assoc]

/-- Tokens and blanks of one character. -/
theorem cons (c : Char) (marks : List Token) (h : step .between c = some (.between, marks))
    (hs : Writes s tokens) : Writes (c :: s) (marks ++ tokens) := by
  intro before rest hrest
  rw [List.cons_append, cutFrom_step h, hs _ _ hrest, List.reverse_append, List.append_assoc]

theorem append_cons (hs : Writes s tokens) (c : Char) (marks : List Token)
    (h : step .between c = some (.between, marks))
    (hends : isNumberChar c = false ∧ c.isAlpha = false) (ht : Writes t more) :
    Writes (s ++ c :: t) (tokens ++ (marks ++ more)) :=
  hs.append (ht.cons c marks h) fun _ _ => ends_cons hends _

end Writes

/-! ## Numbers and words -/

/-- Characters of one kind stay within a place, and what was seen of them is read as one token when a
character of another kind or the end of the text completes it. -/
structure IsRun (within : List Char → Place) (kind : Char → Bool) (read : List Char → Option Token) :
    Prop where
  more : ∀ {seen c}, kind c = true → step (within seen) c = some (within (c :: seen), [])
  complete : ∀ {seen c token}, kind c = false → read seen.reverse = some token →
    step (within seen) c = (start c).map fun next => (next.1, token :: next.2)
  finish : ∀ {seen token}, read seen.reverse = some token → finish (within seen) = some [token]
  ends : ∀ {c}, isNumberChar c = false ∧ c.isAlpha = false → kind c = false

theorem isRun_number : IsRun .inNumber isNumberChar number? where
  more h := if_pos h
  complete {_ c _} h hread := by
    rw [step, if_neg (by simp [h]), hread]
    cases start c with
    | none => rfl
    | some next => rfl
  finish hread := by rw [Data.finish, hread, Option.map_some]
  ends h := h.1

theorem isRun_word : IsRun .inWord Char.isAlpha word? where
  more h := if_pos h
  complete {_ c _} h hread := by
    rw [step, if_neg (by simp [h]), hread]
    cases start c with
    | none => rfl
    | some next => rfl
  finish hread := by rw [Data.finish, hread, Option.map_some]
  ends h := h.2

namespace IsRun

variable {within : List Char → Place} {kind : Char → Bool} {read : List Char → Option Token}
  {token : Token}

theorem cutFrom (run : IsRun within kind read) (h : s.all kind = true) (seen rest : List Char) :
    cutFrom ⟨within seen, before⟩ (s ++ rest) = cutFrom ⟨within (s.reverse ++ seen), before⟩ rest := by
  induction s generalizing seen with
  | nil => rfl
  | cons c s ih =>
    rw [List.all_cons, Bool.and_eq_true] at h
    rw [List.cons_append, cutFrom_within _ (run.more h.1), ih h.2, List.reverse_cons, List.append_assoc]
    rfl

/-- What follows a complete token is cut as it is between tokens. -/
theorem cutFrom_complete (run : IsRun within kind read) {seen rest : List Char}
    (hread : read seen.reverse = some token) (hrest : Ends rest) :
    Data.cutFrom ⟨within seen, before⟩ rest = Data.cutFrom ⟨.between, token :: before⟩ rest := by
  cases rest with
  | nil =>
    show ((Data.finish (within seen)).bind fun last => some (before.reverse ++ last)) =
      some ((token :: before).reverse ++ [])
    rw [run.finish hread]
    simp
  | cons c rest =>
    rw [cutFrom_cons, cutFrom_cons, Cut.add, Cut.add, run.complete (run.ends (hrest c rfl)) hread]
    show _ = ((start c).map _).bind _
    cases start c with
    | none => rfl
    | some next => simp

theorem writes (run : IsRun within kind read) (hstart : step .between c = some (within [c], []))
    (hs : s.all kind = true) (h : read (c :: s) = some token) : Writes (c :: s) [token] := by
  intro before rest hrest
  have hseen : read (s.reverse ++ [c]).reverse = some token := by
    rw [List.reverse_append, List.reverse_reverse]
    exact h
  rw [List.cons_append, cutFrom_within _ hstart, run.cutFrom hs, run.cutFrom_complete hseen hrest]
  rfl

end IsRun

/-! ## Quoted texts -/

theorem hexValue?_hexDigit :
    ∀ n < 32, hexValue? (hexDigit (n / 16)) = some (n / 16) ∧
      hexValue? (hexDigit n) = some (n % 16) := by
  decide

/-- A control character is read from its number. -/
theorem cutFrom_control (h : c.toNat < 32) (seen rest : List Char) :
    cutFrom ⟨.afterBackslash { seen }, before⟩
        ('u' :: '0' :: '0' :: hexDigit (c.toNat / 16) :: hexDigit c.toNat :: rest) =
      cutFrom ⟨.inQuotes { seen := c :: seen }, before⟩ rest := by
  obtain ⟨hhigh, hlow⟩ := hexValue?_hexDigit c.toNat h
  -- control characters are far below the surrogates
  have hunit : Quoted.pushUnit { seen } c.toNat = { seen := c :: seen } := by
    have hnone : ¬(0xD800 ≤ c.toNat ∧ c.toNat ≤ 0xDBFF) := by omega
    have hnone' : ¬(0xDC00 ≤ c.toNat ∧ c.toNat ≤ 0xDFFF) := by omega
    rw [Quoted.pushUnit]
    dsimp only
    rw [if_neg hnone, if_neg hnone', Char.ofNat_toNat]
    rfl
  have hvalue : ((0 * 16 + 0) * 16 + 0) * 16 + c.toNat / 16 = c.toNat / 16 := by omega
  have hsum : c.toNat / 16 * 16 + c.toNat % 16 = c.toNat := by omega
  have hfirst : step (.inHex { seen } ((0 * 16 + 0) * 16 + 0) 2) (hexDigit (c.toNat / 16)) =
      some (.inHex { seen } (c.toNat / 16) 1, []) := by
    rw [step, hhigh]
    simp
  have hsecond : step (.inHex { seen } (c.toNat / 16) 1) (hexDigit c.toNat) =
      some (.inQuotes { seen := c :: seen }, []) := by
    rw [step, hlow, ← hunit]
    simp [hsum]
  rw [cutFrom_within (.inHex { seen } 0 4) rfl,
    cutFrom_within (.inHex { seen } (0 * 16 + 0) 3) rfl,
    cutFrom_within (.inHex { seen } ((0 * 16 + 0) * 16 + 0) 2) rfl, cutFrom_within _ hfirst,
    cutFrom_within _ hsecond]

/-- A character between quotes is written with a backslash and a letter, or by its number, or stands for
itself. -/
theorem escape_cases (c : Char) :
    (∃ letter, letter ≠ 'u' ∧ escaped? letter = some c ∧ escape c = ['\\', letter]) ∨
    (c.toNat < 0x20 ∧
      escape c = '\\' :: 'u' :: '0' :: '0' :: hexDigit (c.toNat / 16) :: [hexDigit c.toNat]) ∨
    (c ≠ '"' ∧ c ≠ '\\' ∧ ¬c.toNat < 0x20 ∧ escape c = [c]) := by
  by_cases hquote : c = '"'
  · subst hquote
    exact .inl ⟨'"', by decide, rfl, rfl⟩
  by_cases hbackslash : c = '\\'
  · subst hbackslash
    exact .inl ⟨'\\', by decide, rfl, rfl⟩
  by_cases hline : c = '\n'
  · subst hline
    exact .inl ⟨'n', by decide, rfl, rfl⟩
  by_cases htab : c = '\t'
  · subst htab
    exact .inl ⟨'t', by decide, rfl, rfl⟩
  by_cases hreturn : c = '\r'
  · subst hreturn
    exact .inl ⟨'r', by decide, rfl, rfl⟩
  by_cases hback : c = '\x08'
  · subst hback
    exact .inl ⟨'b', by decide, rfl, rfl⟩
  by_cases hfeed : c = '\x0c'
  · subst hfeed
    exact .inl ⟨'f', by decide, rfl, rfl⟩
  -- there is no letter for any other character
  rw [escape, if_neg hquote, if_neg hbackslash, if_neg hline, if_neg htab, if_neg hreturn, if_neg hback,
    if_neg hfeed]
  split
  · rename_i hcontrol
    exact .inr (.inl ⟨hcontrol, rfl⟩)
  · rename_i hcontrol
    exact .inr (.inr ⟨hquote, hbackslash, hcontrol, rfl⟩)

/-- A character between quotes is read as it was before it was escaped. -/
theorem cutFrom_escape (c : Char) (seen rest : List Char) :
    cutFrom ⟨.inQuotes { seen }, before⟩ (escape c ++ rest) =
      cutFrom ⟨.inQuotes { seen := c :: seen }, before⟩ rest := by
  obtain ⟨letter, hu, hletter, hc⟩ | ⟨hcontrol, hc⟩ | ⟨hquote, hbackslash, hcontrol, hc⟩ := escape_cases c
  · have hstep : step (.afterBackslash { seen }) letter = some (.inQuotes { seen := c :: seen }, []) := by
      rw [step, if_neg hu, hletter]
      rfl
    rw [hc]
    exact (cutFrom_within (.afterBackslash { seen }) rfl _).trans (cutFrom_within _ hstep rest)
  · rw [hc]
    exact (cutFrom_within (.afterBackslash { seen }) rfl _).trans (cutFrom_control hcontrol seen rest)
  · rw [hc]
    refine cutFrom_within _ ?_ rest
    rw [step, if_neg hquote, if_neg hbackslash, if_neg hcontrol]
    rfl

theorem cutFrom_escapes (s seen rest : List Char) :
    cutFrom ⟨.inQuotes { seen }, before⟩ (s.flatMap escape ++ rest) =
      cutFrom ⟨.inQuotes { seen := s.reverse ++ seen }, before⟩ rest := by
  induction s generalizing seen with
  | nil => rfl
  | cons c s ih =>
    rw [List.flatMap_cons, List.append_assoc, cutFrom_escape, ih, List.reverse_cons, List.append_assoc]
    rfl

theorem writes_quote (s : String) : Writes (quote s) [.text s] := by
  intro before rest _
  have hopen : step .between '"' = some (.inQuotes { seen := [] }, []) := rfl
  have hclose : step (.inQuotes { seen := s.toList.reverse ++ [] }) '"' = some (.between, [.text s]) := by
    rw [step, if_pos rfl, List.append_nil, Quoted.token, List.reverse_reverse, String.ofList_toList]
    rfl
  rw [quote, List.cons_append, List.cons_append, cutFrom_within _ hopen, List.append_assoc, cutFrom_escapes]
  exact cutFrom_step hclose rest

/-! ## Integers -/

/-- Only zero is written with a zero in front. -/
theorem eq_zero_of_head?_digits {n : Nat} (h : (Text.digits n).head? = some '0') : n = 0 := by
  induction n using Nat.strongRecOn with
  | ind n ih =>
    unfold Text.digits at h ih
    -- the first digit of a longer number is that of its tenth part
    rw [Nat.toDigits_eq_if (by decide)] at h
    split at h
    · rename_i hsmall
      have hdigit : ∀ d < 10, Nat.digitChar d = '0' → d = 0 := by decide
      exact hdigit n hsmall (Option.some.inj h)
    · rename_i hlarge
      obtain ⟨d, ds, hfront⟩ := List.exists_cons_of_ne_nil (Nat.toDigits_ne_nil (b := 10) (n := n / 10))
      rw [hfront] at h
      have hzero := ih (n / 10) (by omega) (by rw [hfront]; exact h)
      omega

theorem unsigned?_digits (negative : Bool) (n : Nat) :
    unsigned? negative (Text.digits n) = some
      (if negative then if n = 0 then .fraction else .int (-(n : Int)) else .int n) := by
  have hdigits : ∀ c ∈ Text.digits n, c.isDigit = true := fun c hc => Text.isDigit_of_mem_digits hc
  have hzeros : ¬((Text.digits n).head? = some '0' ∧ (Text.digits n).length ≠ 1) := by
    rintro ⟨hhead, hlength⟩
    rw [eq_zero_of_head?_digits hhead] at hlength
    exact hlength rfl
  unfold unsigned?
  rw [List.takeWhile_eq_self_iff.mpr hdigits, List.dropWhile_eq_nil_iff.mpr hdigits]
  dsimp only
  rw [Text.digits?_digits]
  dsimp only
  rw [if_neg hzeros]
  cases negative with
  | true => rfl
  | false => rfl

theorem step_digit (h : c.isDigit = true) : step .between c = some (.inNumber [c], []) := by
  have hblank : ¬(c = ' ' ∨ c = '\n' ∨ c = '\t' ∨ c = '\r') := by
    rintro (rfl | rfl | rfl | rfl) <;> exact absurd h (by decide)
  have hquote : c ≠ '"' := by
    rintro rfl
    exact absurd h (by decide)
  rw [step, start, if_neg hblank, if_neg hquote, if_pos (.inr h)]

theorem number?_digits (n : Nat) : number? (Text.digits n) = some (.int n) := by
  have hread : unsigned? false (Text.digits n) = some (.int n) := unsigned?_digits false n
  unfold number?
  split
  · rename_i ds hminus
    have hdigit := Text.isDigit_of_mem_digits (c := '-') (n := n) (by simp [hminus])
    exact absurd hdigit (by decide)
  · exact hread

theorem writes_int (n : Int) : Writes (toString n).toList [.int n] := by
  have hnumber (m : Nat) : (Text.digits m).all isNumberChar = true := by
    refine List.all_eq_true.mpr fun c hc => ?_
    simp [isNumberChar, Text.isDigit_of_mem_digits hc]
  cases n with
  | ofNat n =>
    show Writes (toString (n : Int)).toList _
    rw [Text.toList_toString_ofNat]
    obtain ⟨d, ds, hdigits⟩ := List.exists_cons_of_ne_nil (Nat.toDigits_ne_nil (b := 10) (n := n))
    have hdigits : Text.digits n = d :: ds := hdigits
    have hread := number?_digits n
    have hall := hnumber n
    have hdigit : d.isDigit = true := Text.isDigit_of_mem_digits (hdigits ▸ List.mem_cons_self)
    rw [hdigits] at hread hall ⊢
    rw [List.all_cons, Bool.and_eq_true] at hall
    exact isRun_number.writes (step_digit hdigit) hall.2 hread
  | negSucc n =>
    rw [Text.toList_toString_negSucc]
    refine isRun_number.writes rfl (hnumber (n + 1)) ?_
    show unsigned? true (Text.digits (n + 1)) = _
    rw [unsigned?_digits]
    rfl

end CardRules.Data
