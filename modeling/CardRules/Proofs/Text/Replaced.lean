import CardRules.Proofs.Text.Lines
import CardRules.Proofs.Text.Pieces
import Mathlib.Data.List.Infix

/-!
# Texts without a mark

What is left of a mark once it has been replaced: nothing, if the words that stand for it share no
character with it (`not_infix_replace`). Such words do not bring about any other mark either that they share
no character with (`infix_of_infix_replace`), nor does putting lines together again (`infix_of_infix_joinWith`).
A text that does not have a mark stays as it is (`replace_eq_self`), and of one that has it characters of any
kind can be counted (`countP_replace`).
-/

set_option autoImplicit false

namespace CardRules.Text

/-! ## Replacing -/

section Replace

variable {part mark new : List Char}

/-- What stands in front of a text and shares no character with the words put in, is not made of them. -/
theorem prefix_of_prefix_replaceFrom (hnew : new ≠ []) {s : List Char} (hpart : ∀ c ∈ part, c ∉ new)
    (h : part <+: replaceFrom mark new 0 s) : part <+: s := by
  induction s generalizing part with
  | nil => exact h
  | cons d s ih =>
    cases part with
    | nil => exact List.nil_prefix
    | cons c part =>
      rw [replaceFrom] at h
      split at h
      · obtain ⟨first, more, rfl⟩ := List.exists_cons_of_ne_nil hnew
        rw [List.cons_append, List.cons_prefix_cons] at h
        exact absurd (h.1 ▸ List.mem_cons_self) (hpart c List.mem_cons_self)
      · rw [List.cons_prefix_cons] at h ⊢
        exact ⟨h.1, ih (fun d hd => hpart d (List.mem_cons_of_mem c hd)) h.2⟩

/-- An infix does not start in words that it shares no character with. -/
theorem infix_of_infix_append (hne : part ≠ []) (hpart : ∀ c ∈ part, c ∉ new) {s : List Char}
    (h : part <:+: new ++ s) : part <:+: s := by
  induction new with
  | nil => exact h
  | cons d new ih =>
    rcases List.infix_cons_iff.mp h with hstart | hwithin
    · obtain ⟨c, rest, rfl⟩ := List.exists_cons_of_ne_nil hne
      rw [List.cons_prefix_cons] at hstart
      exact absurd (hstart.1 ▸ List.mem_cons_self) (hpart c List.mem_cons_self)
    · exact ih (fun c hc hmem => hpart c hc (List.mem_cons_of_mem d hmem)) hwithin

theorem infix_of_infix_replaceFrom (hne : part ≠ []) (hnew : new ≠ []) (hpart : ∀ c ∈ part, c ∉ new)
    {s : List Char} {inside : Nat} (h : part <:+: replaceFrom mark new inside s) : part <:+: s := by
  fun_induction replaceFrom mark new inside s with
  | case1 => exact h
  | case2 inside c s ih => exact List.infix_cons (ih h)
  | case3 c s hmark ih => exact List.infix_cons (ih (infix_of_infix_append hne hpart h))
  | case4 c s hmark ih =>
    rcases List.infix_cons_iff.mp h with hstart | hwithin
    · -- a part that starts with a character that is kept has stood there before
      apply List.IsPrefix.isInfix
      cases part with
      | nil => exact List.nil_prefix
      | cons d part =>
        rw [List.cons_prefix_cons] at hstart ⊢
        exact ⟨hstart.1,
          prefix_of_prefix_replaceFrom hnew (fun e he => hpart e (List.mem_cons_of_mem d he)) hstart.2⟩
    · exact List.infix_cons (ih hwithin)

theorem infix_of_infix_replace (hmark : mark ≠ []) (hne : part ≠ []) (hnew : new ≠ [])
    (hpart : ∀ c ∈ part, c ∉ new) {s : List Char} (h : part <:+: replace mark new s) : part <:+: s := by
  rw [replace, if_neg (by simpa using hmark)] at h
  exact infix_of_infix_replaceFrom hne hnew hpart h

theorem not_infix_replaceFrom (hmark : mark ≠ []) (hnew : new ≠ []) (hdisjoint : ∀ c ∈ mark, c ∉ new)
    (inside : Nat) (s : List Char) : ¬mark <:+: replaceFrom mark new inside s := by
  fun_induction replaceFrom mark new inside s with
  | case1 => simpa using hmark
  | case2 inside c s ih => exact ih
  | case3 c s hfound ih => exact fun h => ih (infix_of_infix_append hmark hdisjoint h)
  | case4 c s hfound ih =>
    intro h
    rcases List.infix_cons_iff.mp h with hstart | hwithin
    · apply hfound
      rw [isSome_after?_iff]
      obtain ⟨d, rest, rfl⟩ := List.exists_cons_of_ne_nil hmark
      rw [List.cons_prefix_cons] at hstart ⊢
      exact ⟨hstart.1,
        prefix_of_prefix_replaceFrom hnew (fun e he => hdisjoint e (List.mem_cons_of_mem d he)) hstart.2⟩
    · exact ih hwithin

/-- No occurrence of a mark is left, nor does a new one arise. -/
theorem not_infix_replace (hmark : mark ≠ []) (hnew : new ≠ []) (hdisjoint : ∀ c ∈ mark, c ∉ new)
    (s : List Char) : ¬mark <:+: replace mark new s := by
  rw [replace, if_neg (by simpa using hmark)]
  exact not_infix_replaceFrom hmark hnew hdisjoint 0 s

theorem replace_eq_self (hmark : mark ≠ []) (new : List Char) {s : List Char} (h : ¬mark <:+: s) :
    replace mark new s = s := by
  rw [replace, if_neg (by simpa using hmark)]
  induction s with
  | nil => rfl
  | cons c s ih =>
    rw [replaceFrom, if_neg, ih fun hwithin => h (List.infix_cons hwithin)]
    rw [isSome_after?_iff]
    exact fun hstart => h hstart.isInfix

/-- Every mark that is found takes its characters of a kind out of the text and brings in those of the new
words, and one is found if the mark occurs at all. -/
theorem countP_replaceFrom (p : Char → Bool) (hmark : mark ≠ []) (new : List Char) (inside : Nat)
    (s : List Char) : ∃ found, (mark <:+: s.drop inside → 0 < found) ∧
      (replaceFrom mark new inside s).countP p + found * mark.countP p =
        (s.drop inside).countP p + found * new.countP p := by
  fun_induction replaceFrom mark new inside s with
  | case1 inside =>
    rw [List.drop_nil]
    exact ⟨0, fun h => absurd (List.infix_nil.mp h) hmark, by rw [Nat.zero_mul, Nat.zero_mul]⟩
  | case2 inside c s ih => exact ih
  | case3 c s hfound ih =>
    obtain ⟨found, -, hcount⟩ := ih
    obtain ⟨rest, hrest⟩ := Option.isSome_iff_exists.mp hfound
    obtain ⟨d, more, rfl⟩ := List.exists_cons_of_ne_nil hmark
    have hsplit : c :: s = (d :: more) ++ rest := eq_append_of_after? hrest
    have hbehind : s.drop ((d :: more).length - 1) = rest := by
      rw [(List.cons.inj hsplit).2]
      exact List.drop_left
    rw [hbehind] at hcount
    refine ⟨found + 1, fun _ => Nat.succ_pos found, ?_⟩
    rw [List.drop_zero, hsplit, List.countP_append, List.countP_append, Nat.succ_mul, Nat.succ_mul]
    omega
  | case4 c s hfound ih =>
    obtain ⟨found, hpos, hcount⟩ := ih
    rw [List.drop_zero] at hpos hcount ⊢
    refine ⟨found, fun h => ?_, ?_⟩
    · rcases List.infix_cons_iff.mp h with hstart | hwithin
      · exact absurd (isSome_after?_iff.mpr hstart) hfound
      · exact hpos hwithin
    · rw [List.countP_cons, List.countP_cons]
      omega

theorem countP_replace (p : Char → Bool) (mark new s : List Char) :
    ∃ found, (mark <:+: s → 0 < found) ∧
      (replace mark new s).countP p + found * mark.countP p = s.countP p + found * new.countP p := by
  rw [replace]
  split
  · rename_i hempty
    -- the words stand before every character and at the end
    refine ⟨s.length + 1, fun _ => Nat.succ_pos _, ?_⟩
    rw [List.isEmpty_iff.mp hempty, List.countP_nil, Nat.mul_zero, Nat.add_zero, List.countP_append, Nat.succ_mul]
    induction s with
    | nil => simp
    | cons c s ih =>
      rw [List.flatMap_cons, List.countP_append, List.countP_cons, List.countP_cons, List.length_cons,
        Nat.succ_mul]
      omega
  · rename_i hmark
    have hne : mark ≠ [] := fun hnil => hmark (List.isEmpty_iff.mpr hnil)
    simpa using countP_replaceFrom p hne new 0 s

theorem mem_replaceFrom {c : Char} {inside : Nat} {s : List Char}
    (h : c ∈ replaceFrom mark new inside s) : c ∈ s ∨ c ∈ new := by
  fun_induction replaceFrom mark new inside s with
  | case1 => exact .inl h
  | case2 inside d s ih => exact (ih h).imp_left (List.mem_cons_of_mem d)
  | case3 d s hfound ih =>
    rcases List.mem_append.mp h with hnew | hrest
    · exact .inr hnew
    · exact (ih hrest).imp_left (List.mem_cons_of_mem d)
  | case4 d s hfound ih =>
    rcases List.mem_cons.mp h with rfl | hrest
    · exact .inl List.mem_cons_self
    · exact (ih hrest).imp_left (List.mem_cons_of_mem d)

theorem mem_replace {c : Char} {s : List Char} (h : c ∈ replace mark new s) : c ∈ s ∨ c ∈ new := by
  rw [replace] at h
  split at h
  · simp only [List.mem_append, List.mem_flatMap, List.mem_cons] at h
    rcases h with hnew | ⟨d, hd, rfl | hnew⟩
    · exact .inr hnew
    · exact .inl hd
    · exact .inr hnew
  · exact mem_replaceFrom h

end Replace

/-! ## Lines -/

/-- What does not have a character stands before it or behind it. -/
theorem infix_of_infix_append_cons {part s t : List Char} {c : Char} (hc : c ∉ part)
    (h : part <:+: s ++ c :: t) : part <:+: s ∨ part <:+: t := by
  induction s with
  | nil =>
    rcases List.infix_cons_iff.mp h with hstart | hwithin
    · cases part with
      | nil => exact .inl (List.infix_refl [])
      | cons d part =>
        rw [List.cons_prefix_cons] at hstart
        exact absurd (hstart.1 ▸ List.mem_cons_self) hc
    · exact .inr hwithin
  | cons d s ih =>
    rcases List.infix_cons_iff.mp h with hstart | hwithin
    · refine .inl (List.IsPrefix.isInfix ?_)
      -- a prefix that went past the end of `s` would have the character
      obtain ⟨rest, hsplit⟩ := hstart
      rcases List.append_eq_append_iff.mp (show part ++ rest = (d :: s) ++ c :: t from hsplit) with
        ⟨more, hshort, -⟩ | ⟨past, rfl, hpast⟩
      · exact ⟨more, hshort.symm⟩
      · cases past with
        | nil => rw [List.append_nil]
        | cons e past => exact absurd (List.mem_append_right _ ((List.cons.inj hpast).1 ▸ List.mem_cons_self)) hc
    · exact (ih hwithin).imp_left List.infix_cons

theorem infix_of_infix_joinWith {part : List Char} {c : Char} (hc : c ∉ part) (hne : part ≠ [])
    {parts : List (List Char)} (h : part <:+: joinWith [c] parts) : ∃ line ∈ parts, part <:+: line := by
  induction parts with
  | nil => exact absurd (List.infix_nil.mp h) hne
  | cons first rest ih =>
    cases rest with
    | nil =>
      rw [joinWith, List.intercalate_singleton] at h
      exact ⟨first, List.mem_cons_self, h⟩
    | cons second rest =>
      rw [joinWith, List.intercalate_cons_cons, ← joinWith, List.append_assoc, List.singleton_append] at h
      rcases infix_of_infix_append_cons hc h with hfirst | hrest
      · exact ⟨first, List.mem_cons_self, hfirst⟩
      · obtain ⟨line, hline, hpart⟩ := ih hrest
        exact ⟨line, List.mem_cons_of_mem first hline, hpart⟩

theorem mem_joinWith {c : Char} {mark : List Char} {parts : List (List Char)}
    (h : c ∈ joinWith mark parts) : c ∈ mark ∨ ∃ part ∈ parts, c ∈ part := by
  cases parts with
  | nil => simp [joinWith] at h
  | cons first rest =>
    rw [joinWith_cons, List.mem_append, List.mem_flatMap] at h
    rcases h with hfirst | ⟨part, hpart, hmem⟩
    · exact .inr ⟨first, List.mem_cons_self, hfirst⟩
    · rcases List.mem_append.mp hmem with hmark | hmem
      · exact .inl hmark
      · exact .inr ⟨part, List.mem_cons_of_mem first hpart, hmem⟩

/-- A line stands in its text, and the first one at its front. -/
theorem infix_of_mem_lines {s : List Char} :
    (∀ line ∈ (lines s).head?, line <+: s) ∧ ∀ line ∈ lines s, line <:+: s := by
  fun_induction lines s with
  | case1 => simp
  | case2 rest ih =>
    refine ⟨by simp, ?_⟩
    intro line hline
    rcases List.mem_cons.mp hline with rfl | hrest
    · exact List.nil_infix
    · exact List.infix_cons (ih.2 line hrest)
  | case3 rest ih =>
    refine ⟨by simp, ?_⟩
    intro line hline
    rcases List.mem_cons.mp hline with rfl | hrest
    · exact List.nil_infix
    · exact List.infix_cons (List.infix_cons (ih.2 line hrest))
  | case4 c rest hfeed hreturn hnone ih =>
    have hfirst : [c] <+: c :: rest := ⟨rest, rfl⟩
    simp [hfirst, hfirst.isInfix]
  | case5 c rest hfeed hreturn first more hsome ih =>
    rw [hsome] at ih
    have hfirst : c :: first <+: c :: rest := List.cons_prefix_cons.mpr ⟨rfl, ih.1 first rfl⟩
    refine ⟨by simpa using hfirst, ?_⟩
    intro line hline
    rcases List.mem_cons.mp hline with rfl | hrest
    · exact hfirst.isInfix
    · exact List.infix_cons (ih.2 line (List.mem_cons_of_mem first hrest))

theorem lines_cons_of_ne {c : Char} (hfeed : c ≠ '\n') {s : List Char}
    (hreturn : c = '\r' → s.head? ≠ some '\n') :
    lines (c :: s) = (c :: (lines s).headD []) :: (lines s).tail := by
  have hpair : ∀ rest, c = '\r' → s = '\n' :: rest → False := by
    rintro rest hc rfl
    exact hreturn hc rfl
  rw [lines.eq_4 c s hfeed hpair]
  cases lines s with
  | nil => rfl
  | cons line more => rfl

/-- A line with its line end in front of a text. -/
theorem lines_append_feed {line : List Char} (hfeed : '\n' ∉ line) (hreturn : line.getLast? ≠ some '\r')
    (rest : List Char) : lines (line ++ '\n' :: rest) = line :: lines rest := by
  induction line with
  | nil => rfl
  | cons c line ih =>
    rw [List.mem_cons, not_or] at hfeed
    have hnext : c = '\r' → (line ++ '\n' :: rest).head? ≠ some '\n' := by
      rintro rfl
      cases line with
      | nil => exact absurd rfl hreturn
      | cons d line =>
        rintro hhead
        exact hfeed.2 (Option.some.inj hhead ▸ List.mem_cons_self)
    have hlast : line.getLast? ≠ some '\r' := by
      intro hmem
      exact hreturn (by rw [List.getLast?_cons, hmem]; rfl)
    rw [List.cons_append, lines_cons_of_ne (Ne.symm hfeed.1) hnext, ih hfeed.2 hlast]
    rfl

/-- A text without line feeds is a line. -/
theorem lines_eq_singleton {s : List Char} (hfeed : '\n' ∉ s) (hne : s ≠ []) : lines s = [s] := by
  induction s with
  | nil => exact absurd rfl hne
  | cons c s ih =>
    rw [List.mem_cons, not_or] at hfeed
    have hnext : c = '\r' → s.head? ≠ some '\n' :=
      fun _ hhead => hfeed.2 (List.mem_of_mem_head? hhead)
    rw [lines_cons_of_ne (Ne.symm hfeed.1) hnext]
    cases s with
    | nil => rfl
    | cons d s =>
      rw [ih hfeed.2 (List.cons_ne_nil d s)]
      rfl

/-- Lines that are put together are there again, but for an empty one at the end. -/
theorem mem_of_mem_lines_joinWith {parts : List (List Char)} (hfeed : ∀ part ∈ parts, '\n' ∉ part)
    (hreturn : ∀ part ∈ parts, part.getLast? ≠ some '\r') {line : List Char}
    (h : line ∈ lines (joinWith ['\n'] parts)) : line ∈ parts := by
  induction parts with
  | nil => simp [joinWith, lines] at h
  | cons first rest ih =>
    cases rest with
    | nil =>
      rw [joinWith, List.intercalate_singleton] at h
      cases first with
      | nil => simp [lines] at h
      | cons c first => rwa [lines_eq_singleton (hfeed _ List.mem_cons_self) (List.cons_ne_nil c first)] at h
    | cons second rest =>
      rw [joinWith, List.intercalate_cons_cons, ← joinWith, List.append_assoc, List.singleton_append,
        lines_append_feed (hfeed first List.mem_cons_self) (hreturn first List.mem_cons_self)] at h
      rcases List.mem_cons.mp h with rfl | hrest
      · exact List.mem_cons_self
      · exact List.mem_cons_of_mem first (ih (fun part hpart => hfeed part (List.mem_cons_of_mem first hpart))
          (fun part hpart => hreturn part (List.mem_cons_of_mem first hpart)) hrest)

end CardRules.Text
