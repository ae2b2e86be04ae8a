import CardRules.Proofs.Text.Letters
import CardRules.Proofs.Text.Lines

/-!
# Texts in pieces

A text that is put together from pieces is trimmed, searched and cut in one of them, as long as the
pieces keep apart: a mark that neither piece holds stands across their border, and then it is split
there (`across_of_cut?`).
-/

set_option autoImplicit false

namespace CardRules.Text

/-! ## Dropping at the ends -/

theorem dropBack_append {p : Char → Bool} {back : List Char} (h : dropBack p back ≠ [])
    (front : List Char) : dropBack p (front ++ back) = front ++ dropBack p back := by
  unfold dropBack at h ⊢
  rw [List.reverse_append, List.dropWhile_append, if_neg, List.reverse_append, List.reverse_reverse]
  intro hempty
  exact h (List.reverse_eq_nil_iff.mpr (List.isEmpty_iff.mp hempty))

theorem dropBack_append_of_forall {p : Char → Bool} {back : List Char} (h : ∀ c ∈ back, p c = true)
    (front : List Char) : dropBack p (front ++ back) = dropBack p front := by
  unfold dropBack
  rw [List.reverse_append, List.dropWhile_append_of_pos fun c hc => h c (List.mem_reverse.mp hc)]

/-- What is dropped at the back satisfies `p`. -/
theorem dropBack_split (p : Char → Bool) (s : List Char) :
    ∃ dropped, s = dropBack p s ++ dropped ∧ ∀ c ∈ dropped, p c = true := by
  refine ⟨(s.reverse.takeWhile p).reverse, ?_, ?_⟩
  · unfold dropBack
    rw [← List.reverse_append, List.takeWhile_append_dropWhile, List.reverse_reverse]
  · intro c hc
    exact List.all_eq_true.mp List.all_takeWhile c (List.mem_reverse.mp hc)

theorem mem_of_mem_dropBack {p : Char → Bool} {s : List Char} {c : Char} (h : c ∈ dropBack p s) :
    c ∈ s :=
  List.mem_reverse.mp ((List.dropWhile_suffix p).subset (List.mem_reverse.mp h))

/-- After dropping at the back, the last character does not satisfy `p`. -/
theorem getLast?_dropBack {p : Char → Bool} {s : List Char} :
    ∀ c ∈ (dropBack p s).getLast?, p c = false := by
  intro c hc
  rw [dropBack, List.getLast?_reverse] at hc
  have hhead := List.head?_dropWhile_not p s.reverse
  rw [Option.mem_def.mp hc] at hhead
  simpa using hhead

theorem dropBack_of_getLast? {p : Char → Bool} {s : List Char} (h : ∀ c ∈ s.getLast?, p c = false) :
    dropBack p s = s := by
  obtain ⟨dropped, hsplit, hdropped⟩ := dropBack_split p s
  cases hback : dropped.getLast? with
  | none =>
    rw [List.getLast?_eq_none_iff.mp hback, List.append_nil] at hsplit
    exact hsplit.symm
  | some c =>
    have hlast : s.getLast? = some c := by rw [hsplit, List.getLast?_append, hback, Option.some_or]
    have hkept := h c hlast
    rw [hdropped c (List.mem_of_getLast? hback)] at hkept
    exact absurd hkept (by decide)

theorem dropBack_append_of_getLast? {p : Char → Bool} {front : List Char}
    (h : ∀ c ∈ front.getLast?, p c = false) (back : List Char) :
    dropBack p (front ++ back) = front ++ dropBack p back := by
  by_cases hback : dropBack p back = []
  · obtain ⟨dropped, hsplit, hdropped⟩ := dropBack_split p back
    rw [hback, List.nil_append] at hsplit
    rw [dropBack_append_of_forall (hsplit ▸ hdropped), dropBack_of_getLast? h, hback, List.append_nil]
  · exact dropBack_append hback front

theorem trim_append {s : List Char} (h : trim s ≠ []) (t : List Char) :
    ∃ blanks, (∀ c ∈ blanks, isBlank c = true) ∧
      trim (s ++ t) = trim s ++ dropBack isBlank (blanks ++ t) := by
  have htrim (text : List Char) : trim text = dropBack isBlank (text.dropWhile isBlank) := rfl
  obtain ⟨blanks, hsplit, hblanks⟩ := dropBack_split isBlank (s.dropWhile isBlank)
  refine ⟨blanks, hblanks, ?_⟩
  have hdrop : (s ++ t).dropWhile isBlank = trim s ++ (blanks ++ t) := by
    rw [List.dropWhile_append, if_neg, hsplit, ← htrim, List.append_assoc]
    intro hempty
    rw [htrim, List.isEmpty_iff.mp hempty] at h
    exact h rfl
  rw [htrim (s ++ t), hdrop]
  exact dropBack_append_of_getLast? getLast?_dropBack (blanks ++ t)

/-- A text that does not start or end with a blank stays when it is trimmed with something behind it. -/
theorem trim_append_of_ends {front : List Char} {first last : Char} (hfirst : front.head? = some first)
    (hlast : front.getLast? = some last) (hf : isBlank first = false) (hl : isBlank last = false)
    (back : List Char) : trim (front ++ back) = front ++ dropBack isBlank back := by
  have hkept : (front ++ back).dropWhile isBlank = front ++ back := by
    obtain ⟨rest, rfl⟩ := List.head?_eq_some_iff.mp hfirst
    exact List.dropWhile_cons_of_neg (by rw [hf]; exact Bool.false_ne_true)
  have hends : ∀ c ∈ front.getLast?, isBlank c = false := by
    intro c hc
    obtain rfl : last = c := Option.some.inj (hlast.symm.trans hc)
    exact hl
  show dropBack isBlank ((front ++ back).dropWhile isBlank) = front ++ dropBack isBlank back
  rw [hkept, dropBack_append_of_getLast? hends]

theorem trim_append_of_trim_eq_nil {s : List Char} (h : trim s = []) (t : List Char) :
    trim (s ++ t) = trim t := by
  have hblank : ∀ c ∈ s, isBlank c = true := by simpa using trim_eq_nil_iff.mp h
  unfold trim dropEnds
  rw [List.dropWhile_append_of_pos hblank]

theorem trim_append_of_blank {blanks : List Char} (h : ∀ c ∈ blanks, isBlank c = true)
    (s : List Char) : trim (s ++ blanks) = trim s := by
  induction blanks generalizing s with
  | nil => rw [List.append_nil]
  | cons c blanks ih =>
    rw [List.forall_mem_cons] at h
    rw [List.append_cons, ih h.2]
    exact dropEnds_append_singleton h.1 s

/-- Trimming takes away nothing but blanks. -/
theorem trim_split (s : List Char) : ∃ front back, s = front ++ trim s ++ back ∧
    (∀ c ∈ front, isBlank c = true) ∧ ∀ c ∈ back, isBlank c = true := by
  obtain ⟨back, hback, hblank⟩ := dropBack_split isBlank (s.dropWhile isBlank)
  refine ⟨s.takeWhile isBlank, back, ?_, ?_, hblank⟩
  · have htrim : trim s = dropBack isBlank (s.dropWhile isBlank) := rfl
    rw [htrim, List.append_assoc, ← hback, List.takeWhile_append_dropWhile]
  · exact fun c hc => List.all_eq_true.mp List.all_takeWhile c hc

theorem dropWhile_append_of_head? {p : Char → Bool} {back : List Char}
    (h : ∀ c ∈ back.head?, p c = false) {front : List Char} (hfront : ∀ c ∈ front, p c = true) :
    (front ++ back).dropWhile p = back := by
  rw [List.dropWhile_append_of_pos hfront]
  cases back with
  | nil => rfl
  | cons c back => rw [List.dropWhile_cons_of_neg (by simp [h c rfl])]

theorem takeWhile_append_of_head? {p : Char → Bool} {back : List Char}
    (h : ∀ c ∈ back.head?, p c = false) {front : List Char} (hfront : ∀ c ∈ front, p c = true) :
    (front ++ back).takeWhile p = front := by
  rw [List.takeWhile_append_of_pos hfront]
  cases back with
  | nil => rw [List.takeWhile_nil, List.append_nil]
  | cons c back => rw [List.takeWhile_cons_of_neg (by simp [h c rfl]), List.append_nil]

/-! ## Front parts -/

theorem after?_eq_some_iff {front s rest : List Char} :
    after? front s = some rest ↔ s = front ++ rest := by
  constructor
  · exact eq_append_of_after?
  · rintro rfl
    exact after?_append front rest

theorem isSome_after?_iff {front s : List Char} : (after? front s).isSome = true ↔ front <+: s := by
  rw [Option.isSome_iff_exists]
  exact exists_congr fun rest => after?_eq_some_iff.trans eq_comm

theorem eq_append_of_dropFront? {front s rest : List Char} (h : dropFront? front s = some rest) :
    ∃ start, s = start ++ rest ∧ lower start = lower front := by
  fun_induction dropFront? front s with
  | case1 s => exact ⟨[], by rw [Option.some.inj h, List.nil_append], rfl⟩
  | case2 => simp at h
  | case3 a front b s hab ih =>
    obtain ⟨start, hsplit, hstart⟩ := ih h
    refine ⟨b :: start, by rw [hsplit, List.cons_append], ?_⟩
    simpa [lower, beq_iff_eq.mp hab] using hstart
  | case4 => simp at h

theorem dropFront?_of_lower {start front : List Char} (h : lower start = lower front)
    (rest : List Char) : dropFront? front (start ++ rest) = some rest := by
  induction front generalizing start with
  | nil =>
    rw [List.map_eq_nil_iff.mp h]
    rfl
  | cons a front ih =>
    obtain ⟨b, more, rfl, hb, hmore⟩ := List.map_eq_cons_iff.mp h
    rw [List.cons_append, dropFront?, if_pos (by rw [hb]; exact beq_self_eq_true _)]
    exact ih hmore

/-! ## Cutting -/

theorem cut?_eq_none_iff {mark s : List Char} : cut? mark s = none ↔ ¬ mark <:+: s := by
  rw [← infix_iff_occurs, occurs, Bool.not_eq_true, Option.isSome_eq_false_iff,
    Option.isNone_iff_eq_none]

/-- The cut is made at the first occurrence. -/
theorem length_le_of_cut? {mark s front rest front' rest' : List Char}
    (h : cut? mark s = some (front, rest)) (hs : s = front' ++ mark ++ rest') :
    front.length ≤ front'.length := by
  induction s generalizing front front' with
  | nil =>
    have hnil := (List.append_eq_nil_iff.mp (eq_append_of_cut? h).symm).1
    rw [(List.append_eq_nil_iff.mp hnil).1]
    exact Nat.zero_le _
  | cons c s ih =>
    rw [cut?] at h
    split at h
    · obtain ⟨rfl, -⟩ : [] = front ∧ _ = rest := by simpa using h
      exact Nat.zero_le _
    · rename_i hafter
      obtain ⟨⟨front₀, rest₀⟩, hcut, hfront⟩ := Option.map_eq_some_iff.mp h
      obtain ⟨rfl, rfl⟩ : c :: front₀ = front ∧ rest₀ = rest := by simpa using hfront
      cases front' with
      | nil =>
        rw [hs, List.nil_append, after?_append] at hafter
        simp at hafter
      | cons d front' =>
        have hs' : s = front' ++ mark ++ rest' := by simpa using (List.cons.inj hs).2
        simpa using ih hcut hs'

theorem cut?_singleton {c : Char} {front : List Char} (h : c ∉ front) (rest : List Char) :
    cut? [c] (front ++ c :: rest) = some (front, rest) := by
  induction front with
  | nil => simp [cut?, after?]
  | cons d front ih =>
    rw [List.mem_cons, not_or] at h
    have hnone : after? [c] (d :: (front ++ c :: rest)) = none := by
      rw [after?, if_neg (by simpa using h.1)]
    rw [List.cons_append, cut?, hnone, ih h.2]
    rfl

/-- What is cut in front stays cut, whatever comes behind. -/
theorem cut?_append {mark s front rest : List Char} (h : cut? mark s = some (front, rest))
    (t : List Char) : cut? mark (s ++ t) = some (front, rest ++ t) := by
  induction s generalizing front with
  | nil =>
    obtain ⟨hfront, hrest⟩ := List.append_eq_nil_iff.mp (eq_append_of_cut? h).symm
    obtain ⟨rfl, rfl⟩ := List.append_eq_nil_iff.mp hfront
    rw [hrest]
    cases t with
    | nil => rfl
    | cons c t => rfl
  | cons c s ih =>
    rw [cut?] at h
    rw [List.cons_append, cut?]
    split at h
    · rename_i hafter
      obtain ⟨rfl, rfl⟩ : [] = front ∧ _ = rest := by simpa using h
      rw [after?_eq_some_iff.mpr]
      rw [← List.cons_append, after?_eq_some_iff.mp hafter, List.append_assoc]
    · rename_i hafter
      obtain ⟨⟨front₀, rest₀⟩, hcut, hfront⟩ := Option.map_eq_some_iff.mp h
      obtain ⟨rfl, rfl⟩ : c :: front₀ = front ∧ rest₀ = rest := by simpa using hfront
      -- a mark that fits into `s` is not found with the help of `t`
      have hnone : after? mark (c :: (s ++ t)) = none := by
        rw [← Option.not_isSome_iff_eq_none, isSome_after?_iff]
        intro hmark
        have hfits : mark.length ≤ (c :: s).length := by
          have := length_of_cut? hcut
          rw [List.length_cons]
          omega
        have hwithin := List.prefix_of_prefix_length_le hmark (List.prefix_append (c :: s) t) hfits
        rw [← isSome_after?_iff, hafter] at hwithin
        exact absurd hwithin (by decide)
      rw [hnone, ih hcut]
      rfl

theorem cut?_of_append {mark s t front rest : List Char}
    (h : cut? mark (s ++ t) = some (front, rest ++ t)) : cut? mark s = some (front, rest) := by
  have hsplit : s = front ++ mark ++ rest := by
    have hwhole := eq_append_of_cut? h
    rw [← List.append_assoc] at hwhole
    exact List.append_cancel_right hwhole
  cases hcut : cut? mark s with
  | none => exact absurd ⟨front, rest, hsplit.symm⟩ (cut?_eq_none_iff.mp hcut)
  | some parts =>
    have hsame := cut?_append hcut t
    rw [h] at hsame
    obtain ⟨rfl, hrest⟩ : front = parts.1 ∧ rest ++ t = parts.2 ++ t := by simpa using hsame
    rw [List.append_cancel_right hrest]

/-- A mark that neither piece holds stands across their border, or across what joins them. -/
theorem across_of_cut? {mark first joint second front rest : List Char}
    (h : cut? mark (first ++ joint ++ second) = some (front, rest)) (hfirst : ¬ mark <:+: first)
    (hsecond : ¬ mark <:+: second) :
    (∃ near far, first = front ++ near ∧ mark = near ++ far ∧ near ≠ [] ∧ far ≠ [] ∧
      joint ++ second = far ++ rest) ∨
    (∃ near far, front = first ++ near ∧ joint = near ++ far ∧ far ≠ [] ∧
      far ++ second = mark ++ rest) := by
  have hsplit := eq_append_of_cut? h
  rw [List.append_assoc, List.append_assoc, List.append_eq_append_iff] at hsplit
  rcases hsplit with ⟨near, rfl, hnear⟩ | ⟨near, rfl, hnear⟩
  · -- the mark starts behind the first piece
    rcases List.append_eq_append_iff.mp hnear with ⟨past, rfl, hpast⟩ | ⟨far, rfl, hfar⟩
    · exact absurd ⟨past, rest, by rw [hpast, List.append_assoc]⟩ hsecond
    · refine .inr ⟨near, far, rfl, rfl, ?_, hfar.symm⟩
      rintro rfl
      exact hsecond ⟨[], rest, by simpa using hfar⟩
  · -- the mark starts in the first piece, or just behind it
    rcases List.append_eq_append_iff.mp hnear with ⟨past, rfl, hpast⟩ | ⟨far, rfl, hfar⟩
    · exact absurd ⟨front, past, by rw [List.append_assoc]⟩ hfirst
    · cases near with
      | nil =>
        refine .inr ⟨[], joint, by simp, rfl, ?_, by simpa using hfar⟩
        rintro rfl
        exact hsecond ⟨[], rest, by simpa using hfar.symm⟩
      | cons c near =>
        refine .inl ⟨c :: near, far, rfl, rfl, List.cons_ne_nil c near, ?_, hfar⟩
        rintro rfl
        exact hfirst ⟨front, [], by simp⟩

theorem infix_trim (s : List Char) : trim s <:+: s := by
  obtain ⟨front, back, hsplit, -⟩ := trim_split s
  exact ⟨front, back, hsplit.symm⟩

theorem infix_joinWith {mark part : List Char} {parts : List (List Char)} (h : part ∈ parts) :
    part <:+: joinWith mark parts := by
  cases parts with
  | nil => exact absurd h List.not_mem_nil
  | cons first rest =>
    rw [joinWith_cons]
    rcases List.mem_cons.mp h with rfl | hrest
    · exact (List.prefix_append part _).isInfix
    · obtain ⟨before, behind, rfl⟩ := List.append_of_mem hrest
      exact ⟨first ++ before.flatMap (mark ++ ·) ++ mark, behind.flatMap (mark ++ ·), by simp⟩

/-- The pieces between the marks are parts of the text. -/
theorem infix_of_mem_splitOn {mark : Char} {part s : List Char} (h : part ∈ s.splitOn mark) :
    part <:+: s := by
  have hjoined : joinWith [mark] (s.splitOn mark) = s := List.intercalate_splitOn mark
  exact hjoined ▸ infix_joinWith h

/-! ## Parts in order -/

/-- The parts stand in the text one after the other. -/
inductive InOrder : List (List Char) → List Char → Prop
  | nil (s : List Char) : InOrder [] s
  | cons {part rest : List Char} {parts : List (List Char)} (lead : List Char)
      (behind : InOrder parts rest) : InOrder (part :: parts) (lead ++ (part ++ rest))

namespace InOrder

variable {parts parts' : List (List Char)} {part s t : List Char}

theorem append (h : InOrder parts s) (h' : InOrder parts' t) : InOrder (parts ++ parts') (s ++ t) := by
  induction h with
  | nil s =>
    cases h' with
    | nil t => exact .nil (s ++ t)
    | cons lead behind =>
      rw [← List.append_assoc]
      exact .cons (s ++ lead) behind
  | cons lead behind ih =>
    rw [List.append_assoc, List.append_assoc]
    exact .cons lead ih

/-- They do so in a longer text. -/
theorem widen (h : InOrder parts s) (hpart : s <:+: t) : InOrder parts t := by
  obtain ⟨lead, back, rfl⟩ := hpart
  have hwhole := ((InOrder.nil lead).append h).append (.nil back)
  rwa [List.nil_append, List.append_nil] at hwhole

theorem singleton (s : List Char) : InOrder [s] s := by
  have h : InOrder [s] ([] ++ (s ++ [])) := .cons [] (.nil [])
  rwa [List.nil_append, List.append_nil] at h

theorem infix_of_mem (h : InOrder parts s) (hpart : part ∈ parts) : part <:+: s := by
  induction h with
  | nil s => exact absurd hpart List.not_mem_nil
  | @cons first rest parts lead behind ih =>
    rcases List.mem_cons.mp hpart with rfl | hmem
    · exact ⟨lead, rest, by rw [List.append_assoc]⟩
    · exact (ih hmem).trans ⟨lead ++ first, [], by simp⟩

end InOrder

end CardRules.Text
