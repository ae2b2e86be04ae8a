import CardRules.Proofs.Effect.Readings
import CardRules.Proofs.Text.Sentence

/-!
# Bare clauses

Before a clause is read, blanks, final periods and the words "you may" are stripped of it. Here the
stripping is followed through a compound clause: `bare_append` says what is left of two clauses in a row,
and `effects?_stripped` that a clause can be stripped at its ends without changing its effects. The
effects themselves are read without the size that bounds the recursion (`effects?_eq`).
-/

set_option autoImplicit false

namespace CardRules.Clause

open Text
open Target (isStop)

/-! ## Effects of a clause, without its size -/

/-- The effects of the two clauses around the first occurrence of a joint. -/
def joined? (joint : String) (s : List Char) : Option (List Effect) :=
  (cut? joint.toList s).bind fun (first, second) =>
    (effects? first).bind fun effects => (effects? second).map fun rest => effects ++ rest

theorem joined?_of_cut? {joint : String} {s first second : List Char}
    (h : cut? joint.toList s = some (first, second)) :
    joined? joint s =
      (effects? first).bind fun effects => (effects? second).map fun rest => effects ++ rest := by
  simp only [joined?, h, Option.bind_some]

theorem effects?_eq (s : List Char) :
    effects? s = match single? (bare s) with
      | some effect => some [effect]
      | none => joints.findSome? fun joint => joined? joint (bare s) := by
  have hpos : ∀ joint ∈ joints, 0 < joint.toList.length := by decide
  have hstep : ∀ joint ∈ joints, (do
      let (first, second) ← cut? joint.toList (bare s)
      let effects ← effectsWithin s.length first
      let rest ← effectsWithin s.length second
      pure (effects ++ rest)) = joined? joint (bare s) := by
    intro joint hjoint
    refine Option.bind_congr fun parts hcut => ?_
    obtain ⟨first, second⟩ := parts
    have hlength := length_of_cut? hcut
    have hbare := length_bare_le s
    have := hpos joint hjoint
    have hsize (part : List Char) (hpart : part.length < s.length) :
        effectsWithin s.length part = effects? part := by
      rw [effects?]
      exact effectsWithin_eq hpart (Nat.lt_succ_self _)
    dsimp only
    rw [hsize first (by omega), hsize second (by omega)]
    refine Option.bind_congr fun effects _ => ?_
    rw [Option.map_eq_bind]
    rfl
  rw [effects?, effectsWithin]
  cases single? (bare s) with
  | some effect => rfl
  | none =>
    simp only [joints, List.findSome?_cons, List.findSome?_nil]
    rw [hstep ", then " (by decide), hstep ", and " (by decide), hstep " and " (by decide)]

theorem effects?_of_single? {s : List Char} {effect : Effect} (h : single? (bare s) = some effect) :
    effects? s = some [effect] := by
  rw [effects?_eq, h]

/-- A text in which no joint occurs. -/
def Jointless (s : List Char) : Prop := ∀ joint ∈ joints, ¬ joint.toList <:+: s

instance (s : List Char) : Decidable (Jointless s) :=
  inferInstanceAs (Decidable (∀ joint ∈ joints, ¬ joint.toList <:+: s))

theorem Jointless.of_infix {part s : List Char} (h : Jointless s) (hpart : part <:+: s) :
    Jointless part :=
  fun joint hjoint hoccurs => h joint hjoint (hoccurs.trans hpart)

/-! ## What a bare clause is stripped of -/

/-- A text without blanks and final periods behind it. -/
def stripped (s : List Char) : List Char := dropBack (· == '.') (dropBack isBlank s)

/-- A text without the words "you may" in front of it. -/
def unprompted (s : List Char) : List Char := (dropFront? "you may ".toList s).getD s

theorem bare_eq (s : List Char) : bare s = unprompted (stripped (s.dropWhile isBlank)) := rfl

theorem stripped_append {back : List Char} (h : stripped back ≠ []) (front : List Char) :
    stripped (front ++ back) = front ++ stripped back := by
  have hback : dropBack isBlank back ≠ [] := by
    intro hnil
    rw [stripped, hnil] at h
    exact h rfl
  rw [stripped, dropBack_append hback, dropBack_append h]
  rfl

/-- What is stripped of a text are blanks and periods. -/
theorem stripped_split (s : List Char) :
    ∃ junk, s = stripped s ++ junk ∧ ∀ c ∈ junk, isStop c = true ∧ c ≠ ',' := by
  obtain ⟨blanks, hs, hblanks⟩ := dropBack_split isBlank s
  obtain ⟨periods, hperiods, hall⟩ := dropBack_split (· == '.') (dropBack isBlank s)
  refine ⟨periods ++ blanks, ?_, ?_⟩
  · rw [stripped, ← List.append_assoc, ← hperiods, ← hs]
  · intro c hc
    rcases List.mem_append.mp hc with hc | hc
    · rw [beq_iff_eq.mp (hall c hc)]
      decide
    · refine ⟨by rw [isStop, hblanks c hc, Bool.true_or], ?_⟩
      rintro rfl
      exact absurd (hblanks ',' hc) (by decide)

theorem mem_dropBack {p : Char → Bool} {s : List Char} {c : Char} (hc : c ∈ s) (h : p c = false) :
    c ∈ dropBack p s := by
  obtain ⟨dropped, hs, hdropped⟩ := dropBack_split p s
  rw [hs] at hc
  rcases List.mem_append.mp hc with hkept | hgone
  · exact hkept
  · rw [hdropped c hgone] at h
    exact absurd h (by decide)

theorem mem_stripped {s : List Char} {c : Char} (hc : c ∈ s) (h : isStop c = false) :
    c ∈ stripped s := by
  rw [isStop, Target.isMark, Bool.or_eq_false_iff, Bool.or_eq_false_iff] at h
  exact mem_dropBack (mem_dropBack hc h.1) h.2.2

/-! ## Clauses that are read -/

variable {s : List Char} {effect : Effect}

theorem Starts.ne_nil {heads : List String} (h : Starts heads s)
    (hheads : ∀ head ∈ heads, head.toList ≠ []) : s ≠ [] := by
  obtain ⟨head, hhead, hstart⟩ := h
  rintro rfl
  exact hheads head hhead (List.prefix_nil.mp hstart)

/-- A clause starts with a letter. -/
theorem isStop_head? (h : Starts allHeads s) : ∀ c ∈ s.head?, isStop c = false := by
  have hheads : ∀ head ∈ allHeads, head.toList ≠ [] ∧ head.toList.head?.any isStop = false := by decide
  intro c hc
  obtain ⟨rest, rfl⟩ := List.head?_eq_some_iff.mp hc
  obtain ⟨head, hhead, more, hstart⟩ := h
  obtain ⟨hne, hletter⟩ := hheads head hhead
  obtain ⟨letter, letters, hletters⟩ := List.exists_cons_of_ne_nil hne
  rw [hletters, List.cons_append, List.map_cons] at hstart
  rw [hletters, List.head?_cons, Option.any_some] at hletter
  rw [← isStop_fold, ← (List.cons.inj hstart).1, hletter]

/-- A clause that is read does not start with "you may". -/
theorem unprompted_eq_self (h : Starts allHeads s) : unprompted s = s := by
  have hapart : Apart ["you may "] allHeads := by decide
  unfold unprompted
  cases hdrop : dropFront? "you may ".toList s with
  | none => rfl
  | some rest =>
    obtain ⟨start, rfl, hstart⟩ := eq_append_of_dropFront? hdrop
    have hspells : Spells ["you may "] start :=
      ⟨_, List.mem_singleton_self _, map_fold_of_lower hstart (forall_mem_of_all (by decide))⟩
    exact absurd h (hapart.not_starts (hspells.starts.append rest))

/-- What is in front of a text that "you may" is taken from can stand in front of another. -/
theorem unprompted_split (s : List Char) : ∃ lead, s = lead ++ unprompted s ∧
    ∀ text, Starts allHeads text → unprompted (lead ++ text) = text := by
  unfold unprompted
  cases hdrop : dropFront? "you may ".toList s with
  | none => exact ⟨[], rfl, fun text htext => unprompted_eq_self htext⟩
  | some rest =>
    obtain ⟨start, hsplit, hstart⟩ := eq_append_of_dropFront? hdrop
    exact ⟨start, hsplit, fun text _ => by rw [dropFront?_of_lower hstart]; rfl⟩

theorem infix_bare (s : List Char) : bare s <:+: s := by
  obtain ⟨lead, hlead, -⟩ := unprompted_split (stripped (s.dropWhile isBlank))
  obtain ⟨junk, hjunk, -⟩ := stripped_split (s.dropWhile isBlank)
  refine ⟨s.takeWhile isBlank ++ lead, junk, ?_⟩
  rw [bare_eq, List.append_assoc _ lead, ← hlead, List.append_assoc, ← hjunk,
    List.takeWhile_append_dropWhile]

/-- A text without joints is one clause, or none. -/
theorem effects?_of_jointless (h : Jointless s) :
    effects? s = (single? (bare s)).map fun effect => [effect] := by
  rw [effects?_eq]
  cases single? (bare s) with
  | some effect => rfl
  | none =>
    refine List.findSome?_eq_none_iff.mpr fun joint hjoint => ?_
    rw [joined?, cut?_eq_none_iff.mpr fun hoccurs => h joint hjoint (hoccurs.trans (infix_bare s))]
    rfl

theorem head?_of_starts (h : Starts allHeads s) : ∃ c rest, s = c :: rest ∧ isStop c = false := by
  obtain ⟨c, rest, rfl⟩ := List.exists_cons_of_ne_nil (h.ne_nil (by decide))
  exact ⟨c, rest, rfl, isStop_head? h c rfl⟩

theorem stripped_ne_nil (h : Starts allHeads s) : stripped s ≠ [] := by
  obtain ⟨c, rest, rfl, hc⟩ := head?_of_starts h
  exact List.ne_nil_of_mem (mem_stripped List.mem_cons_self hc)

theorem dropWhile_eq_self (h : Starts allHeads s) : s.dropWhile isBlank = s := by
  obtain ⟨c, rest, rfl, hc⟩ := head?_of_starts h
  rw [isStop, Bool.or_eq_false_iff] at hc
  exact List.dropWhile_cons_of_neg (by simp [hc.1])

/-- In front of more text a clause stays bare, with what was stripped of its end. -/
theorem bare_append (h : Starts allHeads (bare s)) :
    ∃ lead junk, s = lead ++ (bare s ++ junk) ∧ (∀ c ∈ junk, isStop c = true ∧ c ≠ ',') ∧
      bare (bare s ++ junk) = bare s ∧
      ∀ back, stripped back ≠ [] → bare (s ++ back) = bare s ++ junk ++ stripped back := by
  obtain ⟨junk, hjunk, hstops⟩ := stripped_split (s.dropWhile isBlank)
  obtain ⟨may, hmay, hunprompted⟩ := unprompted_split (stripped (s.dropWhile isBlank))
  rw [← bare_eq] at hmay
  rw [hmay, List.append_assoc] at hjunk
  have hstarts : Starts allHeads (bare s ++ junk) := h.append junk
  refine ⟨s.takeWhile isBlank ++ may, junk, ?_, hstops, ?_, ?_⟩
  · rw [List.append_assoc, ← hjunk, List.takeWhile_append_dropWhile]
  · have hstripped : stripped (bare s ++ junk) = bare s := by
      have hwhole := stripped_append (stripped_ne_nil hstarts) may
      rw [← hjunk, hmay] at hwhole
      exact (List.append_cancel_left hwhole).symm
    rw [bare_eq (bare s ++ junk), dropWhile_eq_self hstarts, hstripped, unprompted_eq_self h]
  · intro back hback
    have hne : s.dropWhile isBlank ≠ [] := by
      rw [hjunk]
      simp [h.ne_nil (by decide)]
    rw [bare_eq, List.dropWhile_append, if_neg (by simpa using hne), stripped_append hback, hjunk,
      List.append_assoc, hunprompted _ (hstarts.append _)]

theorem stripped_eq_append (h : Starts allHeads (bare s)) :
    stripped s = s.takeWhile isBlank ++ stripped (s.dropWhile isBlank) := by
  have hne : stripped (s.dropWhile isBlank) ≠ [] := by
    obtain ⟨may, hmay, -⟩ := unprompted_split (stripped (s.dropWhile isBlank))
    rw [hmay, ← bare_eq]
    simp [h.ne_nil (by decide)]
  conv_lhs => rw [← List.takeWhile_append_dropWhile (p := isBlank) (l := s)]
  exact stripped_append hne _

/-- What is left of a clause stands at its end, apart from the stops there. -/
theorem suffix_stripped (h : Starts allHeads (bare s)) : bare s <:+ stripped s := by
  obtain ⟨may, hmay, -⟩ := unprompted_split (stripped (s.dropWhile isBlank))
  rw [stripped_eq_append h, hmay, ← bare_eq, ← List.append_assoc]
  exact List.suffix_append _ _

/-- A clause is still read without blanks and periods behind it. -/
theorem effects?_stripped (h : single? (bare s) = some effect) :
    effects? (stripped s) = some [effect] := by
  have hstarts := (reading_of_single? h).starts
  obtain ⟨may, hmay, hunprompted⟩ := unprompted_split (stripped (s.dropWhile isBlank))
  rw [← bare_eq] at hmay
  obtain ⟨junk, hjunk, hstops⟩ := stripped_split (bare s)
  have hread : single? (stripped (bare s)) = some effect :=
    single?_of_append_stops (fun c hc => (hstops c hc).1) (hjunk ▸ h)
  have hfront : (stripped s).dropWhile isBlank = may ++ bare s := by
    rw [stripped_eq_append hstarts, hmay]
    refine dropWhile_append_of_head? (fun c hc => ?_) (List.all_eq_true.mp List.all_takeWhile)
    obtain ⟨after, hafter, -⟩ := stripped_split (s.dropWhile isBlank)
    have hhead := List.head?_dropWhile_not isBlank s
    rw [hafter, hmay, List.head?_append, Option.mem_def.mp hc, Option.some_or] at hhead
    exact hhead
  refine effects?_of_single? ?_
  rw [bare_eq, hfront, stripped_append (stripped_ne_nil hstarts),
    hunprompted _ (reading_of_single? hread).starts]
  exact hread

theorem stripped_ne_nil_of_bare (h : Starts allHeads (bare s)) : dropBack isBlank (stripped s) ≠ [] := by
  obtain ⟨c, rest, hbare, hc⟩ := head?_of_starts h
  have hmem : c ∈ s := (infix_bare s).subset (by rw [hbare]; exact List.mem_cons_self)
  rw [isStop, Bool.or_eq_false_iff] at hc
  exact List.ne_nil_of_mem (mem_dropBack (mem_stripped hmem (by rw [isStop, hc.1, hc.2]; rfl)) hc.1)

theorem length_le_of_starts (h : Starts allHeads s) : 4 ≤ s.length := by
  have hheads : ∀ head ∈ allHeads, 4 ≤ head.toList.length := by decide
  obtain ⟨head, hhead, hstart⟩ := h
  have hlength := hstart.length_le
  rw [List.length_map] at hlength
  exact (hheads head hhead).trans hlength

end CardRules.Clause
