import CardRules.Proofs.Effect.Bare

/-!
# Where two clauses are cut apart

A joint is looked for from the front, and the three joints one after the other. In a text that is put
together from two clauses and a joint, the first cut that gives two clauses is at this joint, or at a comma in
front of it, which does not matter (`cut_cases`). Only a first clause that ends in "and" is cut too early, and
then there is no other cut (`findSome?_joined?`).
-/

set_option autoImplicit false

namespace CardRules.Clause

open Text

theorem effects?_of_read {s : List Char} {effect : Effect} (h : single? s = some effect) :
    effects? s = some [effect] := by
  have hstarts := (reading_of_single? h).starts
  obtain ⟨junk, hjunk, hstops⟩ := stripped_split s
  have hread : single? (stripped s) = some effect :=
    single?_of_append_stops (fun c hc => (hstops c hc).1) (hjunk ▸ h)
  refine effects?_of_single? ?_
  rw [bare_eq, dropWhile_eq_self hstarts, unprompted_eq_self (reading_of_single? hread).starts]
  exact hread

/-- No clause starts with an "a", whatever it is made of. -/
theorem effects?_eq_none_of_head? {s : List Char} (h : s.head? = some 'a') : effects? s = none := by
  induction hn : s.length using Nat.strong_induction_on generalizing s with
  | h n ih =>
    have hbare : (bare s).head? = some 'a' := by
      obtain ⟨rest, rfl⟩ := List.head?_eq_some_iff.mp h
      obtain ⟨junk, hjunk, -⟩ := stripped_split ('a' :: rest)
      obtain ⟨c, more, hmore⟩ := List.exists_cons_of_ne_nil
        (List.ne_nil_of_mem (mem_stripped (List.mem_cons_self (a := 'a') (l := rest)) (by decide)))
      rw [hmore, List.cons_append] at hjunk
      rw [bare_eq, List.dropWhile_cons_of_neg (by decide), hmore, ← (List.cons.inj hjunk).1]
      rfl
    have hapart : Apart ["a"] allHeads := by decide
    have hstart : Starts ["a"] (bare s) := by
      obtain ⟨rest, hrest⟩ := List.head?_eq_some_iff.mp hbare
      exact ⟨"a", List.mem_singleton_self "a", by rw [hrest]; exact ⟨rest.map fold, rfl⟩⟩
    rw [effects?_eq, single?_eq_none hapart hstart]
    refine List.findSome?_eq_none_iff.mpr fun joint hjoint => ?_
    cases hcut : cut? joint.toList (bare s) with
    | none => rw [joined?, hcut]; rfl
    | some parts =>
      obtain ⟨first, second⟩ := parts
      have hjoints : ∀ joint ∈ joints, joint.toList ≠ [] ∧ joint.toList.head? ≠ some 'a' := by decide
      obtain ⟨hne, hletter⟩ := hjoints joint hjoint
      have hsplit := eq_append_of_cut? hcut
      have hfirst : first.head? = some 'a' := by
        cases first with
        | nil =>
          rw [hsplit, List.nil_append, List.head?_append_of_ne_nil _ hne] at hbare
          exact absurd hbare hletter
        | cons c first =>
          rw [hsplit] at hbare
          exact hbare
      have hlength : first.length < n := by
        have := length_of_cut? hcut
        have := length_bare_le s
        have := List.length_pos_iff.mpr hne
        omega
      rw [joined?_of_cut? hcut, ih first.length hlength hfirst rfl]
      rfl

/-- Where a joint could stand across the end of a clause and another joint: the two share a blank, or
the clause ends in a comma. -/
theorem near_cases : ∀ mark ∈ joints, ∀ joint ∈ joints, ∀ n ∈ List.range mark.toList.length, 0 < n →
    mark.toList.drop n <+: joint.toList ∨ joint.toList <+: mark.toList.drop n →
    joint = " and " ∧ (mark.toList.drop n = [' '] ∨
      mark.toList.take n = [','] ∧ mark.toList.drop n = joint.toList) := by
  decide

/-- A joint does not start within one that is looked for later. -/
theorem far_cases : ∀ mark ∈ joints, ∀ joint ∈ joints, joints.idxOf mark ≤ joints.idxOf joint →
    ∀ n ∈ List.range joint.toList.length,
      joint.toList.drop n <+: mark.toList ∨ mark.toList <+: joint.toList.drop n → mark = joint := by
  decide

/-- Where the joint of two clauses is cut, or one that is looked for before it: at the joint, or at a
comma in front of it, or else what comes behind starts with "and". -/
theorem cut_cases {mark joint : String} (hmark : mark ∈ joints) (hjoint : joint ∈ joints)
    (horder : joints.idxOf mark ≤ joints.idxOf joint) {first second front rest : List Char}
    (hfirst : Jointless first) (hsecond : Jointless second)
    (hcut : cut? mark.toList (first ++ joint.toList ++ second) = some (front, rest)) :
    mark = joint ∧ front = first ∧ rest = second ∨
      joint = " and " ∧ first = front ++ [','] ∧ rest = second ∨
      joint = " and " ∧ first ++ [' '] = front ++ mark.toList ∧ rest = "and ".toList ++ second := by
  rcases across_of_cut? hcut (hfirst mark hmark) (hsecond mark hmark) with
    ⟨near, far, hnear, hsplit, hne, hne', hrest⟩ | ⟨near, far, hnear, hsplit, hne, hrest⟩
  · have htake : mark.toList.take near.length = near := by rw [hsplit, List.take_left]
    have hdrop : mark.toList.drop near.length = far := by rw [hsplit, List.drop_left]
    have hlength : near.length ∈ List.range mark.toList.length := by
      have := List.length_pos_iff.mpr hne'
      rw [hsplit, List.mem_range, List.length_append]
      omega
    have hwithin : far <+: joint.toList ∨ joint.toList <+: far :=
      List.prefix_or_prefix_of_prefix (hrest ▸ List.prefix_append far rest) (List.prefix_append _ second)
    have hcases := near_cases mark hmark joint hjoint near.length hlength (List.length_pos_iff.mpr hne)
    rw [htake, hdrop] at hcases
    obtain ⟨rfl, hblank | ⟨hcomma, hwhole⟩⟩ := hcases hwithin
    · refine .inr (.inr ⟨rfl, ?_, ?_⟩)
      · rw [hnear, hsplit, hblank, List.append_assoc]
      · rw [hblank] at hrest
        exact (List.cons.inj hrest).2.symm
    · refine .inr (.inl ⟨rfl, by rw [hnear, hcomma], ?_⟩)
      rw [hwhole] at hrest
      exact (List.append_cancel_left hrest).symm
  · have hdrop : joint.toList.drop near.length = far := by rw [hsplit, List.drop_left]
    have hlength : near.length ∈ List.range joint.toList.length := by
      have := List.length_pos_iff.mpr hne
      rw [hsplit, List.mem_range, List.length_append]
      omega
    have hwithin : far <+: mark.toList ∨ mark.toList <+: far :=
      List.prefix_or_prefix_of_prefix (hrest ▸ List.prefix_append far second) (List.prefix_append _ rest)
    have hcases := far_cases mark hmark joint hjoint horder near.length hlength
    rw [hdrop] at hcases
    obtain rfl := hcases hwithin
    -- the joint itself comes first
    have hfirst := length_le_of_cut? hcut rfl
    have hnil : near = [] := by
      rw [hnear, List.length_append] at hfirst
      exact List.eq_nil_of_length_eq_zero (by omega)
    rw [hnil, List.nil_append] at hsplit
    rw [← hsplit] at hrest
    exact .inl ⟨rfl, by rw [hnear, hnil, List.append_nil], (List.append_cancel_left hrest).symm⟩

section

variable {first second : List Char} {effect effect' : Effect} {joint : String}

/-- A joint that is looked for in time either is in no place where it could cut, or gives both effects. -/
theorem joined?_cases {mark : String} (hmark : mark ∈ joints) (hjoint : joint ∈ joints)
    (horder : joints.idxOf mark ≤ joints.idxOf joint) (hfirst : Jointless first)
    (hsecond : Jointless second) (heffect : effects? first = some [effect])
    (heffect' : effects? second = some [effect'])
    (hcomma : ∀ front, first = front ++ [','] → effects? front = some [effect]) :
    joined? mark (first ++ joint.toList ++ second) = none ∨
      joined? mark (first ++ joint.toList ++ second) = some [effect, effect'] := by
  cases hcut : cut? mark.toList (first ++ joint.toList ++ second) with
  | none =>
    rw [joined?, hcut]
    exact .inl rfl
  | some parts =>
    obtain ⟨front, rest⟩ := parts
    rw [joined?_of_cut? hcut]
    rcases cut_cases hmark hjoint horder hfirst hsecond hcut with
      ⟨-, rfl, rfl⟩ | ⟨-, hfront, rfl⟩ | ⟨-, -, rfl⟩
    · rw [heffect, heffect']
      exact .inr rfl
    · rw [hcomma front hfront, heffect']
      exact .inr rfl
    · rw [effects?_eq_none_of_head? (s := "and ".toList ++ second) rfl]
      exact .inl (Option.bind_fun_none _)

/-- The joint itself gives both effects, unless the first clause ends in "and" and is cut there. -/
theorem joined?_self (hjoint : joint ∈ joints) (hfirst : Jointless first) (hsecond : Jointless second)
    (heffect : effects? first = some [effect]) (heffect' : effects? second = some [effect'])
    (hcomma : ∀ front, first = front ++ [','] → effects? front = some [effect])
    (hand : ¬ (joint = " and " ∧ " and".toList <:+ first)) :
    joined? joint (first ++ joint.toList ++ second) = some [effect, effect'] := by
  cases hcut : cut? joint.toList (first ++ joint.toList ++ second) with
  | none => exact absurd ⟨first, second, rfl⟩ (cut?_eq_none_iff.mp hcut)
  | some parts =>
    obtain ⟨front, rest⟩ := parts
    rw [joined?_of_cut? hcut]
    rcases cut_cases hjoint hjoint (Nat.le_refl _) hfirst hsecond hcut with
      ⟨-, rfl, rfl⟩ | ⟨-, hfront, rfl⟩ | ⟨rfl, hfront, rfl⟩
    · rw [heffect, heffect']
      rfl
    · rw [hcomma front hfront, heffect']
      rfl
    · refine absurd ⟨rfl, front, ?_⟩ hand
      have hsame : (front ++ " and".toList) ++ [' '] = first ++ [' '] := by
        rw [hfront, List.append_assoc]
        rfl
      exact List.append_cancel_right hsame

/-- A first clause that ends in "and" is cut there, and what is behind the cut is no clause. -/
theorem joined?_eq_none {mark : String} (hmark : mark ∈ joints) (hfirst : Jointless first)
    (hsecond : Jointless second) (hand : " and".toList <:+ first) :
    joined? mark (first ++ " and ".toList ++ second) = none := by
  obtain ⟨start, hstart⟩ := hand
  have horder : joints.idxOf mark ≤ joints.idxOf " and " := by
    have hlast : ∀ mark ∈ joints, joints.idxOf mark ≤ joints.idxOf " and " := by decide
    exact hlast mark hmark
  cases hcut : cut? mark.toList (first ++ " and ".toList ++ second) with
  | none => rw [joined?, hcut]; rfl
  | some parts =>
    obtain ⟨front, rest⟩ := parts
    rw [joined?_of_cut? hcut]
    rcases cut_cases hmark (by decide) horder hfirst hsecond hcut with
      ⟨rfl, rfl, rfl⟩ | ⟨-, hfront, -⟩ | ⟨-, -, rfl⟩
    · -- an earlier place would have been cut
      have hearlier : front ++ " and ".toList ++ rest =
          start ++ " and ".toList ++ ("and ".toList ++ rest) := by
        rw [← hstart]
        simp
      have hle := length_le_of_cut? hcut hearlier
      rw [← hstart, List.length_append] at hle
      have : " and".toList.length = 4 := rfl
      omega
    · have hlast := congrArg List.getLast? (hstart.trans hfront)
      rw [List.getLast?_append, List.getLast?_concat] at hlast
      exact absurd (Option.some.inj hlast) (by decide)
    · rw [effects?_eq_none_of_head? (s := "and ".toList ++ second) rfl]
      exact Option.bind_fun_none _

/-- Two clauses with a joint between them, once the whole is no clause by itself. -/
theorem findSome?_joined? (hjoint : joint ∈ joints) (hfirst : Jointless first) (hsecond : Jointless second)
    (heffect : effects? first = some [effect]) (heffect' : effects? second = some [effect'])
    (hcomma : ∀ front, first = front ++ [','] → effects? front = some [effect]) :
    (joints.findSome? fun mark => joined? mark (first ++ joint.toList ++ second)) =
      if joint = " and " ∧ " and".toList <:+ first then none else some [effect, effect'] := by
  split
  · rename_i hand
    obtain ⟨rfl, hand⟩ := hand
    exact List.findSome?_eq_none_iff.mpr fun mark hmark => joined?_eq_none hmark hfirst hsecond hand
  · rename_i hand
    have hself := joined?_self hjoint hfirst hsecond heffect heffect' hcomma hand
    have hearlier (mark : String) (hmark : mark ∈ joints)
        (horder : joints.idxOf mark ≤ joints.idxOf joint) :=
      joined?_cases hmark hjoint horder hfirst hsecond heffect heffect' hcomma
    simp only [joints, List.mem_cons, List.not_mem_nil, or_false] at hjoint
    rw [joints, List.findSome?_cons]
    rcases hjoint with rfl | rfl | rfl
    · rw [hself]
    · rcases hearlier ", then " (by decide) (by decide) with hthen | hthen
      · rw [hthen, List.findSome?_cons, hself]
      · rw [hthen]
    · rcases hearlier ", then " (by decide) (by decide) with hthen | hthen
      · rw [hthen, List.findSome?_cons]
        rcases hearlier ", and " (by decide) (by decide) with hand' | hand'
        · rw [hand', List.findSome?_cons, hself]
        · rw [hand']
      · rw [hthen]

end

end CardRules.Clause
