import CardRules.Proofs.Effect.Cuts

/-!
# Compound clauses

A compound clause is cut in two only once the whole is no clause by itself. Then its effects are those of the
two clauses one after the other (`effects?_compound`). But a target phrase at the end of the first clause is
read on over the joint (`single?_append_joint`), and so is a first clause that may hold anything before its
last word. What is read on like this is said here kind by kind, and put together in `compound_clauses`.
-/

set_option autoImplicit false

namespace CardRules.Clause

open Text
open Target (isStop)

/-! ## Reading on over a joint -/

/-- A joint keeps apart from a target phrase in front of it. -/
theorem detached_joint {stops : List Char} (hstops : ∀ c ∈ stops, isStop c = true) {joint : String}
    (hjoint : joint ∈ joints) (more : List Char) :
    Target.Detached (stops ++ (joint.toList ++ more)) := by
  have hjoints : ∀ joint ∈ joints, joint.toList.find? (!Target.isMark ·) = some ' ' := by decide
  constructor
  case blank =>
    intro c hc
    rw [List.find?_append, List.find?_append, hjoints joint hjoint, Option.some_or] at hc
    cases hfind : stops.find? (!Target.isMark ·) with
    | none =>
      rw [hfind, Option.none_or] at hc
      rw [← Option.some.inj hc]
      rfl
    | some d =>
      rw [hfind, Option.some_or] at hc
      obtain rfl := Option.some.inj hc
      have hstop := hstops d (List.mem_of_find?_eq_some hfind)
      have hmark := List.find?_some hfind
      rw [isStop, Bool.or_eq_true] at hstop
      exact hstop.resolve_right (by simpa using hmark)
  case other =>
    intro c rest htail hc
    have hletters : ∀ c ∈ ['o', 'p', 'c'], isStop c = false ∧ c ≠ 'a' := forall_mem_of_all (by decide)
    obtain ⟨hstop, ha⟩ := hletters c hc
    rcases stops with _ | ⟨blank, _ | ⟨d, stops⟩⟩
    · -- the joint starts with the blank
      simp only [joints, List.mem_cons, List.not_mem_nil, or_false] at hjoint
      rcases hjoint with rfl | rfl | rfl
      · exact absurd (List.cons.inj htail).1 (by decide)
      · exact absurd (List.cons.inj htail).1 (by decide)
      · exact ha (List.cons.inj (List.cons.inj htail).2).1.symm
    · -- it starts behind the blank
      have hheads : ∀ joint ∈ joints, joint.toList.head?.any isStop = true := by decide
      have hhead := hheads joint hjoint
      have htail : joint.toList ++ more = c :: rest := (List.cons.inj htail).2
      cases hletters : joint.toList with
      | nil => simp [hletters] at hhead
      | cons d letters =>
        rw [hletters, List.head?_cons, Option.any_some] at hhead
        rw [hletters] at htail
        rw [← (List.cons.inj htail).1, hhead] at hstop
        exact absurd hstop (by decide)
    · -- another stop is behind the blank
      obtain ⟨-, htail⟩ := List.cons.inj htail
      rw [← (List.cons.inj htail).1, hstops d (by simp)] at hstop
      exact absurd hstop (by decide)

/-- So it does behind blanks, in lower case and without the blanks at its end. -/
theorem detached_dropBack {stops more : List Char} (hstops : ∀ c ∈ stops, isStop c = true)
    {joint : String} (hjoint : joint ∈ joints) (hmore : dropBack isBlank more ≠ []) (blanks : List Char)
    (hblanks : ∀ c ∈ blanks, isBlank c = true) :
    Target.Detached (lower (dropBack isBlank (blanks ++ (stops ++ (joint.toList ++ more))))) := by
  have hlower : ∀ joint ∈ joints, lower joint.toList = joint.toList := by decide
  have hfront : ∀ c ∈ lower (blanks ++ stops), isStop c = true := by
    intro c hc
    obtain ⟨d, hd, rfl⟩ := List.mem_map.mp hc
    rw [Target.isStop_toLower]
    rcases List.mem_append.mp hd with hblank | hstop
    · rw [isStop, hblanks d hblank, Bool.true_or]
    · exact hstops d hstop
  have hsplit : lower (dropBack isBlank (blanks ++ (stops ++ (joint.toList ++ more)))) =
      lower (blanks ++ stops) ++ (joint.toList ++ lower (dropBack isBlank more)) := by
    rw [← List.append_assoc, ← List.append_assoc, dropBack_append hmore, List.append_assoc, lower_append,
      lower_append joint.toList, hlower joint hjoint]
  rw [hsplit]
  exact detached_joint hfront hjoint _

/-- A clause that ends in a target phrase is read on over a joint. -/
theorem single?_append_joint {text stops more : List Char} {effect : Effect} {joint : String}
    (h : single? text = some effect) (hkind : effect.kind ∈ .untap :: openKinds)
    (htargets : effect.targets ≠ []) (hany : ∀ target ∈ effect.targets, target.kind ≠ .any)
    (hstops : ∀ c ∈ stops, isStop c = true) (hjoint : joint ∈ joints)
    (hmore : dropBack isBlank more ≠ []) (hline : '\n' ∉ stops ++ (joint.toList ++ more)) :
    single? (text ++ (stops ++ (joint.toList ++ more))) = some effect := by
  cases reading_of_single? h with
  | lone hlone => exact absurd hlone.targets htargets
  | ended hended => exact absurd hkind hended.kind
  | openEnded opening split line made =>
    obtain ⟨target, htarget, hbuild⟩ := Option.bind_eq_some_iff.mp made
    have hwhole := Target.ofPhrase?_append htarget (hany target (opening.mem_targets hbuild))
      (detached_dropBack hstops hjoint hmore)
    rw [split, List.append_assoc, single?_of_opening opening ⟨by simp [line.1], ?_⟩]
    · rw [← List.append_assoc, hwhole]
      exact hbuild
    · intro c hc
      rcases List.mem_append.mp hc with hrest | htail
      · exact line.2 c hrest
      · exact isInLine_of_notMem hline c htail

theorem lone_of_single? {text : List Char} {effect : Effect} (h : single? text = some effect)
    (htargets : effect.targets = []) (hkind : effect.kind ≠ .createToken) : Lone text effect := by
  cases reading_of_single? h with
  | lone hlone => exact hlone
  | ended hended => exact absurd hended.made (by simp [htargets, hkind])
  | openEnded opening split line made =>
    obtain ⟨target, htarget, hbuild⟩ := Option.bind_eq_some_iff.mp made
    have hmem := opening.mem_targets hbuild
    rw [htargets] at hmem
    simp at hmem

/-- A clause without a target is not read on over a joint, unless it is about tokens. -/
theorem Lone.single?_append_joint {text stops more : List Char} {effect : Effect} {joint : String}
    (hlone : Lone text effect) (hjoint : joint ∈ joints) :
    single? (text ++ (stops ++ (joint.toList ++ more))) = none := by
  have hstart := hlone.starts.append (stops ++ (joint.toList ++ more))
  obtain ⟨hended, hopen, -⟩ := apart_heads
  refine single?_eq_none_of_not_reading fun whole hread => ?_
  cases hread with
  | lone hwhole => exact hwhole.unjoined.not_infix hjoint ⟨text ++ stops, more, by simp⟩
  | ended hwhole => exact hended.not_starts hstart hwhole.starts
  | openEnded opening split =>
    rw [split] at hstart
    exact hopen.not_starts hstart (opening.starts.append _)

/-- Nor is one with another fixed end, if the text then ends in an amount of cards or life. -/
theorem Ended.single?_append_joint {text stops more : List Char} {effect : Effect} {joint : String}
    (hended : Ended text effect) (hjoint : joint ∈ joints) (hmore : EndsIn isNoun more) :
    single? (text ++ (stops ++ (joint.toList ++ more))) = none := by
  have hstart := hended.starts.append (stops ++ (joint.toList ++ more))
  obtain ⟨hlone, -, hopen⟩ := apart_heads
  refine single?_eq_none_of_not_reading fun whole hread => ?_
  cases hread with
  | lone hwhole => exact hlone.symm.not_starts hstart hwhole.starts
  | ended hwhole =>
    rcases hwhole.last with ⟨hunjoined, -⟩ | ⟨-, hend⟩
    · exact hunjoined.not_infix hjoint ⟨text ++ stops, more, by simp⟩
    · have hlast := hmore.append (text ++ (stops ++ joint.toList))
      obtain ⟨word, hnoun, hfixed⟩ := hlast.and (by simpa using hend)
      rw [isFixedEnd_of_isNoun hnoun] at hfixed
      exact Bool.false_ne_true hfixed
  | openEnded opening split =>
    rw [split] at hstart
    exact hopen.not_starts hstart (opening.starts.append _)

/-- Nor is damage to any target, whatever stands behind it. -/
theorem single?_anyTarget_append {n text more : List Char}
    (htext : Framed dealForms n [" damage to any target"] text) (hmore : dropBack isBlank more ≠ []) :
    single? (text ++ more) = none := by
  obtain ⟨head, tail, rfl, hhead, htail⟩ := htext.parts
  have hsplit : Spells (glue [" damage to "] ["any target"]) tail := htail
  obtain ⟨damage, phrase, rfl, hdamage, _, hphrase, hany⟩ := hsplit.split
  rw [List.mem_singleton.mp hphrase] at hany
  have hopening : Opening (head ++ (n ++ damage)) [] _ :=
    .damage ⟨htext.ne_nil, htext.isWord, head, damage, rfl, hhead, hdamage⟩
  have hwhole : head ++ (n ++ (damage ++ phrase)) ++ more = head ++ (n ++ damage) ++ (phrase ++ more) := by
    simp
  rw [hwhole]
  by_cases hline : '\n' ∈ phrase ++ more
  · -- no phrase runs over the end of a line
    have hstart := hopening.starts.append (phrase ++ more)
    obtain ⟨-, hlone, hended⟩ := apart_heads
    refine single?_eq_none_of_not_reading fun effect hread => ?_
    cases hread with
    | lone hread => exact hlone.symm.not_starts hstart hread.starts
    | ended hread => exact hended.symm.not_starts hstart hread.starts
    | openEnded opening split line =>
      have hmem := List.mem_append_right (head ++ (n ++ damage)) hline
      rw [split] at hmem
      rcases List.mem_append.mp hmem with hfront | hrest
      · exact opening.notMem_feed hfront
      · exact absurd (line.2 _ hrest) (by decide)
  · have hne : phrase ≠ [] := by
      rintro rfl
      exact absurd hany (by decide)
    have hnone := Target.ofPhrase?_any_append (lower_of_fold hany (by decide) (by decide)) hmore
    rw [single?_of_opening hopening ⟨by simp [hne], isInLine_of_notMem hline⟩, List.nil_append, hnone]
    rfl

/-- What does not end in "and" does not with stops behind it. -/
theorem not_and_suffix_append {text stops : List Char} (h : ¬ " and".toList <:+ text)
    (hstops : ∀ c ∈ stops, isStop c = true) : ¬ " and".toList <:+ text ++ stops := by
  rcases List.eq_nil_or_concat stops with rfl | ⟨more, c, rfl⟩
  · rwa [List.append_nil]
  · rintro ⟨front, hfront⟩
    have hlast := congrArg List.getLast? hfront
    rw [List.concat_eq_append, ← List.append_assoc, List.getLast?_append, List.getLast?_concat] at hlast
    have hc : 'd' = c := Option.some.inj hlast
    have hstop := hstops c (by simp)
    rw [← hc] at hstop
    exact absurd hstop (by decide)

/-! ## Compound clauses -/

section

variable {a b : List Char} {effect effect' : Effect} {joint : String}

/-- The parts of a compound clause: its first clause, what was stripped of it, the joint, and its second
clause. -/
theorem bare_compound (ha : single? (bare a) = some effect) (hb : single? (bare b) = some effect')
    (joint : String) : ∃ lead junk, a = lead ++ (bare a ++ junk) ∧
      (∀ c ∈ junk, isStop c = true ∧ c ≠ ',') ∧ bare (bare a ++ junk) = bare a ∧
      bare (a ++ joint.toList ++ b) = bare a ++ (junk ++ (joint.toList ++ stripped b)) := by
  obtain ⟨lead, junk, hsplit, hstops, hbare, hback⟩ := bare_append (reading_of_single? ha).starts
  have hb' : stripped b ≠ [] := by
    intro hnil
    have hne := stripped_ne_nil_of_bare (reading_of_single? hb).starts
    rw [hnil] at hne
    exact hne rfl
  have hjoint : stripped (joint.toList ++ b) = joint.toList ++ stripped b := stripped_append hb' _
  refine ⟨lead, junk, hsplit, hstops, hbare, ?_⟩
  rw [List.append_assoc, hback _ (by simp [hjoint, hb']), hjoint, List.append_assoc]

/-- What stands at the end of a clause stands at the end of what is left of it. -/
theorem and_suffix_iff {lead junk : List Char} (hsplit : a = lead ++ (bare a ++ junk))
    (h : Starts allHeads (bare a)) : " and".toList <:+ a ↔ " and".toList <:+ bare a ++ junk := by
  have hsuffix : bare a ++ junk <:+ a := ⟨lead, hsplit.symm⟩
  constructor
  · intro hand
    rcases List.suffix_or_suffix_of_suffix hand hsuffix with hwithin | hover
    · exact hwithin
    · have hlength : " and".toList.length ≤ (bare a ++ junk).length := by
        rw [List.length_append]
        exact Nat.le_add_right_of_le (length_le_of_starts h)
      rw [hover.eq_of_length_le hlength]
  · exact fun hand => hand.trans hsuffix

theorem effects?_compound (ha : single? (bare a) = some effect) (hb : single? (bare b) = some effect')
    (hajoint : Jointless a) (hbjoint : Jointless b) (hjoint : joint ∈ joints) :
    effects? (a ++ joint.toList ++ b) = match single? (bare (a ++ joint.toList ++ b)) with
      | some whole => some [whole]
      | none => if joint = " and " ∧ " and".toList <:+ a then none else some [effect, effect'] := by
  obtain ⟨lead, junk, hsplit, hstops, hbare, hwhole⟩ := bare_compound ha hb joint
  have hfirst : Jointless (bare a ++ junk) := hajoint.of_infix ⟨lead, [], by simp [← hsplit]⟩
  have hsecond : Jointless (stripped b) := by
    obtain ⟨after, hafter, -⟩ := stripped_split b
    exact hbjoint.of_infix ⟨[], after, by simpa using hafter.symm⟩
  have heffect : effects? (bare a ++ junk) = some [effect] := by
    refine effects?_of_single? ?_
    rw [hbare, ha]
  have hcomma : ∀ front, bare a ++ junk = front ++ [','] → effects? front = some [effect] := by
    intro front hfront
    rcases List.eq_nil_or_concat junk with rfl | ⟨more, c, hc⟩
    · rw [List.append_nil] at hfront
      rw [hfront] at ha
      exact effects?_of_read (single?_of_append_stops (forall_mem_of_all (by decide)) ha)
    · rw [hc, List.concat_eq_append, ← List.append_assoc] at hfront
      have hlast := List.singleton_inj.mp (List.append_inj' hfront rfl).2
      exact absurd hlast (hstops c (by simp [hc])).2
  have hcuts := findSome?_joined? hjoint hfirst hsecond heffect (effects?_stripped hb) hcomma
  simp only [← and_suffix_iff hsplit (reading_of_single? ha).starts] at hcuts
  have hparts : bare (a ++ joint.toList ++ b) = bare a ++ junk ++ joint.toList ++ stripped b := by
    rw [hwhole]
    simp
  cases hlone : single? (bare (a ++ joint.toList ++ b)) with
  | some lone => exact effects?_of_single? hlone
  | none =>
    rw [effects?_eq, hlone, hparts]
    exact hcuts

theorem exists_single? {s : List Char} {effects : List Effect} (h : effects? s = some effects)
    (hs : Jointless s) : ∃ effect, single? (bare s) = some effect ∧ effects = [effect] := by
  rw [effects?_of_jointless hs] at h
  obtain ⟨effect, heffect, rfl⟩ := Option.map_eq_some_iff.mp h
  exact ⟨effect, heffect, rfl⟩

/-- What keeps a clause with these effects apart from another behind it: it has no target and makes no
token, or deals damage to any target, or at least does not end in a target phrase, and the other is about an
amount of cards or life. -/
def StaysApart (text : List Char) (effect effect' : Effect) : Prop :=
  effect.targets = [] ∧ effect.kind ≠ .createToken ∨
    (∃ n, Framed dealForms n [" damage to any target"] text) ∨
    effect.kind ∉ .untap :: openKinds ∧ effect'.kind ∈ amountKinds

theorem StaysApart.single?_compound (h : StaysApart (bare a) effect effect')
    (ha : single? (bare a) = some effect) (hb : single? (bare b) = some effect') (hjoint : joint ∈ joints) :
    single? (bare (a ++ joint.toList ++ b)) = none ∧ ¬ " and".toList <:+ a := by
  obtain ⟨lead, junk, hsplit, hstops, -, hwhole⟩ := bare_compound ha hb joint
  have hstarts := (reading_of_single? hb).starts
  have hand (hcore : ¬ " and".toList <:+ bare a) : ¬ " and".toList <:+ a := by
    rw [and_suffix_iff hsplit (reading_of_single? ha).starts]
    exact not_and_suffix_append hcore fun c hc => (hstops c hc).1
  rw [hwhole]
  have hlone (hread : Lone (bare a) effect) :
      single? (bare a ++ (junk ++ (joint.toList ++ stripped b))) = none ∧ ¬ " and".toList <:+ a :=
    ⟨hread.single?_append_joint hjoint, hand hread.unjoined.not_suffix⟩
  rcases h with ⟨htargets, hkind⟩ | ⟨n, hany⟩ | ⟨hkind, hamount⟩
  · exact hlone (lone_of_single? ha htargets hkind)
  · have hmore : dropBack isBlank (junk ++ (joint.toList ++ stripped b)) ≠ [] := by
      have hb := stripped_ne_nil_of_bare hstarts
      rw [← List.append_assoc, dropBack_append hb]
      simp [hb]
    have hend : EndsIn (· == "target".toList) (bare a) := hany.endsIn (by decide)
    exact ⟨single?_anyTarget_append hany hmore, hand (hend.not_and_suffix (by decide))⟩
  · cases reading_of_single? ha with
    | lone hread => exact hlone hread
    | ended hread =>
      obtain ⟨front, hfront⟩ := suffix_stripped hstarts
      have hnoun : EndsIn isNoun (stripped b) := by
        rw [← hfront]
        exact ((reading_of_single? hb).endsIn hamount).append front
      exact ⟨hread.single?_append_joint hjoint hnoun, hand hread.not_and_suffix⟩
    | openEnded opening split line made =>
      obtain ⟨target, -, hbuild⟩ := Option.bind_eq_some_iff.mp made
      exact absurd (opening.kind_mem hbuild) hkind

/-- The effect of a clause that ends in a target phrase other than "any target". -/
def TakesTheRest (effect : Effect) : Prop :=
  effect.kind ∈ .untap :: openKinds ∧ effect.targets ≠ [] ∧ ∀ target ∈ effect.targets, target.kind ≠ .any

end

/-- Two clauses joined by one of the three joints have the effects of both exactly if the whole is not
read as one clause. What is read as one has one effect: a target phrase at the end of the first clause is
read on to the end, and the second clause is dropped. -/
theorem compound_clauses {a b : List Char} {first second : List Effect} {joint : String}
    (ha : effects? a = some first) (hb : effects? b = some second) (hajoint : Jointless a)
    (hbjoint : Jointless b) (hjoint : joint ∈ joints) :
    (effects? (a ++ joint.toList ++ b) = some (first ++ second) ↔
      single? (bare (a ++ joint.toList ++ b)) = none ∧ ¬ (joint = " and " ∧ " and".toList <:+ a)) ∧
    (∀ effect, single? (bare (a ++ joint.toList ++ b)) = some effect →
      effects? (a ++ joint.toList ++ b) = some [effect]) ∧
    (∀ effect ∈ first, ∀ effect' ∈ second, StaysApart (bare a) effect effect' →
      effects? (a ++ joint.toList ++ b) = some (first ++ second)) ∧
    (∀ effect ∈ first, TakesTheRest effect → '\n' ∉ bare (a ++ joint.toList ++ b) →
      effects? (a ++ joint.toList ++ b) = some first) := by
  obtain ⟨effect, hfirst, rfl⟩ := exists_single? ha hajoint
  obtain ⟨effect', hsecond, rfl⟩ := exists_single? hb hbjoint
  have hcompound := effects?_compound hfirst hsecond hajoint hbjoint hjoint
  have hboth : effects? (a ++ joint.toList ++ b) = some ([effect] ++ [effect']) ↔
      single? (bare (a ++ joint.toList ++ b)) = none ∧ ¬ (joint = " and " ∧ " and".toList <:+ a) := by
    rw [hcompound, List.singleton_append]
    cases single? (bare (a ++ joint.toList ++ b)) with
    | some whole => simp
    | none => simp
  refine ⟨hboth, ?_, ?_, ?_⟩
  · intro whole hsome
    rw [hcompound, hsome]
  · intro effect heffect effect' heffect' hapart
    obtain rfl := List.mem_singleton.mp heffect
    obtain rfl := List.mem_singleton.mp heffect'
    obtain ⟨hnone, hand⟩ := hapart.single?_compound hfirst hsecond hjoint
    exact hboth.mpr ⟨hnone, fun hends => hand hends.2⟩
  · rintro effect heffect ⟨hkind, htargets, hany⟩ hline
    obtain rfl := List.mem_singleton.mp heffect
    obtain ⟨lead, junk, -, hstops, -, hwhole⟩ := bare_compound hfirst hsecond joint
    refine effects?_of_single? ?_
    rw [hwhole] at hline ⊢
    exact single?_append_joint hfirst hkind htargets hany (fun c hc => (hstops c hc).1) hjoint
      (stripped_ne_nil_of_bare (reading_of_single? hsecond).starts)
      fun hmem => hline (List.mem_append_right _ hmem)

theorem compound_clauses_draw :
    effects? ("you gain 2 life".toList ++ " and ".toList ++ "draw a card".toList) =
        some [.make .gainLife 2, .make .drawCards 1] ∧
      effects? ("destroy target creature".toList ++ ", then ".toList ++ "draw a card".toList) =
        some [(Effect.make .destroy 1).withTarget { kind := .creature }] := by
  have hgain : effects? "you gain 2 life".toList = some [.make .gainLife 2] := by decide +kernel
  have hdestroy : effects? "destroy target creature".toList =
      some [(Effect.make .destroy 1).withTarget { kind := .creature }] := by decide +kernel
  have hdraw : effects? "draw a card".toList = some [.make .drawCards 1] := by decide +kernel
  have hand : " and " ∈ joints := by decide
  have hthen : ", then " ∈ joints := by decide
  constructor
  · obtain ⟨-, -, hboth, -⟩ := compound_clauses hgain hdraw (by decide) (by decide) hand
    exact hboth _ (List.mem_singleton_self _) _ (List.mem_singleton_self _) (.inl ⟨rfl, by decide⟩)
  · obtain ⟨-, -, -, hfirst⟩ := compound_clauses hdestroy hdraw (by decide) (by decide) hthen
    exact hfirst _ (List.mem_singleton_self _) ⟨by decide, by decide, by decide⟩ (by decide)

/-- The target phrase runs to the end of the text, and the card is never drawn. -/
theorem damage_drops_draw :
    effects? "deal 2 damage to target creature".toList =
        some [(Effect.make .dealDamage 2).withTarget { kind := .creature }] ∧
      effects? "draw a card".toList = some [.make .drawCards 1] ∧
      Jointless "deal 2 damage to target creature".toList ∧ Jointless "draw a card".toList ∧
      effects? ("deal 2 damage to target creature".toList ++ " and ".toList ++ "draw a card".toList) ≠
        some ([(Effect.make .dealDamage 2).withTarget { kind := .creature }] ++ [.make .drawCards 1]) := by
  refine ⟨?_, ?_, ?_, ?_, ?_⟩ <;> decide +kernel

end CardRules.Clause
