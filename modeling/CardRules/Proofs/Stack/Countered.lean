import CardRules.Proofs.Stack.Casting
import CardRules.Proofs.Stack.Discipline
import CardRules.Proofs.Stack.Venue
import CardRules.Proofs.Engine.Attempt
import CardRules.Proofs.Target.Shares

/-!
# Countered and fizzled items

A spell that is marked as countered keeps its place, and the mark stays on it until its turn comes.
Then it leaves without a look at its targets. An item whose targets are all illegal leaves the same
way. In both cases nothing is different afterwards but that the item is gone and a round starts.

Until it leaves a countered spell cannot be found by its number any more, so nothing can be aimed at
it (`Stack.OutOfReach`). This needs the numbers on the stack to be distinct.
-/

set_option autoImplicit false

namespace CardRules

open Act

/-! ## Out of reach -/

namespace StackItem

variable {items : List StackItem} {id : ItemId}

theorem findSpell?_eq_none (h : ∀ item ∈ items, item.id = id → item.countered = true) :
    findSpell? items id = none := by
  have hfind : items.find? (fun item => item.id == id && !item.countered) = none := by
    refine List.find?_eq_none.mpr fun item hitem => ?_
    rw [Bool.and_eq_true, beq_iff_eq, Bool.not_eq_true']
    rintro ⟨hid, hopen⟩
    exact absurd (h item hitem hid) (Bool.eq_false_iff.mp hopen)
  unfold findSpell?
  rw [hfind]
  rfl

theorem notMem_openSpells (h : ∀ item ∈ items, item.id = id → item.countered = true) :
    id ∉ openSpells items := by
  intro hmem
  obtain ⟨item, hitem, hid⟩ := List.mem_map.mp hmem
  obtain ⟨hitem, hopen⟩ := List.mem_filter.mp hitem
  rw [isOpenSpell, h item hitem hid, Bool.not_true, Bool.and_false] at hopen
  exact Bool.false_ne_true hopen

end StackItem

namespace View

variable {view : View} {id : ItemId}

section Spell

variable (h : ∀ item ∈ view.items, item.id = id → item.countered = true)

include h

theorem candidate?_spell_eq_none : view.candidate? (.spell id) = none := by
  unfold candidate?
  dsimp only
  rw [StackItem.findSpell?_eq_none h]
  rfl

theorem spell_notMem_choices : .spell id ∉ view.choices := by
  have hopen := StackItem.notMem_openSpells h
  simp [choices, hopen]

end Spell

/-- A choice that names nothing is not accepted, whatever it is chosen for. -/
theorem notMem_of_validateTargets {rules : Untargetability} {targets : List Target}
    {choices : List Choice} {controller : PlayerId} {colors : List Color} {choice : Choice}
    (hvalid : view.validateTargets rules targets choices controller colors = .ok ())
    (hnone : view.candidate? choice = none) : choice ∉ choices := by
  obtain ⟨-, hfit, player, -, hlegal⟩ := (validateTargets_eq_ok_iff _ _ _).mp hvalid
  intro hmem
  -- there are slots for all choices, so this one has its slot
  rw [← List.map_fst_zip hfit] at hmem
  obtain ⟨pair, hpair, rfl⟩ := List.mem_map.mp hmem
  obtain ⟨candidate, hcandidate, -⟩ := hlegal pair hpair
  rw [hnone] at hcandidate
  exact Option.some_ne_none candidate hcandidate.symm

theorem allIllegal_of_candidate? {choices : List Choice} (hchosen : choices ≠ [])
    (hnone : ∀ choice ∈ choices, view.candidate? choice = none) (rules : Untargetability)
    (targets : List Target) (controller : PlayerId) (colors : List Color) :
    view.allIllegal rules targets choices controller colors = true := by
  unfold allIllegal
  rw [List.isEmpty_eq_false_iff.mpr hchosen, Bool.not_false, Bool.true_and]
  split
  · rfl
  · refine List.all_eq_true.mpr fun pair hpair => ?_
    dsimp only
    rw [hnone pair.1 (List.of_mem_zip hpair).1]
    rfl

end View

/-! What is cast or used has passed the validation of its targets. -/

namespace Scene

variable {scene : Scene} {player : PlayerId} {targets : List Choice} {choice : Choice}

theorem notMem_of_cast {spell : Spell} {x : Option UInt32} {lenient : Bool}
    (h : (cast spell player targets x lenient).Succeeds scene)
    (hnone : scene.arena.candidate? choice = none) : choice ∉ targets := by
  obtain ⟨id, after, hcast⟩ := h
  obtain ⟨payer, mana, hcastable⟩ := castable_of_outcome hcast
  exact View.notMem_of_validateTargets hcastable.valid hnone

theorem notMem_of_activate {id : AbilityId} {decision : Decision}
    (h : (activate id player targets decision).Succeeds scene)
    (hnone : ∀ arena, scene.venue? id player = some arena → arena.candidate? choice = none) :
    choice ∉ targets := by
  obtain ⟨arena, hvenue, hactivate⟩ := succeeds_activate.mp h
  obtain ⟨used, after, hused⟩ := hactivate
  obtain ⟨ability, cost, paid, hcleared, -⟩ := Arena.cleared_of_activate hused
  exact View.notMem_of_validateTargets hcleared.valid (hnone arena hvenue)

end Scene

/-! ## Resolutions without effect -/

namespace Scene

variable {scene : Scene} {top : StackItem} (htop : scene.stack.top? = some top)

include htop

theorem outcome_resolveTop_countered (h : top.countered = true) :
    resolveTop.outcome scene =
      (.ok (.countered top.id), { scene with stack := scene.stack.pop.reset }) := by
  rw [outcome_resolveTop_some htop, outcome_resolveItem, if_pos h]

theorem outcome_resolveTop_fizzled (hopen : top.countered = false)
    (h : fizzles { scene with stack := scene.stack.pop } top = true) :
    resolveTop.outcome scene =
      (.ok (.fizzled top.id), { scene with stack := scene.stack.pop.reset }) := by
  rw [outcome_resolveTop_some htop, outcome_resolveItem, if_neg (Bool.eq_false_iff.mp hopen),
    if_pos h]

/-- An item that has not taken effect was countered or fizzled. -/
theorem fizzles_of_idle {resolution : Resolution} (hopen : top.countered = false)
    (h : (resolveTop.outcome scene).1 = .ok resolution) (hidle : ∀ id, resolution ≠ .resolved id) :
    fizzles { scene with stack := scene.stack.pop } top = true := by
  by_contra hfizzles
  -- the effects were applied, and the answer would tell
  rw [outcome_resolveTop_some htop, outcome_resolveItem, if_neg (Bool.eq_false_iff.mp hopen),
    if_neg hfizzles] at h
  rcases hresult : (Arena.applyEffects top.object.effects top.context).outcome
    (arena { scene with stack := scene.stack.pop }) with ⟨fault | _, after⟩
  · rw [hresult] at h
    simp [Except.map] at h
  · rw [hresult] at h
    exact absurd (Except.ok.inj h).symm (hidle top.id)

/-- Unless it has taken effect, the item that left has changed nothing. -/
theorem outcome_resolveTop_idle {resolution : Resolution}
    (h : (resolveTop.outcome scene).1 = .ok resolution) (hidle : ∀ id, resolution ≠ .resolved id) :
    (resolution = .countered top.id ∨ resolution = .fizzled top.id) ∧
      (resolveTop.outcome scene).2 = { scene with stack := scene.stack.pop.reset } := by
  cases hcountered : top.countered with
  | true =>
    rw [outcome_resolveTop_countered htop hcountered] at h ⊢
    exact ⟨.inl (Except.ok.inj h).symm, rfl⟩
  | false =>
    have hfizzles := fizzles_of_idle htop hcountered h hidle
    rw [outcome_resolveTop_fizzled htop hcountered hfizzles] at h ⊢
    exact ⟨.inr (Except.ok.inj h).symm, rfl⟩

end Scene

/-! ## Calls that resolve an item -/

/-- What became of an item, if the answer is about one that has left. -/
def Answer.resolution? : Answer → Option Resolution
  | .resolution left => some left
  | .passed (.resolved left) => some left
  | _ => none

namespace Call

variable {call : Call} {stack : Stack}

/-- What became of the top item, if the call has resolved it. -/
def resolution? (call : Call) (stack : Stack) : Option Resolution :=
  (call.answer stack).toOption.bind Answer.resolution?

theorem told_of_perform {α : Type} {act : Scene.Move α} {wrap : α → Answer}
    (h : call.operation.perform = wrap <$> act) :
    (call.resolution? stack =
      (act.outcome (call.scene stack)).1.toOption.bind fun a => (wrap a).resolution?) ∧
      (call.run stack).state = (act.outcome (call.scene stack)).2 := by
  have hanswer := answer_eq call stack
  rw [h, outcome_map] at hanswer
  constructor
  · unfold resolution?
    rw [hanswer]
    cases (act.outcome (call.scene stack)).1 with
    | error fault => rfl
    | ok a => rfl
  · show (call.operation.perform.outcome (call.scene stack)).2 = _
    rw [h, outcome_map]

theorem resolution?_of_other {α : Type} {act : Scene.Move α} {wrap : α → Answer}
    (h : call.operation.perform = wrap <$> act) (hwrap : ∀ a, (wrap a).resolution? = none) :
    call.resolution? stack = none := by
  rw [(told_of_perform h).1, Option.bind_eq_none_iff]
  exact fun a _ => hwrap a

/-- A call that resolves the top item does just that and answers what became of it; no other answer
tells of that. -/
theorem resolves_cases (call : Call) (stack : Stack) :
    (stack.resolves call.operation = true ∧
        call.resolution? stack = (Scene.resolveTop.outcome (call.scene stack)).1.toOption ∧
        (call.run stack).state = (Scene.resolveTop.outcome (call.scene stack)).2) ∨
      stack.resolves call.operation = false ∧ call.resolution? stack = none := by
  cases hop : call.operation with
  | resolveTop =>
    have hperform : call.operation.perform = Answer.resolution <$> Scene.resolveTop := by
      rw [hop]
      rfl
    obtain ⟨htold, hstate⟩ := told_of_perform hperform
    cases hempty : stack.items.isEmpty with
    | true =>
      have htop : (call.scene stack).stack.top? = none :=
        List.getLast?_eq_none_iff.mpr (List.isEmpty_iff.mp hempty)
      rw [Scene.outcome_resolveTop_none htop] at htold
      exact .inr ⟨by rw [Stack.resolves, hempty]; rfl, htold⟩
    | false =>
      refine .inl ⟨by rw [Stack.resolves, hempty]; rfl, ?_, hstate⟩
      rw [htold]
      cases (Scene.resolveTop.outcome (call.scene stack)).1 with
      | error fault => rfl
      | ok left => rfl
  | pass player =>
    have hperform : call.operation.perform = Answer.passed <$> Scene.pass player := by
      rw [hop]
      rfl
    obtain ⟨htold, hstate⟩ := told_of_perform hperform
    have hcases := Scene.pass_cases (call.scene stack) player
    have hscene : (call.scene stack).stack = stack := rfl
    rw [hscene] at hcases
    rcases hcases with ⟨fault, hcheck, hout⟩ |
      ⟨rfl, hseated, ⟨hwaiting, hout⟩ | ⟨hall, ⟨hempty, hout⟩ | ⟨hitems, hout⟩⟩⟩
    · rw [hout] at htold
      exact .inr ⟨by rw [Stack.resolves, hcheck]; rfl, htold⟩
    · rw [hout] at htold
      exact .inr ⟨by rw [Stack.resolves_pass hseated, hwaiting]; rfl, htold⟩
    · rw [hout] at htold
      exact .inr ⟨by rw [Stack.resolves_pass hseated, hall, hempty]; rfl, htold⟩
    · -- the last one of the round has passed
      rw [hout] at htold hstate
      refine .inl ⟨by rw [Stack.resolves_pass hseated, hall, hitems]; rfl, ?_, hstate⟩
      rw [htold]
      cases (Scene.resolveTop.outcome (call.scene stack)).1 with
      | error fault => rfl
      | ok left => rfl
  | activate id player targets decision =>
    exact .inr ⟨rfl, resolution?_of_other (by rw [hop]; rfl) fun id? => by cases id? <;> rfl⟩
  | push _ _ _ _ | pushTriggered _ _ _ | counter _ _ | cast _ _ _ _ _ | setActive _ =>
    exact .inr ⟨rfl, resolution?_of_other (by rw [hop]; rfl) fun _ => rfl⟩

theorem resolution?_of_resolves (h : stack.resolves call.operation = true) :
    call.resolution? stack = (Scene.resolveTop.outcome (call.scene stack)).1.toOption := by
  rcases resolves_cases call stack with ⟨-, htold, -⟩ | ⟨hother, -⟩
  · exact htold
  · exact absurd (h.symm.trans hother) nofun

theorem resolution?_countered {item : StackItem} (htop : stack.top? = some item)
    (h : item.countered = true) (hresolves : stack.resolves call.operation = true) :
    call.resolution? stack = some (.countered item.id) := by
  have htop : (call.scene stack).stack.top? = some item := htop
  rw [resolution?_of_resolves hresolves, Scene.outcome_resolveTop_countered htop h]
  rfl

/-- Whatever left without effect was on top, and nothing else has changed. -/
theorem state_of_idle {left : Resolution} (h : call.resolution? stack = some left)
    (hidle : ∀ id, left ≠ .resolved id) :
    ∃ item, stack.top? = some item ∧ (left = .countered item.id ∨ left = .fizzled item.id) ∧
      (call.run stack).state = call.scene stack.pop.reset := by
  rcases resolves_cases call stack with ⟨-, htold, hstate⟩ | ⟨-, hnone⟩
  · rw [h] at htold
    rw [hstate]
    cases htop : stack.top? with
    | none =>
      have htop : (call.scene stack).stack.top? = none := htop
      rw [Scene.outcome_resolveTop_none htop] at htold
      simp [Except.toOption] at htold
    | some item =>
      have htop : (call.scene stack).stack.top? = some item := htop
      have hleft : (Scene.resolveTop.outcome (call.scene stack)).1 = .ok left := by
        rcases hresult : (Scene.resolveTop.outcome (call.scene stack)).1 with fault | other
        · rw [hresult] at htold
          simp [Except.toOption] at htold
        · rw [hresult] at htold
          rw [Option.some.inj htold]
      obtain ⟨hwhich, hscene⟩ := Scene.outcome_resolveTop_idle htop hleft hidle
      exact ⟨item, rfl, hwhich, hscene⟩
  · rw [hnone] at h
    simp at h

end Call

namespace Operation

/-- The targets that are chosen as a spell is cast or an ability is used. -/
def chosen : Operation → List Choice
  | cast _ _ targets _ _ => targets
  | activate _ _ targets _ => targets
  | _ => []

end Operation

namespace Stack

variable {stack : Stack} {item : StackItem}

/-- Nothing finds the spell of a number as a target: it is no candidate and no choice, whatever is
cast or used with it among the targets is refused, and an item aimed at it alone fizzles. -/
structure OutOfReach (stack : Stack) (id : ItemId) : Prop where
  candidate (call : Call) : (call.scene stack).arena.candidate? (.spell id) = none
  choice (call : Call) : .spell id ∉ (call.scene stack).arena.choices
  refused (call : Call) (aims : .spell id ∈ call.operation.chosen) :
    ∃ fault, call.answer stack = .error fault
  fizzles (call : Call) {item : StackItem} (top : stack.top? = some item)
    (live : item.countered = false) (chosen : item.targets ≠ [])
    (aims : ∀ choice ∈ item.targets, choice = .spell id)
    (resolves : stack.resolves call.operation = true) :
    call.resolution? stack = some (.fizzled item.id)

theorem outOfReach {id : ItemId} (h : ∀ item ∈ stack.items, item.id = id → item.countered = true) :
    stack.OutOfReach id where
  candidate _ := View.candidate?_spell_eq_none h
  choice _ := View.spell_notMem_choices h
  refused call aims := by
    rcases hanswer : call.answer stack with fault | answer
    · exact ⟨fault, rfl⟩
    · have hsucceeds : call.operation.perform.Succeeds (call.scene stack) :=
        ⟨answer, _, Prod.ext hanswer rfl⟩
      cases hop : call.operation with
      | cast spell player targets x lenient =>
        rw [hop] at aims hsucceeds
        have hnone : (call.scene stack).arena.candidate? (.spell id) = none :=
          View.candidate?_spell_eq_none h
        exact absurd aims (Scene.notMem_of_cast (succeeds_map.mp hsucceeds) hnone)
      | activate ability player targets decision =>
        rw [hop] at aims hsucceeds
        refine absurd aims (Scene.notMem_of_activate (succeeds_map.mp hsucceeds) ?_)
        intro arena hvenue
        rcases Scene.arena_of_venue hvenue with rfl | rfl
        · exact View.candidate?_spell_eq_none h
        · -- out of view of the stack there are no spells at all
          exact View.candidate?_spell_eq_none fun _ hother => absurd hother List.not_mem_nil
      | _ =>
        rw [hop] at aims
        exact absurd aims List.not_mem_nil
  fizzles call item top live chosen aims resolves := by
    have hscene : (call.scene stack).stack.top? = some item := top
    have hbelow : ∀ other ∈ stack.pop.items, other.id = id → other.countered = true :=
      fun other hother => h other ((List.dropLast_sublist stack.items).subset hother)
    have hnone : ∀ choice ∈ item.targets,
        (Scene.arena { call.scene stack with stack := stack.pop }).candidate? choice = none := by
      intro choice hchoice
      rw [aims choice hchoice]
      exact View.candidate?_spell_eq_none hbelow
    have hfizzles : Scene.fizzles { call.scene stack with stack := stack.pop } item = true :=
      View.allIllegal_of_candidate? chosen hnone _ _ _ _
    rw [Call.resolution?_of_resolves resolves,
      Scene.outcome_resolveTop_fizzled hscene live hfizzles]
    rfl

/-- A countered item stays as it is unless it is on top and the step is a resolution. -/
theorem Step.countered_stays {after : Stack} {operation : Operation} {deed : Deed}
    (hstep : Step stack operation deed after) (hitem : item ∈ stack.items)
    (h : item.countered = true) :
    item ∈ after.items ∨ stack.top? = some item ∧ stack.resolves operation = true := by
  cases hstep with
  | nothing kept stays => exact .inl (kept.countered item hitem h)
  | pushed kept number fresh stays =>
    exact .inl (List.mem_append_left _ (kept.countered item hitem h))
  | handedOn seated waiting stays => exact .inl hitem
  | roundOver empty stays => exact .inl hitem
  | madeActive seated stays => exact .inl hitem
  | resolved shape kept leaves =>
    rw [shape, List.mem_append, List.mem_singleton] at hitem
    rcases hitem with hrest | rfl
    · exact .inl (kept.countered item hrest h)
    · rw [top?, shape]
      exact .inr ⟨List.getLast?_concat, leaves⟩

theorem countered_until (hitem : item ∈ stack.items) (h : item.countered = true)
    (calls : List Call) :
    item ∈ (stack.play calls).items ∨
      ∃ earlier call rest, calls = earlier ++ call :: rest ∧
        (stack.play earlier).top? = some item ∧
        call.resolution? (stack.play earlier) = some (.countered item.id) := by
  -- on the last call: before it the item was still there, or has left earlier
  induction calls using List.reverseRecOn with
  | nil => exact .inl hitem
  | append_singleton calls call ih =>
    rw [play_append_singleton]
    rcases ih with hstill | ⟨earlier, first, rest, rfl, hleft⟩
    · rcases (call.step (stack.play calls)).countered_stays hstill h with hstays | ⟨htop, hresolves⟩
      · exact .inl hstays
      · exact .inr ⟨calls, call, [], rfl, htop, Call.resolution?_countered htop h hresolves⟩
    · exact .inr ⟨earlier, first, rest ++ [call], by simp, hleft⟩

/-- A countered or fizzled item does nothing. Whatever calls have been made: a countered item stays on
the stack as it is, whatever is called, until a call resolves it, and then the answer is that it was
countered. As long as numbers do not overflow nothing can be aimed at it meanwhile. And whenever a
call answers that an item was countered or has fizzled, it was the top one, and it is gone; the rest
of the stack, the table and the engine are as they were, nobody has passed, and the active player has
priority. -/
theorem countered_does_nothing {seats : List PlayerId} {active : PlayerId} {start : Stack}
    (hstart : seat seats active = .ok start) (calls : List Call) :
    (∀ item ∈ (start.play calls).items, item.countered = true →
      (∀ later, item ∈ ((start.play calls).play later).items ∨
        ∃ earlier call rest, later = earlier ++ call :: rest ∧
          ((start.play calls).play earlier).top? = some item ∧
          call.resolution? ((start.play calls).play earlier) = some (.countered item.id)) ∧
      (∀ call : Call, (start.play calls).top? = some item →
        (start.play calls).resolves call.operation = true →
        call.resolution? (start.play calls) = some (.countered item.id)) ∧
      ((Deed.arrivals (start.deeds calls)).length + 1 < UInt32.size →
        (start.play calls).OutOfReach item.id)) ∧
    ∀ (call : Call) (id : ItemId),
      (call.resolution? (start.play calls) = some (.countered id) ∨
        call.resolution? (start.play calls) = some (.fizzled id)) →
      (∃ item, (start.play calls).top? = some item ∧ item.id = id) ∧
        (call.run (start.play calls)).state = {
          table := call.table
          engine := call.engine
          stack := { start.play calls with
            items := (start.play calls).items.dropLast
            passed := []
            holder := (start.play calls).active } } := by
  refine ⟨fun item hitem h => ⟨?_, ?_, ?_⟩, ?_⟩
  · exact countered_until hitem h
  · intro call htop hresolves
    exact Call.resolution?_countered htop h hresolves
  · intro hsmall
    refine outOfReach fun other hother hid => ?_
    -- the numbers are distinct, so this is the item itself
    have hdistinct := (numbered_play hstart calls hsmall).distinct
    rw [List.inj_on_of_nodup_map hdistinct hother hitem hid]
    exact h
  · intro call id hanswer
    obtain ⟨left, hleft, hidle, hnumber⟩ : ∃ left, call.resolution? (start.play calls) = some left ∧
        (∀ id, left ≠ .resolved id) ∧ (left = .countered id ∨ left = .fizzled id) := by
      rcases hanswer with hleft | hleft
      · exact ⟨_, hleft, nofun, .inl rfl⟩
      · exact ⟨_, hleft, nofun, .inr rfl⟩
    obtain ⟨item, htop, hwhich, hstate⟩ := Call.state_of_idle hleft hidle
    refine ⟨⟨item, htop, ?_⟩, hstate⟩
    rcases hnumber with rfl | rfl
    · simpa [eq_comm] using hwhich
    · simpa [eq_comm] using hwhich

def shock : Spell :=
  { (default : Spell) with
    effects := [{ kind := .dealDamage, magnitude := 3, targets := [{ kind := .player }] }] }

def cancel : Spell :=
  { (default : Spell) with
    effects := [{ kind := .counterSpell, magnitude := 0, targets := [{ kind := .spell }] }] }

def twoPlayers (operation : Operation) : Call :=
  { operation, table := .seat ["A", "B"] 20, engine := {} }

/-- The second player answers a spell with a counterspell, and before that resolves the spell is
countered all the same. -/
def counteredTwice : List Call :=
  [.push (.spell shock) ⟨1⟩ [.player ⟨2⟩] none, .push (.spell cancel) ⟨2⟩ [.spell ⟨1⟩] none,
    .counter ⟨1⟩ ⟨2⟩].map twoPlayers

/-- The counterspell fizzles, and then the spell leaves without damage. -/
theorem countered_does_nothing_twice :
    let start : Stack := { seats := [⟨1⟩, ⟨2⟩], active := ⟨1⟩, holder := ⟨1⟩ }
    let resolve := twoPlayers .resolveTop
    resolve.resolution? (start.play counteredTwice) = some (.fizzled ⟨2⟩) ∧
      (resolve.run (start.play counteredTwice)).state.table = resolve.table ∧
      ∃ earlier call rest, [resolve, resolve] = earlier ++ call :: rest ∧
        call.resolution? ((start.play counteredTwice).play earlier) = some (.countered ⟨1⟩) := by
  intro start resolve
  have hstart : seat [⟨1⟩, ⟨2⟩] ⟨1⟩ = .ok start := rfl
  have hitem : ({ id := ⟨1⟩, object := .spell shock, controller := ⟨1⟩, targets := [.player ⟨2⟩]
                  countered := true } : StackItem) ∈ (start.play counteredTwice).items := by decide
  obtain ⟨hcountered, hidle⟩ := countered_does_nothing hstart counteredTwice
  obtain ⟨huntil, -, hout⟩ := hcountered _ hitem rfl
  have hfizzled : resolve.resolution? (start.play counteredTwice) = some (.fizzled ⟨2⟩) :=
    (hout (by decide)).fizzles resolve rfl rfl (by decide) (by decide) rfl
  refine ⟨hfizzled, ?_, ?_⟩
  · rw [(hidle resolve ⟨2⟩ (.inr hfizzled)).2]
  · rcases huntil [resolve, resolve] with hstays | ⟨earlier, call, rest, hsplit, -, hleft⟩
    · exact absurd hstays (by decide)
    · exact ⟨earlier, call, rest, hsplit, hleft⟩

end Stack

end CardRules
