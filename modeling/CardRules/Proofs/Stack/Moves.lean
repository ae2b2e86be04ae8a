import CardRules.Proofs.Stack.Marks
import CardRules.Stack.Play

/-!
# What the moves do to a stack

The moves on a stack fall into three sorts. Most look, and then perhaps put one item on top
(`MayPush`); a resolution takes the top item off and starts a round (`outcome_resolveTop_some`,
`resolveTop_cases`); a pass is either of the two ends of a round or hands priority on
(`outcome_pass`). What happens at the table and in the engine meanwhile can do no more to the stack
than mark spells as countered (`OnlyMarks`).
-/

set_option autoImplicit false

namespace CardRules

open Act

/-- What the effects of an item need to know. -/
def StackItem.context (item : StackItem) : EffectContext where
  controller := item.controller
  source := item.object.source
  targets := item.targets
  x := item.x
  oracleText := item.object.oracleText

namespace Scene

/-- Nothing happens to the stack but that spells are marked as countered. -/
def OnlyMarks (before after : Scene) : Prop :=
  ∃ items, StackItem.Kept before.stack.items items ∧ after.stack = { before.stack with items }

instance : Std.Refl OnlyMarks := ⟨fun scene => ⟨scene.stack.items, .refl _, rfl⟩⟩

instance : IsTrans Scene OnlyMarks where
  trans := by
    rintro a b c ⟨items, hkept, hb⟩ ⟨items', hkept', hc⟩
    rw [hb] at hkept' hc
    exact ⟨items', hkept.trans hkept', hc⟩

theorem onlyMarks_inArena {α : Type} {act : Arena.Move α} (h : Along Arena.OnlyMarks act) :
    Along OnlyMarks (inArena act) :=
  fun scene => ⟨_, h scene.arena, rfl⟩

theorem onlyMarks_inBareArena {α : Type} (act : Arena.Move α) (lenient : Bool) :
    Along OnlyMarks (inBareArena act lenient) :=
  fun _ => ⟨_, .refl _, rfl⟩

theorem onlyMarks_onTable {α : Type} (act : Act Table α) : Along OnlyMarks (onTable act) :=
  fun _ => ⟨_, .refl _, rfl⟩

/-! ## Moves that may put one item on top -/

/-- The move leaves the stack as it is, up to marks, and at its end perhaps puts one item on top. It
does so exactly if it succeeds with an answer that has a number, and the number is the item's. -/
def MayPush {α : Type} (number? : α → Option ItemId) (move : Move α) : Prop :=
  ∀ scene, ∃ mid, OnlyMarks scene mid ∧
    ((∃ object controller targets x answer,
        move.outcome scene = (.ok answer, { mid with
          stack := (mid.stack.push object controller targets x).2 }) ∧
        number? answer = some mid.stack.nextItem) ∨
      (move.outcome scene).2 = mid ∧
        ∀ answer, (move.outcome scene).1 = .ok answer → number? answer = none)

namespace MayPush

variable {α β : Type} {number? : α → Option ItemId}

theorem of_onlyMarks {move : Move α} (h : Along OnlyMarks move) (hnone : ∀ a, number? a = none) :
    MayPush number? move :=
  fun scene => ⟨_, h scene, .inr ⟨rfl, fun answer _ => hnone answer⟩⟩

theorem pure {a : α} (hnone : number? a = none) : MayPush number? (pure a) :=
  fun scene => ⟨scene, Std.Refl.refl scene, .inr ⟨rfl, fun _ h => Except.ok.inj h ▸ hnone⟩⟩

theorem push (object : StackObject) (controller : PlayerId) (targets : List Choice)
    (x : Option UInt32) : MayPush some (Scene.push object controller targets x) :=
  fun scene => ⟨scene, Std.Refl.refl scene, .inl ⟨object, controller, targets, x, _, rfl, rfl⟩⟩

/-- Looking first, or using the table, changes nothing about it. -/
theorem bind {act : Move β} {next : β → Move α} (h : Along OnlyMarks act)
    (hnext : ∀ b, MayPush number? (next b)) : MayPush number? (act >>= next) := by
  intro scene
  have hscene : OnlyMarks scene (act.outcome scene).2 := h scene
  rcases hact : act.outcome scene with ⟨fault | b, scene'⟩
  · rw [hact] at hscene
    refine ⟨scene', hscene, .inr ?_⟩
    rw [outcome_bind_error hact]
    exact ⟨rfl, fun _ h => by simp at h⟩
  · rw [hact] at hscene
    obtain ⟨mid, hmid, hrest⟩ := hnext b scene'
    refine ⟨mid, IsTrans.trans _ _ _ hscene hmid, ?_⟩
    rw [outcome_bind_ok hact]
    exact hrest

/-- A test that may refuse the move. -/
theorem guarded {condition : Prop} [Decidable condition] {fault : Fault} {move : Move α}
    (h : MayPush number? move) :
    MayPush number? (if condition then move else (Act.fail fault : Move Unit) >>= fun _ => move) := by
  split
  · exact h
  · exact .bind (.fail fault) fun _ => h

theorem map {move : Move α} (h : MayPush number? move) {number?' : β → Option ItemId} {f : α → β}
    (hf : ∀ a, number?' (f a) = number? a) : MayPush number?' (f <$> move) := by
  intro scene
  obtain ⟨mid, hmid, hrest⟩ := h scene
  refine ⟨mid, hmid, ?_⟩
  rw [outcome_map]
  rcases hrest with ⟨object, controller, targets, x, answer, hout, hnumber⟩ | ⟨hstate, hnone⟩
  · refine .inl ⟨object, controller, targets, x, f answer, ?_, ?_⟩
    · rw [hout]
      rfl
    · rw [hf, hnumber]
  · refine .inr ⟨hstate, fun answer hanswer => ?_⟩
    rcases hresult : (move.outcome scene).1 with fault | a
    · rw [hresult] at hanswer
      simp [Except.map] at hanswer
    · rw [hresult] at hanswer
      obtain rfl : f a = answer := by simpa [Except.map] using hanswer
      rw [hf, hnone a hresult]

end MayPush

theorem onlyMarks_counter (item : ItemId) (player : PlayerId) :
    Along OnlyMarks (counter item player) := by
  intro scene
  unfold counter
  rw [outcome_bind_ok (outcome_get scene)]
  dsimp only
  cases scene.stack.checkSeated player with
  | error fault =>
    rw [outcome_bind_error (outcome_ofExcept _ _)]
    exact Std.Refl.refl scene
  | ok _ =>
    rw [outcome_bind_ok (outcome_ofExcept _ _)]
    cases hitems : StackItem.counter scene.stack.items item with
    | error fault =>
      rw [outcome_bind_error (outcome_ofExcept _ _)]
      exact Std.Refl.refl scene
    | ok items => exact ⟨items, StackItem.kept_of_counter hitems, rfl⟩

theorem mayPush_cast (spell : Spell) (player : PlayerId) (targets : List Choice)
    (x : Option UInt32) (lenient : Bool) : MayPush some (cast spell player targets x lenient) := by
  unfold cast
  refine .bind .get fun scene => .bind (.ofExcept _) fun _ => .guarded ?_
  refine .bind (.ofExcept _) fun _ => .bind (.require _ _) fun mana => .guarded ?_
  exact .bind (onlyMarks_onTable _) fun _ => .push _ _ _ _

theorem mayPush_activate (id : AbilityId) (player : PlayerId) (targets : List Choice)
    (decision : Decision) : MayPush (fun id? => id?) (activate id player targets decision) := by
  have hplay {next : Activation → Move (Option ItemId)}
      (hpending : ∀ object, next (.pending object) = some <$> push object player targets decision.x)
      (hresolved : next .manaResolved = pure none) :
      MayPush (fun id? => id?) (inArena (Arena.activate id player targets decision) >>= next) := by
    refine .bind (onlyMarks_inArena (Arena.onlyMarks_frame.along_activate _ _ _ _)) fun used => ?_
    cases used with
    | pending object =>
      rw [hpending]
      exact (MayPush.push object player targets decision.x).map fun _ => rfl
    | manaResolved =>
      rw [hresolved]
      exact .pure rfl
  unfold activate
  refine .bind .get fun scene => .bind (.ofExcept _) fun _ => .bind (.require _ _) fun ability => ?_
  split
  · refine .bind (onlyMarks_inBareArena _ _).discard fun _ => ?_
    exact .pure rfl
  · refine .bind (.ofExcept _) fun _ => ?_
    dsimp only
    split
    -- the rest of the move is met twice, behind the refusal and without it
    · exact .bind (.fail _) fun _ => hplay (fun _ => rfl) rfl
    · exact hplay (fun _ => rfl) rfl

/-! ## Resolutions -/

/-- The scene with another arena in its place. -/
def withArena (scene : Scene) (arena : Arena) : Scene where
  table := arena.table
  engine := arena.engine
  stack := { scene.stack with items := arena.items }

/-- Whether every target chosen for an item has become illegal. -/
def fizzles (scene : Scene) (item : StackItem) : Bool :=
  scene.arena.allIllegal scene.engine.rules item.object.targets item.targets item.controller
    (objectColors scene.table item.object)

theorem outcome_inArena {α : Type} (act : Arena.Move α) (scene : Scene) :
    (inArena act).outcome scene =
      ((act.outcome scene.arena).1, scene.withArena (act.outcome scene.arena).2) := rfl

theorem outcome_report (event : Event) (scene : Scene) :
    (report event).outcome scene = (.ok (), scene) := rfl

theorem outcome_changeStack (f : Stack → Stack) (scene : Scene) :
    (changeStack f).outcome scene = (.ok (), { scene with stack := f scene.stack }) := rfl

/-- An item that was countered, or whose targets are all illegal, does nothing; any other applies
its effects. -/
theorem outcome_resolveItem (item : StackItem) (scene : Scene) :
    (resolveItem item).outcome scene =
      if item.countered then (.ok (.countered item.id), scene)
      else if scene.fizzles item then (.ok (.fizzled item.id), scene)
      else
        let applied := (Arena.applyEffects item.object.effects item.context).outcome scene.arena
        (applied.1.map fun _ => .resolved item.id, scene.withArena applied.2) := by
  unfold resolveItem
  by_cases hcountered : item.countered = true
  · rw [if_pos hcountered, if_pos hcountered]
    rfl
  · rw [if_neg hcountered, if_neg hcountered, outcome_bind_ok (outcome_get scene)]
    dsimp only
    show (if scene.fizzles item = true then _ else _ : Move Resolution).outcome scene = _
    by_cases hfizzles : scene.fizzles item = true
    · rw [if_pos hfizzles, if_pos hfizzles]
      rfl
    · rw [if_neg hfizzles, if_neg hfizzles]
      show (inArena (Arena.applyEffects item.object.effects item.context) >>= fun _ => _).outcome
        scene = _
      rw [outcome_bind, outcome_inArena]
      rcases (Arena.applyEffects item.object.effects item.context).outcome scene.arena with
        ⟨_ | _, _⟩
      · rfl
      · rfl

/-- A resolution works on the table, the engine and the items; the round is not looked at. -/
theorem outcome_resolveItem_congr (item : StackItem) (scene : Scene) {stack : Stack}
    (h : stack.items = scene.stack.items) :
    (resolveItem item).outcome { scene with stack } =
      (((resolveItem item).outcome scene).1,
        { ((resolveItem item).outcome scene).2 with
          stack := { stack with items := ((resolveItem item).outcome scene).2.stack.items } }) := by
  have harena : arena { scene with stack } = scene.arena := by rw [arena, arena, h]
  have hfizzles : fizzles { scene with stack } item = scene.fizzles item := by
    rw [fizzles, fizzles, harena]
  rw [outcome_resolveItem, outcome_resolveItem, harena, hfizzles]
  by_cases hcountered : item.countered = true
  · rw [if_pos hcountered, if_pos hcountered, ← h]
  · rw [if_neg hcountered, if_neg hcountered]
    split
    · rw [← h]
    · rfl

theorem onlyMarks_resolveItem (item : StackItem) : Along OnlyMarks (resolveItem item) := by
  unfold resolveItem
  split
  · exact (Along.report _ _).bind fun _ => .pure _
  · refine Along.get.bind fun scene => ?_
    dsimp only
    split
    · exact (Along.report _ _).bind fun _ => .pure _
    · exact (onlyMarks_inArena (Arena.onlyMarks_frame.course.along_applyEffects _ _)).bind fun _ =>
        (Along.report _ _).bind fun _ => .pure _

/-- Whatever becomes of the top item, it is gone and a round starts. -/
theorem outcome_resolveTop_some {scene : Scene} {top : StackItem}
    (h : scene.stack.top? = some top) :
    resolveTop.outcome scene =
      (((resolveItem top).outcome { scene with stack := scene.stack.pop }).1,
        { ((resolveItem top).outcome { scene with stack := scene.stack.pop }).2 with
          stack :=
            ((resolveItem top).outcome { scene with stack := scene.stack.pop }).2.stack.reset }) := by
  unfold resolveTop
  rw [outcome_bind_ok (outcome_get scene), h]
  dsimp only
  rw [outcome_bind_ok (outcome_changeStack _ _), outcome_bind_ok (outcome_attempt _ _),
    outcome_bind_ok (outcome_changeStack _ _), outcome_ofExcept]

theorem outcome_resolveTop_none {scene : Scene} (h : scene.stack.top? = none) :
    resolveTop.outcome scene = (.error (.violation .emptyStack), scene) := by
  unfold resolveTop
  rw [outcome_bind_ok (outcome_get scene), h]
  rfl

/-- The passes noted so far make no difference to a resolution, which forgets them. -/
theorem outcome_resolveTop_notePass (scene : Scene) (player : PlayerId)
    (h : scene.stack.items ≠ []) :
    resolveTop.outcome { scene with stack := scene.stack.notePass player } =
      resolveTop.outcome scene := by
  obtain ⟨top, htop⟩ : ∃ top, scene.stack.top? = some top :=
    ⟨_, List.getLast?_eq_some_getLast h⟩
  have htop' : Stack.top? (Scene.stack { scene with stack := scene.stack.notePass player }) =
      some top := htop
  have hitems : (scene.stack.notePass player).pop.items = scene.stack.pop.items := rfl
  rw [outcome_resolveTop_some htop, outcome_resolveTop_some htop',
    outcome_resolveItem_congr top { scene with stack := scene.stack.pop } hitems]
  -- the two rounds differ in who passed and who holds priority, which the reset overrides
  obtain ⟨items, -, hround⟩ := onlyMarks_resolveItem top { scene with stack := scene.stack.pop }
  generalize (resolveItem top).outcome { scene with stack := scene.stack.pop } = resolved at hround
  rw [hround]
  rfl

/-! ## Seats and priority -/

section

variable {stack : Stack} {player : PlayerId}

theorem checkSeated_of_mem (h : player ∈ stack.seats) : stack.checkSeated player = .ok () :=
  if_pos (List.contains_iff_mem.mpr h)

theorem checkSeated_of_not_mem (h : player ∉ stack.seats) :
    stack.checkSeated player = .error (.violation (.unknownPlayer player)) :=
  if_neg (mt List.contains_iff_mem.mp h)

theorem checkPriority_holder (h : stack.holder ∈ stack.seats) :
    stack.checkPriority stack.holder = .ok () := by
  unfold Stack.checkPriority
  rw [checkSeated_of_mem h]
  exact if_pos rfl

theorem checkPriority_of_not_mem (h : player ∉ stack.seats) :
    stack.checkPriority player = .error (.violation (.unknownPlayer player)) := by
  unfold Stack.checkPriority
  rw [checkSeated_of_not_mem h]
  rfl

theorem checkPriority_of_mem (h : player ∈ stack.seats) (hother : player ≠ stack.holder) :
    stack.checkPriority player = .error (.violation (.outOfTurn player stack.holder)) := by
  unfold Stack.checkPriority
  rw [checkSeated_of_mem h]
  exact if_neg hother

theorem checkPriority_eq_ok_iff :
    stack.checkPriority player = .ok () ↔ player ∈ stack.seats ∧ player = stack.holder := by
  constructor
  · intro h
    by_cases hseated : player ∈ stack.seats
    · refine ⟨hseated, ?_⟩
      by_contra hother
      simp [checkPriority_of_mem hseated hother] at h
    · simp [checkPriority_of_not_mem hseated] at h
  · rintro ⟨hseated, rfl⟩
    exact checkPriority_holder hseated

end

/-! ## Passing -/

theorem outcome_pass_refused (scene : Scene) {player : PlayerId} {fault : Fault}
    (h : scene.stack.checkPriority player = .error fault) :
    (pass player).outcome scene = (.error fault, scene) := by
  unfold pass
  rw [outcome_bind_ok (outcome_get scene), h, outcome_bind_error (outcome_ofExcept _ _)]

/-- The holder of priority passes: the last one to do so ends the round, with a resolution if there
is anything on the stack; any other hands priority on. -/
theorem outcome_pass (scene : Scene) (h : scene.stack.holder ∈ scene.stack.seats) :
    (pass scene.stack.holder).outcome scene =
      if (scene.stack.notePass scene.stack.holder).allPassed then
        if scene.stack.items.isEmpty then
          (.ok .stackEmpty, { scene with stack := scene.stack.reset })
        else ((resolveTop.outcome scene).1.map .resolved, (resolveTop.outcome scene).2)
      else (.ok (.passed (scene.stack.next scene.stack.holder)), { scene with
        stack := { scene.stack.notePass scene.stack.holder with
          holder := scene.stack.next scene.stack.holder } }) := by
  unfold pass
  rw [outcome_bind_ok (outcome_get scene), checkPriority_holder h,
    outcome_bind_ok (outcome_ofExcept _ _), outcome_bind_ok (outcome_changeStack _ _),
    outcome_bind_ok (outcome_report _ _), outcome_bind_ok (outcome_get _)]
  dsimp only
  split
  · show (if scene.stack.items.isEmpty = true then _ else _ : Move PassOutcome).outcome _ = _
    split
    · rfl
    · rename_i hitems
      have hnonempty : scene.stack.items ≠ [] := mt List.isEmpty_iff.mpr hitems
      show (.resolved <$> resolveTop : Move PassOutcome).outcome _ = _
      rw [outcome_map, outcome_resolveTop_notePass scene _ hnonempty]
  · rfl

/-- A pass is refused, hands priority on, or ends the round, on an empty stack or with a resolution. -/
theorem pass_cases (scene : Scene) (player : PlayerId) :
    (∃ fault, scene.stack.checkPriority player = .error fault ∧
        (pass player).outcome scene = (.error fault, scene)) ∨
      player = scene.stack.holder ∧ scene.stack.holder ∈ scene.stack.seats ∧
        ((scene.stack.notePass scene.stack.holder).allPassed = false ∧
            (pass player).outcome scene = (.ok (.passed (scene.stack.next scene.stack.holder)),
              { scene with stack := { scene.stack.notePass scene.stack.holder with
                holder := scene.stack.next scene.stack.holder } }) ∨
          (scene.stack.notePass scene.stack.holder).allPassed = true ∧
            (scene.stack.items.isEmpty = true ∧ (pass player).outcome scene =
                (.ok .stackEmpty, { scene with stack := scene.stack.reset }) ∨
              scene.stack.items.isEmpty = false ∧ (pass player).outcome scene =
                ((resolveTop.outcome scene).1.map .resolved, (resolveTop.outcome scene).2))) := by
  cases hcheck : scene.stack.checkPriority player with
  | error fault => exact .inl ⟨fault, rfl, outcome_pass_refused scene hcheck⟩
  | ok _ =>
    obtain ⟨hseated, rfl⟩ := checkPriority_eq_ok_iff.mp hcheck
    refine .inr ⟨rfl, hseated, ?_⟩
    rw [outcome_pass scene hseated]
    cases (scene.stack.notePass scene.stack.holder).allPassed with
    | false => exact .inl ⟨rfl, rfl⟩
    | true =>
      cases scene.stack.items.isEmpty with
      | true => exact .inr ⟨rfl, .inl ⟨rfl, rfl⟩⟩
      | false => exact .inr ⟨rfl, .inr ⟨rfl, rfl⟩⟩

theorem outcome_setActive (scene : Scene) {player : PlayerId}
    (h : player ∈ scene.stack.seats) :
    (setActive player).outcome scene =
      (.ok (), { scene with stack := Stack.reset { scene.stack with active := player } }) := by
  have hset : scene.stack.setActive player =
      .ok (Stack.reset { scene.stack with active := player }) := by
    unfold Stack.setActive
    rw [checkSeated_of_mem h]
    rfl
  unfold setActive
  rw [outcome_bind_ok (outcome_get scene), hset, outcome_bind_ok (outcome_ofExcept _ _),
    outcome_changeStack]

theorem outcome_setActive_refused (scene : Scene) {player : PlayerId}
    (h : player ∉ scene.stack.seats) :
    (setActive player).outcome scene = (.error (.violation (.unknownPlayer player)), scene) := by
  have hset : scene.stack.setActive player = .error (.violation (.unknownPlayer player)) := by
    unfold Stack.setActive
    rw [checkSeated_of_not_mem h]
    rfl
  unfold setActive
  rw [outcome_bind_ok (outcome_get scene), hset, outcome_bind_error (outcome_ofExcept _ _)]

/-- A resolution takes the top item off, with marks on the rest, and starts a round; or there was
nothing to resolve. -/
theorem resolveTop_cases (scene : Scene) :
    scene.stack.items = [] ∧ (resolveTop.outcome scene).2 = scene ∨
      ∃ rest top items, scene.stack.items = rest ++ [top] ∧ StackItem.Kept rest items ∧
        (resolveTop.outcome scene).2.stack = Stack.reset { scene.stack with items } := by
  cases htop : scene.stack.top? with
  | none =>
    rw [outcome_resolveTop_none htop]
    exact .inl ⟨List.getLast?_eq_none_iff.mp htop, rfl⟩
  | some top =>
    obtain ⟨rest, hshape⟩ := List.getLast?_eq_some_iff.mp htop
    have hpop : scene.stack.pop.items = rest := by
      rw [Stack.pop, hshape]
      exact List.dropLast_concat
    obtain ⟨items, hkept, hstack⟩ :=
      onlyMarks_resolveItem top { scene with stack := scene.stack.pop }
    rw [outcome_resolveTop_some htop]
    exact .inr ⟨rest, top, items, hshape, hpop ▸ hkept, by rw [hstack]; rfl⟩

end Scene

end CardRules
