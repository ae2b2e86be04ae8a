import CardRules.Proofs.Engine.Leaving
import CardRules.Proofs.Stack.Call

/-!
# Triggers from queue to hand

Whatever is asked of a game works on the board through the engine, so it keeps the engine's books:
a permanent that goes is booked, and nothing else is. The triggers that this queues wait until they
are handed out. In a run of anything that can happen in a game, those that were handed out and those
that still wait are, in order, those that were queued.
-/

set_option autoImplicit false

namespace CardRules

open Act

namespace Scene

/-- What is there beside the stack. -/
def board (scene : Scene) : Board := { table := scene.table, engine := scene.engine }

/-- The board moves along a relation. -/
def OnBoard (R : Board → Board → Prop) (before after : Scene) : Prop := R before.board after.board

instance {R : Board → Board → Prop} [Std.Refl R] : Std.Refl (OnBoard R) :=
  ⟨fun scene => Std.Refl.refl scene.board⟩

instance {R : Board → Board → Prop} [IsTrans Board R] : IsTrans Scene (OnBoard R) :=
  ⟨fun a b c => IsTrans.trans a.board b.board c.board⟩

section Board

variable {R : Board → Board → Prop}

theorem along_inArena {α : Type} {act : Arena.Move α} (h : Along (Arena.OnBoard R) act) :
    Along (OnBoard R) (inArena act) :=
  h.within fun _ _ harena => harena

theorem along_inBareArena {α : Type} {act : Arena.Move α} (h : Along (Arena.OnBoard R) act)
    (lenient : Bool) : Along (OnBoard R) (inBareArena act lenient) :=
  h.within fun _ _ harena => harena

theorem along_onTable (quietly : Arena.Quietly (Arena.OnBoard R)) {α : Type} {act : Act Table α}
    (h : Along Table.Quiet act) : Along (OnBoard R) (onTable act) :=
  h.within fun scene table hquiet => quietly scene.arena table hquiet

variable [Std.Refl R]

theorem along_changeStack (f : Stack → Stack) : Along (OnBoard R) (changeStack f) :=
  fun scene => Std.Refl.refl scene.board

variable [IsTrans Board R]

theorem along_push (object : StackObject) (controller : PlayerId) (targets : List Choice)
    (x : Option UInt32) : Along (OnBoard R) (push object controller targets x) :=
  Along.get.bind fun _ => (Along.report _ _).bind fun _ => (along_changeStack _).bind fun _ =>
    .pure _

theorem along_resolveTop (course : Arena.Course (Arena.OnBoard R)) :
    Along (OnBoard R) resolveTop := by
  have hitem (item : StackItem) : Along (OnBoard R) (resolveItem item) := by
    unfold resolveItem
    split
    · exact (Along.report _ _).bind fun _ => .pure _
    · refine Along.get.bind fun scene => ?_
      dsimp only
      split
      · exact (Along.report _ _).bind fun _ => .pure _
      · exact (along_inArena (course.along_applyEffects _ _)).bind fun _ =>
          (Along.report _ _).bind fun _ => .pure _
  unfold resolveTop
  refine Along.get.bind fun scene => ?_
  split
  · exact .fail _
  · exact (along_changeStack _).bind fun _ => (hitem _).attempt.bind fun _ =>
      (along_changeStack _).bind fun _ => .ofExcept _

theorem along_pass (course : Arena.Course (Arena.OnBoard R)) (player : PlayerId) :
    Along (OnBoard R) (pass player) := by
  unfold pass
  refine Along.get.bind fun _ => (Along.ofExcept _).bind fun _ => (along_changeStack _).bind fun _ =>
    (Along.report _ _).bind fun _ => Along.get.bind fun scene => ?_
  dsimp only
  split
  · split
    · exact (along_changeStack _).bind fun _ => .pure _
    · exact (along_resolveTop course).bind fun _ => .pure _
  · exact (along_changeStack _).bind fun _ => .pure _

theorem along_cast (quietly : Arena.Quietly (Arena.OnBoard R)) (spell : Spell) (player : PlayerId)
    (targets : List Choice) (x : Option UInt32) (lenient : Bool) :
    Along (OnBoard R) (cast spell player targets x lenient) := by
  unfold cast
  refine Along.get.bind fun scene => (Along.ofExcept _).bind fun _ => Along.guarded ?_
  refine (Along.ofExcept _).bind fun _ => (Along.require _ _).bind fun mana => Along.guarded ?_
  exact (along_onTable quietly (Table.quiet_frame.along_pay _ _)).bind fun _ => along_push _ _ _ _

theorem along_activate {id : AbilityId} {player : PlayerId} {targets : List Choice}
    {decision : Decision}
    (h : Along (Arena.OnBoard R) (Arena.activate id player targets decision)) :
    Along (OnBoard R) (activate id player targets decision) := by
  have hplay {next : Activation → Move (Option ItemId)}
      (hpending : ∀ object, next (.pending object) = some <$> push object player targets decision.x)
      (hresolved : next .manaResolved = pure none) :
      Along (OnBoard R) (inArena (Arena.activate id player targets decision) >>= next) := by
    refine (along_inArena h).bind fun used => ?_
    cases used with
    | pending object =>
      rw [hpending]
      exact (along_push object player targets decision.x).map some
    | manaResolved =>
      rw [hresolved]
      exact .pure none
  unfold activate
  refine Along.get.bind fun scene => (Along.ofExcept _).bind fun _ => (Along.require _ _).bind
    fun ability => ?_
  split
  · exact (along_inBareArena h false).discard.bind fun _ => .pure _
  · refine (Along.ofExcept _).bind fun _ => ?_
    dsimp only
    split
    -- at sorcery speed the rest comes behind a refusal
    · exact (Along.fail _).bind fun _ => hplay (fun _ => rfl) rfl
    · exact hplay (fun _ => rfl) rfl

/-- Every operation moves the board along a course of the engine, if the activation it may be does. -/
theorem along_perform (course : Arena.Course (Arena.OnBoard R)) (operation : Operation)
    (hactivate : ∀ id player targets decision,
      operation = .activate id player targets decision →
        Along (Arena.OnBoard R) (Arena.activate id player targets decision)) :
    Along (OnBoard R) operation.perform := by
  cases operation with
  | push object controller targets x => exact (along_push object controller targets x).map _
  | pushTriggered ability controller targets =>
    exact (along_push (.ability ability) controller targets none).map _
  | pass player => exact (along_pass course player).map _
  | resolveTop => exact (along_resolveTop course).map _
  | counter item player =>
    have hcounter : Along (OnBoard R) (counter item player) :=
      Along.get.bind fun _ => (Along.ofExcept _).bind fun _ => (Along.ofExcept _).bind fun _ =>
        (along_changeStack _).bind fun _ => .report _ _
    exact hcounter.map _
  | cast spell player targets x lenient =>
    exact (along_cast course.table spell player targets x lenient).map _
  | activate id player targets decision =>
    exact (along_activate (hactivate id player targets decision rfl)).map _
  | setActive player =>
    have hactive : Along (OnBoard R) (setActive player) :=
      Along.get.bind fun _ => (Along.ofExcept _).bind fun _ => along_changeStack _
    exact hactive.map _

end Board

end Scene

/-! ## Runs -/

/-- What can happen in a game, as far as triggers can tell. -/
inductive Happening where
  | asked (operation : Operation)
  /-- An ability is used without the stack. -/
  | execute (id : AbilityId) (controller : PlayerId) (targets : List Choice) (decision : Decision)
      (lenient : Bool)
  /-- A card is said to have left the battlefield. -/
  | leave (card : CardId) (controller : PlayerId)
  /-- The triggers that wait are handed out. -/
  | take
  /-- Anything else, at the table, with the abilities in play or on the stack. -/
  | elsewhere (table : Table) (registry : Registry) (rules : Untargetability) (stack : Stack)

namespace Happening

variable (happening : Happening) (scene : Scene)

/-- The game after something has happened. -/
def after : Scene :=
  match happening with
  | asked operation => (operation.perform scene).state
  | execute id controller targets decision lenient =>
    (Scene.inBareArena (Arena.execute id controller targets decision) lenient scene).state
  | leave card controller => (Scene.inBareArena (Arena.leave card controller) false scene).state
  | take => { scene with engine := scene.engine.takePending.2 }
  | elsewhere table registry rules stack =>
    { table, stack, engine := { scene.engine with registry, rules } }

/-- The triggers that are handed out. -/
def handedOut : List PendingTrigger :=
  match happening with
  | take => scene.engine.takePending.1
  | _ => []

/-- The triggers that are queued, behind those that wait already. -/
def queued : List PendingTrigger :=
  match happening with
  | take => []
  | _ => (happening.after scene).engine.pending.drop scene.engine.pending.length

end Happening

namespace Scene

/-- The game after some happenings. -/
def play (scene : Scene) : List Happening → Scene
  | [] => scene
  | happening :: happenings => (happening.after scene).play happenings

/-- The triggers handed out in some happenings, in order. -/
def handedOut (scene : Scene) : List Happening → List PendingTrigger
  | [] => []
  | happening :: happenings =>
    happening.handedOut scene ++ (happening.after scene).handedOut happenings

/-- The triggers queued in some happenings, in order. -/
def queued (scene : Scene) : List Happening → List PendingTrigger
  | [] => []
  | happening :: happenings => happening.queued scene ++ (happening.after scene).queued happenings

end Scene

/-- Triggers are queued behind those that wait. -/
def Board.Grows (before after : Board) : Prop := before.engine.pending <+: after.engine.pending

instance : Std.Refl Board.Grows := ⟨fun board => List.prefix_refl board.engine.pending⟩

instance : IsTrans Board Board.Grows := ⟨fun _ _ _ => List.IsPrefix.trans⟩

theorem Arena.grows_frame : Arena.Frame (Arena.OnBoard Board.Grows) where
  table arena _ _ := List.prefix_refl arena.engine.pending
  dropSource arena _ := List.prefix_refl arena.engine.pending
  recordUse arena _ := List.prefix_refl arena.engine.pending
  queue arena trigger := List.prefix_append arena.engine.pending [trigger]
  counter arena _ _ _ := List.prefix_refl arena.engine.pending

namespace Happening

theorem grows (happening : Happening) (scene : Scene) (h : happening ≠ take) :
    scene.engine.pending <+: (happening.after scene).engine.pending := by
  cases happening with
  | asked operation =>
    exact Scene.along_perform Arena.grows_frame.course operation
      (fun id player targets decision _ =>
        Arena.grows_frame.along_activate id player targets decision) scene
  | execute id controller targets decision lenient =>
    have hexecute : Along (Arena.OnBoard Board.Grows)
        (Arena.execute id controller targets decision) :=
      (Arena.grows_frame.along_prepare id controller targets decision).bind fun ability =>
        Arena.grows_frame.course.along_applyEffects _ _
    exact Scene.along_inBareArena hexecute lenient scene
  | leave card controller =>
    exact Scene.along_inBareArena (Arena.grows_frame.along_leave card controller) false scene
  | take => exact absurd rfl h
  | elsewhere table registry rules stack => exact List.prefix_refl _

/-- Of the triggers that waited and those that are queued, what is not handed out waits on. -/
theorem handedOut_append_pending (happening : Happening) (scene : Scene) :
    happening.handedOut scene ++ (happening.after scene).engine.pending =
      scene.engine.pending ++ happening.queued scene := by
  by_cases htake : happening = take
  · subst htake
    rfl
  · obtain ⟨more, hmore⟩ := happening.grows scene htake
    have hnone : happening.handedOut scene = [] := by
      cases happening with
      | take => exact absurd rfl htake
      | _ => rfl
    have hqueued : happening.queued scene =
        (happening.after scene).engine.pending.drop scene.engine.pending.length := by
      cases happening with
      | take => exact absurd rfl htake
      | _ => rfl
    rw [hnone, hqueued, ← hmore, List.drop_left]
    rfl

end Happening

namespace Scene

theorem handedOut_append_pending (scene : Scene) (happenings : List Happening) :
    scene.handedOut happenings ++ (scene.play happenings).engine.pending =
      scene.engine.pending ++ scene.queued happenings := by
  induction happenings generalizing scene with
  | nil => exact (List.append_nil _).symm
  | cons happening happenings ih =>
    rw [handedOut, play, queued, List.append_assoc, ih, ← List.append_assoc,
      happening.handedOut_append_pending, List.append_assoc]

/-- The books of the engine. On a fit table, whatever is asked of the game and whether it succeeds or
fails: some cards have left the battlefield, one after the other; their abilities, and no others,
are forgotten; their triggers for leaving, and for dying if they are creatures, and no others, are
queued for the players who had control of them. An activation also counts a use, which is left out
of this account. And in any run of a game, the triggers that were handed out, followed by those that
wait, are the triggers that waited before, followed by those that were queued, in order. -/
theorem leaving_booked {scene : Scene} (hfit : scene.table.Fit) (operation : Operation) :
    ((Happening.asked operation).after scene).table.Fit ∧
      (∃ left, Booked left scene.board.unused
        ((Happening.asked operation).after scene).board.unused) ∧
      ((∀ id player targets decision, operation ≠ .activate id player targets decision) →
        ∃ left, Booked left scene.board ((Happening.asked operation).after scene).board) ∧
      ∀ (start : Scene) (happenings : List Happening),
        start.handedOut happenings ++ (start.play happenings).engine.pending =
          start.engine.pending ++ start.queued happenings := by
  have hunused := along_perform Arena.booksUnused_course operation
    (fun id player targets decision _ => Arena.booksUnused_activate id player targets decision)
    scene hfit
  refine ⟨hunused.1, hunused.2, fun hother => ?_, handedOut_append_pending⟩
  have hbooks := along_perform Arena.books_course operation
    (fun id player targets decision h => absurd h (hother id player targets decision)) scene hfit
  exact hbooks.2

/-- A creature with three abilities, and a spell that destroys it about to resolve. -/
def mourned : Scene where
  table := { Table.seat ["A", "B"] 20 with
    cards := { entries := [(⟨4⟩, { Card.blank ⟨4⟩ "C" ⟨2⟩ with
      types := [.creature], controller := ⟨1⟩ })] }
    battlefield := { zone := .battlefield, owner := ⟨3⟩, cards := [⟨4⟩] } }
  engine := { registry := {
    abilities := [(1, Trigger.dies), (2, .attacks), (3, .leavesTheBattlefield)].map
      fun (number, trigger) => {
        id := ⟨number⟩, name := "C", kind := .triggered, source := ⟨4⟩, cost := {}
        effects := [], trigger := some trigger } } }
  stack := {
    items := [{
      id := ⟨1⟩, controller := ⟨1⟩, targets := [.permanent ⟨4⟩]
      object := .ability {
        id := ⟨9⟩, name := "D", kind := .activated, source := ⟨8⟩, cost := {}
        effects := [{ kind := .destroy, magnitude := 0, targets := [{ kind := .creature }] }] } }]
    seats := [⟨1⟩, ⟨2⟩], active := ⟨1⟩, holder := ⟨1⟩ }

/-- Two of the three trigger, for the player who had control of the creature, and are handed out. -/
theorem leaving_booked_mourned :
    (mourned.handedOut [.asked .resolveTop, .take]).map
        (fun trigger => (trigger.ability.id.number, trigger.controller.number)) = [(1, 1), (3, 1)] ∧
      ((Happening.asked .resolveTop).after mourned).engine.registry.abilities = [] ∧
      (∃ left, Booked left mourned.board ((Happening.asked .resolveTop).after mourned).board) ∧
      mourned.handedOut [.asked .resolveTop, .take] ++
          (mourned.play [.asked .resolveTop, .take]).engine.pending =
        mourned.engine.pending ++ mourned.queued [.asked .resolveTop, .take] := by
  have hfit : mourned.table.Fit := by
    refine ⟨by decide, fun id card hid hcard => ?_⟩
    rw [List.mem_singleton.mp hid] at hcard
    obtain rfl := Option.some.inj hcard
    rfl
  obtain ⟨-, -, hbooked, hrun⟩ := leaving_booked hfit .resolveTop
  exact ⟨by decide, by decide, hbooked (by simp), hrun mourned _⟩

end Scene

end CardRules
