import CardRules.Proofs.Table.Keeps
import CardRules.Engine.Activation

/-!
# What the engine leaves alone

Effects change an arena in three ways: something happens at the table that buries no permanent
(`Table.Quiet`), a permanent is destroyed, a spell is marked as countered. `Course R` says that each of
these moves the arena along `R`; then so does every list of effects, and every part of a cost but the
sacrifice.

Taken apart further, the engine changes an arena in five ways only: something happens at the table,
within what lasts there (`Table.Keeps`), a card's abilities are forgotten, a trigger is queued, a spell
is marked as countered, a use is counted. Whatever holds of the first four (`Handling R`) holds of every
effect and every payment, and whatever holds of all five (`Frame R`) holds of every activation,
succeeding or failing.
-/

set_option autoImplicit false

namespace CardRules.Arena

open Act

/-- What happens at the table without burying a permanent moves the arena along `R`. -/
def Quietly (R : Arena → Arena → Prop) : Prop :=
  ∀ (arena : Arena) (table : Table), Table.Quiet arena.table table → R arena { arena with table }

namespace Quietly

variable {R : Arena → Arena → Prop} [Std.Refl R] [IsTrans Arena R]

omit [Std.Refl R] [IsTrans Arena R] in
theorem along_onTable (quietly : Quietly R) {α : Type} {act : Act Table α}
    (h : Along Table.Quiet act) : Along R (onTable act) :=
  h.within quietly

omit [IsTrans Arena R] in
theorem along_payTap (quietly : Quietly R) (cost : Cost) (source : CardId) :
    Along R (payTap cost source) := by
  unfold payTap
  split
  · exact quietly.along_onTable (Table.quiet_frame.along_tap source)
  · exact .pure ()

theorem along_payPlayer (quietly : Quietly R) (cost : Cost) (source : CardId) (controller : PlayerId) :
    Along R (payPlayer cost source controller) := by
  unfold payPlayer
  have hpay := quietly.along_onTable (Table.quiet_frame.along_pay controller cost)
  refine hpay.attempt.bind fun paid => ?_
  cases paid with
  | ok _ => exact .pure ()
  | error fault =>
    dsimp only
    split
    · exact (quietly.along_onTable (Table.quiet_frame.along_untap source)).bind fun _ => .fail _
    · exact .fail _

omit [IsTrans Arena R] in
theorem along_payDiscard (quietly : Quietly R) (cost : Cost) (controller : PlayerId) :
    Along R (payDiscard cost controller) := by
  unfold payDiscard
  split
  · exact quietly.along_onTable (Table.quiet_frame.along_discard controller _)
  · exact .pure ()

end Quietly

/-- The three ways in which effects change an arena move it along `R`. -/
structure Course (R : Arena → Arena → Prop) : Prop where
  table : Quietly R
  destroy (card : CardId) : Along R (Arena.destroy card)
  counter (arena : Arena) (id : ItemId) (items : List StackItem)
    (h : StackItem.counter arena.items id = .ok items) : R arena { arena with items }

namespace Course

variable {R : Arena → Arena → Prop} [Std.Refl R] [IsTrans Arena R]

omit [IsTrans Arena R] in
theorem along_counter (course : Course R) (item : ItemId) : Along R (Arena.counter item) := by
  intro arena
  unfold Arena.counter
  rw [outcome_bind_ok (outcome_get arena)]
  cases hitems : StackItem.counter arena.items item with
  | error fault =>
    rw [outcome_bind_error (outcome_ofExcept _ _)]
    exact Std.Refl.refl arena
  | ok items =>
    rw [outcome_bind_ok (outcome_ofExcept _ _)]
    exact course.counter arena item items hitems

/-- Every kind of effect moves the arena along the course. -/
theorem along_change (course : Course R) (effect : Effect) (context : EffectContext) :
    Along R (change effect context) := by
  unfold change
  dsimp only
  cases effect.kind with
  | drawCards => exact course.table.along_onTable (Table.quiet_frame.along_draw _ _)
  | dealDamage =>
    dsimp only
    split
    · exact course.table.along_onTable (Table.quiet_frame.along_damage _ _ _)
    · exact .fail _
  | gainLife => exact course.table.along_onTable (Table.quiet_frame.along_gainLife _ _)
  | loseLife => exact course.table.along_onTable (Table.quiet_frame.along_loseLife _ _)
  | addMana =>
    exact Along.forM fun yield _ =>
      course.table.along_onTable (Table.quiet_frame.along_addMana _ _ _)
  | pump => exact course.table.along_onTable (Table.quiet_frame.along_pump _ _ _ _)
  | tap => exact course.table.along_onTable (Table.quiet_frame.along_tap _)
  | untap => exact course.table.along_onTable (Table.quiet_frame.along_untap _)
  | mill => exact course.table.along_onTable (Table.quiet_frame.along_mill _ _)
  | destroy =>
    dsimp only
    split
    · exact course.destroy _
    · exact .fail _
  | counterSpell =>
    dsimp only
    split
    · exact course.along_counter _
    · exact .fail _
    · exact .fail _
  | exile | returnToHand | createToken | grantKeyword | entersTapped | modal => exact .fail _

theorem along_applyEffect (course : Course R) (effect : Effect) (context : EffectContext) :
    Along R (applyEffect effect context) :=
  (course.along_change effect context).bind fun _ => .report _ _

theorem along_applyEffects (course : Course R) (effects : List Effect) (context : EffectContext) :
    Along R (applyEffects effects context) := by
  induction effects generalizing context with
  | nil => exact .pure ()
  | cons effect effects ih => exact (course.along_applyEffect effect _).bind fun _ => ih _

end Course

/-- When a card leaves, its abilities are forgotten and triggers are queued. -/
theorem along_leave {R : Arena → Arena → Prop} [Std.Refl R] [IsTrans Arena R]
    (hdrop : ∀ (arena : Arena) (card : CardId), R arena { arena with
      engine := { arena.engine with registry := arena.engine.registry.dropSource card } })
    (hqueue : ∀ (arena : Arena) (trigger : PendingTrigger), R arena { arena with
      engine := { arena.engine with pending := arena.engine.pending ++ [trigger] } })
    (card : CardId) (controller : PlayerId) : Along R (leave card controller) := by
  unfold leave
  -- the card's abilities go first; what triggers is queued from a list made before
  have hforget : Along R (changeRegistry (·.dropSource card)) :=
    .modify fun arena => hdrop arena card
  refine Along.get.bind fun arena => hforget.bind fun _ => ?_
  have hqueued : ∀ triggered rest : List Ability, Along R
      (triggered.forM (fun ability => Arena.queue { ability, controller }) >>= fun _ => pure rest) :=
    fun triggered rest => (Along.forM fun ability _ => (Along.report _ _).bind fun _ =>
      .modify fun arena => hqueue arena _).bind fun _ => .pure rest
  dsimp only
  split
  · exact hqueued _ _
  · exact (Along.report _ _).bind fun _ => hqueued _ _

/-- What destroys a permanent at the table also forgets its abilities. -/
theorem along_destroy {R : Arena → Arena → Prop} [Std.Refl R] [IsTrans Arena R] {card : CardId}
    (htable : Along R (onTable (Table.destroy card)))
    (hleave : ∀ controller, Along R (leave card controller)) : Along R (destroy card) := by
  unfold destroy
  refine Along.get.bind fun arena => htable.bind fun left => ?_
  split
  · split
    · exact (hleave _).discard
    · exact .pure ()
  · exact .pure ()

/-- Of the parts of a cost the sacrifice is the one that is not quiet. -/
theorem along_payCost {R : Arena → Arena → Prop} [Std.Refl R] [IsTrans Arena R]
    (quietly : Quietly R) {cost : Cost} {source : CardId} {controller : PlayerId}
    (hsacrifice : Along R (paySacrifice cost source controller)) :
    Along R (payCost cost source controller) :=
  Along.get.bind fun _ => (Along.ofExcept _).bind fun _ =>
    (quietly.along_payTap cost source).bind fun _ =>
    (quietly.along_payPlayer cost source controller).bind fun _ =>
    (quietly.along_payDiscard cost controller).bind fun _ => hsacrifice

/-- The four ways in which effects and payments change an arena move it along `R`. -/
structure Handling (R : Arena → Arena → Prop) : Prop where
  table (arena : Arena) (table : Table) (h : Table.Keeps arena.table table) :
    R arena { arena with table }
  dropSource (arena : Arena) (card : CardId) :
    R arena { arena with
      engine := { arena.engine with registry := arena.engine.registry.dropSource card } }
  queue (arena : Arena) (trigger : PendingTrigger) :
    R arena { arena with
      engine := { arena.engine with pending := arena.engine.pending ++ [trigger] } }
  counter (arena : Arena) (id : ItemId) (items : List StackItem)
    (h : StackItem.counter arena.items id = .ok items) : R arena { arena with items }

namespace Handling

variable {R : Arena → Arena → Prop} [Std.Refl R] [IsTrans Arena R]

omit [Std.Refl R] [IsTrans Arena R] in
theorem along_onTable (handling : Handling R) {α : Type} {act : Act Table α}
    (h : Along Table.Keeps act) : Along R (onTable act) :=
  h.within handling.table

theorem along_leave (handling : Handling R) (card : CardId) (controller : PlayerId) :
    Along R (leave card controller) :=
  Arena.along_leave handling.dropSource handling.queue card controller

theorem course (handling : Handling R) : Course R where
  table arena table h := handling.table arena table h.keeps
  destroy card := along_destroy (handling.along_onTable (Table.keeps_destroy card))
    (handling.along_leave card)
  counter := handling.counter

theorem along_paySacrifice (handling : Handling R) (cost : Cost) (source : CardId)
    (controller : PlayerId) : Along R (paySacrifice cost source controller) := by
  unfold paySacrifice
  split
  · exact (handling.along_onTable (Table.keeps_sacrifice source)).bind fun _ =>
      (handling.along_leave source controller).discard
  · exact .pure ()

theorem along_payCost (handling : Handling R) (cost : Cost) (source : CardId)
    (controller : PlayerId) : Along R (payCost cost source controller) :=
  Arena.along_payCost handling.course.table (handling.along_paySacrifice cost source controller)

end Handling

/-- The five ways in which the engine changes an arena move it along `R`: the four above, and the
counting of a use. -/
structure Frame (R : Arena → Arena → Prop) : Prop extends Handling R where
  recordUse (arena : Arena) (id : AbilityId) :
    R arena { arena with
      engine := { arena.engine with
        registry := arena.engine.registry.update id Ability.recordUse } }

namespace Frame

variable {R : Arena → Arena → Prop} [Std.Refl R] [IsTrans Arena R]

theorem along_prepare (frame : Frame R) (id : AbilityId) (controller : PlayerId)
    (targets : List Choice) (decision : Decision) :
    Along R (prepare id controller targets decision) := by
  unfold prepare
  refine Along.get.bind fun arena => (Along.require _ _).bind fun ability => ?_
  have hcount : Along R (changeRegistry (·.update id Ability.recordUse)) :=
    .modify fun arena => frame.recordUse arena id
  dsimp only
  split
  · exact (Along.report _ _).bind fun _ => .fail _
  · exact (Along.ofExcept _).bind fun _ => (frame.along_payCost _ _ _).bind fun _ =>
      hcount.bind fun _ => (Along.report _ _).bind fun _ => .pure _

/-- Using an ability moves the arena along the frame, the effects of a mana ability included. -/
theorem along_activate (frame : Frame R) (id : AbilityId) (controller : PlayerId)
    (targets : List Choice) (decision : Decision) :
    Along R (activate id controller targets decision) := by
  unfold activate
  refine (frame.along_prepare id controller targets decision).bind fun ability => ?_
  split
  · exact (frame.course.along_applyEffects _ _).bind fun _ => .pure _
  · exact .pure _

end Frame

/-! ## What lasts at the table -/

/-- What lasts at the table of the arena. -/
def KeepsTable (before after : Arena) : Prop := Table.Keeps before.table after.table

instance : Std.Refl KeepsTable := ⟨fun arena => Std.Refl.refl arena.table⟩

instance : IsTrans Arena KeepsTable := ⟨fun a b c => IsTrans.trans a.table b.table c.table⟩

/-- What happens at the table buries no permanent. -/
def QuietTable (before after : Arena) : Prop := Table.Quiet before.table after.table

instance : Std.Refl QuietTable := ⟨fun arena => Std.Refl.refl arena.table⟩

instance : IsTrans Arena QuietTable := ⟨fun a b c => IsTrans.trans a.table b.table c.table⟩

theorem quietTable_quietly : Quietly QuietTable := fun _ _ h => h

theorem keepsTable_frame : Frame KeepsTable where
  table _ _ h := h
  dropSource arena _ := Std.Refl.refl arena.table
  recordUse arena _ := Std.Refl.refl arena.table
  queue arena _ := Std.Refl.refl arena.table
  counter arena _ _ _ := Std.Refl.refl arena.table

end CardRules.Arena
