import CardRules.Proofs.Engine.FixX
import CardRules.Proofs.Engine.Spending
import CardRules.Proofs.Stack.Countered
import CardRules.Proofs.Stack.Origin

/-!
# X is paid for and applied

Whoever casts a spell or uses an ability with X in its cost chooses a value of X. The value is folded
into the cost that is paid, it waits with the item on the stack, and it is what X stands for when the
effects are applied. These are far apart: a mana ability takes effect in the same call, but any other
item first waits its turn, while others come and go on top of it and mark it or not.

What waits is what came (`prefix_of_staysAbove`): as long as the stack is higher than the place of an
item, the item is there. So it resolves under the value that has been paid for
(`chosen_x_paid_and_applied`).
-/

set_option autoImplicit false

namespace CardRules

open Act

/-! ## Folding X into a cost -/

/-- The mana cost of an object. -/
def StackObject.manaCost : StackObject → ManaCost
  | spell s => s.manaCost
  | ability a => a.cost.mana

/-- The object as it goes on the stack, where a use of an ability has been counted. -/
def StackObject.used : StackObject → StackObject
  | spell s => spell s
  | ability a => ability a.recordUse

namespace Cost

variable {cost fixed : Cost} {x : Option UInt32}

theorem withX_of_fixX (h : cost.fixX x = .ok fixed) :
    cost.mana.withX (x.getD 0) = some fixed.mana := by
  obtain ⟨mana, hmana, rfl⟩ := fixX_eq_ok_iff.mp h
  exact hmana

theorem fixX_of_excess {value : UInt32} (h : cost.mana.withX value = none) :
    cost.fixX (some value) = .error (.denied .cannotPayCost) := by
  unfold fixX withX
  rw [Option.getD_some, h]
  rfl

end Cost

/-- An attempt with too large an X is refused, on that account if the other checks are passed. -/
theorem Arena.outcome_activate_excess {arena : Arena} {id : AbilityId} {ability : Ability}
    {value : UInt32} (hregistered : arena.engine.registry.get? id = some ability)
    (hexcess : ability.cost.mana.withX value = none) (controller : PlayerId) (targets : List Choice)
    (color : Option Color) :
    ∃ fault, (activate id controller targets { x := some value, color }).outcome arena =
        (.error fault, arena) ∧
      (arena.checkActivation arena.engine.rules ability controller = .ok () →
        fault = .denied .cannotPayCost) := by
  have hchecked : ∃ fault, (do
        arena.checkActivation arena.engine.rules ability controller
        ability.cost.fixX (some value)) = (.error fault : Except Fault Cost) ∧
      (arena.checkActivation arena.engine.rules ability controller = .ok () →
        fault = .denied .cannotPayCost) := by
    rw [Cost.fixX_of_excess hexcess]
    cases arena.checkActivation arena.engine.rules ability controller with
    | error fault => exact ⟨fault, rfl, nofun⟩
    | ok _ => exact ⟨_, rfl, fun _ => rfl⟩
  obtain ⟨fault, hchecked, hfault⟩ := hchecked
  refine ⟨fault, ?_, hfault⟩
  have hprepare : (prepare id controller targets { x := some value, color }).outcome arena =
      (.error fault, arena) := by
    unfold prepare
    rw [outcome_bind_ok (outcome_get arena), hregistered,
      outcome_bind_ok (outcome_require_some _ _ _)]
    dsimp only
    rw [hchecked]
    rfl
  unfold activate
  rw [outcome_bind_error hprepare]

namespace Scene

variable {scene : Scene} {id : AbilityId} {player : PlayerId} {targets : List Choice}

/-- What the arena refuses without a trace is refused without a trace. -/
theorem outcome_activate_failing {arena : Arena} {decision : Decision} {fault : Fault}
    (hvenue : scene.venue? id player = some arena)
    (h : (Arena.activate id player targets decision).outcome arena = (.error fault, arena)) :
    (activate id player targets decision).outcome scene = (.error fault, scene) := by
  obtain ⟨ability, hregistered, hseated,
    ⟨hmana, rfl⟩ | ⟨hother, hholder, htiming, rfl⟩⟩ := venue?_eq_some_iff.mp hvenue
  · rw [outcome_activate_mana hseated hregistered hmana, h]
    rfl
  · rw [outcome_activate_other hseated hregistered hother hholder htiming, h]
    rfl

/-- A spell with too large an X is refused, on that account if the tests before are passed. -/
theorem outcome_cast_excess {spell : Spell} {value : UInt32}
    (hexcess : spell.manaCost.withX value = none) (scene : Scene) (player : PlayerId)
    (targets : List Choice) (lenient : Bool) :
    ∃ fault, (cast spell player targets (some value) lenient).outcome scene = (.error fault, scene) ∧
      (scene.stack.checkPriority player = .ok () →
        scene.stack.canCast scene.table spell player = true →
        scene.arena.validateTargets scene.engine.rules spell.targets targets player
          spell.manaCost.colors = .ok () → fault = .denied .cannotPayCost) := by
  unfold cast
  rw [outcome_bind_ok (outcome_get scene)]
  cases hpriority : scene.stack.checkPriority player with
  | error fault => exact ⟨fault, outcome_bind_error (outcome_ofExcept _ _) _, nofun⟩
  | ok _ =>
    rw [outcome_bind_ok (outcome_ofExcept _ _)]
    by_cases htiming : scene.stack.canCast scene.table spell player = true
    · rw [if_pos htiming]
      cases hvalid : scene.arena.validateTargets scene.engine.rules spell.targets targets player
        spell.manaCost.colors with
      | error fault => exact ⟨fault, outcome_bind_error (outcome_ofExcept _ _) _, nofun⟩
      | ok _ =>
        rw [outcome_bind_ok (outcome_ofExcept _ _), Option.getD_some, hexcess]
        exact ⟨_, outcome_bind_error (outcome_require_none _ _) _, fun _ _ _ => rfl⟩
    · rw [if_neg htiming]
      exact ⟨_, outcome_bind_error (outcome_fail _ _) _, fun _ h => absurd h htiming⟩

end Scene

/-! ## Waiting -/

namespace Stack

/-- All the while, more than a number of items are on the stack. -/
def StaysAbove (stack : Stack) (height : Nat) (calls : List Call) : Prop :=
  ∀ done, done <+: calls → height < (stack.play done).items.length

theorem length_unmarked (stack : Stack) : stack.unmarked.length = stack.items.length :=
  List.length_map _

/-- What is in its place stays there as long as the stack is higher than that. -/
theorem prefix_of_staysAbove {stack : Stack} {below : List StackItem} {item : StackItem}
    (hplaced : below ++ [item] <+: stack.unmarked) {calls : List Call}
    (hstays : stack.StaysAbove below.length calls) :
    below ++ [item] <+: (stack.play calls).unmarked := by
  -- on the last call: it takes items off above this one, or puts one there
  induction calls using List.reverseRecOn with
  | nil => exact hplaced
  | append_singleton calls call ih =>
    have hbefore := ih fun done hdone => hstays done (hdone.trans (List.prefix_append ..))
    have hhigh := hstays _ List.prefix_rfl
    rw [play_append_singleton] at hhigh ⊢
    rcases call.unmarked_after (stack.play calls) with hleaves | ⟨new, -, hnew⟩
    · refine List.prefix_of_prefix_length_le hbefore hleaves ?_
      rw [List.length_append, length_unmarked]
      exact hhigh
    · rw [hnew]
      exact hbefore.trans (List.prefix_append ..)

/-- On a stack that is just as high as its place an item is on top. -/
theorem top_of_prefix {stack : Stack} {below : List StackItem} {item : StackItem}
    (hplaced : below ++ [item] <+: stack.unmarked)
    (hheight : stack.items.length = below.length + 1) :
    ∃ top, stack.top? = some top ∧ top.unmarked = item := by
  have hall : below ++ [item] = stack.unmarked := by
    refine hplaced.eq_of_length ?_
    rw [length_unmarked, hheight, List.length_append, List.length_singleton]
  have hlast : stack.unmarked.getLast? = some item := by
    rw [← hall, List.getLast?_concat]
  rw [unmarked, List.getLast?_map, Option.map_eq_some_iff] at hlast
  exact hlast

end Stack

/-- The call takes the top item off and resolves an item in its place. -/
def Call.ResolvesAs (call : Call) (stack : Stack) (item : StackItem) : Prop :=
  let resolved := (Scene.resolveItem item).outcome (call.scene stack.pop)
  call.resolution? stack = resolved.1.toOption ∧
    (call.run stack).state = { resolved.2 with stack := resolved.2.stack.reset }

theorem Call.resolvesAs_top {call : Call} {stack : Stack} {top : StackItem}
    (htop : stack.top? = some top) (hresolves : stack.resolves call.operation = true) :
    call.ResolvesAs stack top := by
  have htop : (call.scene stack).stack.top? = some top := htop
  rcases call.resolves_cases stack with ⟨-, htold, hstate⟩ | ⟨hother, -⟩
  · rw [Scene.outcome_resolveTop_some htop] at htold hstate
    exact ⟨htold, hstate⟩
  · exact absurd (hresolves.symm.trans hother) nofun

theorem Call.resolvesAs_fixX {call : Call} {stack : Stack} {item : StackItem} {value : UInt32}
    (hsmall : value.toNat ≤ 255) (hx : item.x = some value) (h : call.ResolvesAs stack item) :
    call.ResolvesAs stack (item.fixX value) := by
  unfold ResolvesAs
  rw [Scene.outcome_resolveItem_fixX hsmall hx]
  exact h

/-! ## What becomes of X -/

namespace Call

/-- The call is for an object, to be cast or used by a player with these targets and this value of X. -/
inductive Announces (call : Call) (player : PlayerId) (targets : List Choice) (value : UInt32) :
    StackObject → Prop
  | cast {spell : Spell} {lenient : Bool}
      (asked : call.operation = .cast spell player targets (some value) lenient) :
      Announces call player targets value (.spell spell)
  | activate {id : AbilityId} {color : Option Color} {ability : Ability}
      (asked : call.operation = .activate id player targets { x := some value, color })
      (registered : call.engine.registry.get? id = some ability) :
      Announces call player targets value (.ability ability)

/-- The call passes every check before the value of X is looked at. -/
inductive Unhindered (call : Call) (stack : Stack) : Prop
  | cast {spell : Spell} {player : PlayerId} {targets : List Choice} {x : Option UInt32}
      {lenient : Bool} (asked : call.operation = .cast spell player targets x lenient)
      (priority : stack.checkPriority player = .ok ())
      (timing : stack.canCast call.table spell player = true)
      (valid : (call.scene stack).arena.validateTargets call.engine.rules spell.targets targets player
        spell.manaCost.colors = .ok ())
  | activate {id : AbilityId} {player : PlayerId} {targets : List Choice} {decision : Decision}
      {ability : Ability} {arena : Arena}
      (asked : call.operation = .activate id player targets decision)
      (registered : call.engine.registry.get? id = some ability)
      (venue : (call.scene stack).venue? id player = some arena)
      (allowed : arena.checkActivation arena.engine.rules ability player = .ok ())

/-- Where X goes with a call that succeeds: the table that its payment leaves, and what the object
does under the value. -/
inductive Applies (call : Call) (stack : Stack) (player : PlayerId) (targets : List Choice)
    (value : UInt32) : StackObject → Table → Prop
  /-- A mana ability takes effect on what its payment has left, with X written out. -/
  | atOnce {id : AbilityId} {color : Option Color} {ability : Ability} {paid used : Arena}
      (asked : call.operation = .activate id player targets { x := some value, color })
      (mana : ability.isMana = true)
      (payment : (Arena.prepare id player targets { x := some value, color }).outcome
        ((call.scene stack).bareArena false) = (.ok ability.recordUse, paid))
      (effects : (Arena.applyEffects (ability.effects.map (Effect.fixX value))
        { controller := player, source := ability.source, targets, color
          oracleText := ability.oracleText }).outcome paid = (.ok (), used))
      (state : (call.run stack).state = { table := used.table, engine := used.engine, stack }) :
      Applies call stack player targets value (.ability ability) paid.table
  /-- Anything else comes on top with its X, and when its turn comes it resolves with X written out,
  whatever has been asked for in the meantime. -/
  | waiting {object : StackObject} {item : StackItem}
      (new : item = { id := stack.nextItem, object := object.used, controller := player, targets
                      x := some value })
      (placed : (call.after stack).unmarked = stack.unmarked ++ [item])
      (resolves : ∀ (calls : List Call) (last : Call),
        (call.after stack).StaysAbove stack.items.length calls →
        ((call.after stack).play calls).items.length = stack.items.length + 1 →
        ((call.after stack).play calls).resolves last.operation = true →
        ∃ top, ((call.after stack).play calls).top? = some top ∧ top.unmarked = item ∧
          last.ResolvesAs ((call.after stack).play calls) (top.fixX value)) :
      Applies call stack player targets value object (call.run stack).state.table

variable {call : Call} {stack : Stack} {player : PlayerId} {targets : List Choice} {value : UInt32}
  {object : StackObject}

/-! ### Too large an X -/

theorem refused_of_perform {α : Type} {act : Scene.Move α} {wrap : α → Answer} {fault : Fault}
    (hperform : call.operation.perform = wrap <$> act)
    (h : act.outcome (call.scene stack) = (.error fault, call.scene stack)) :
    call.answer stack = .error fault ∧ (call.run stack).state = call.scene stack := by
  have hout : call.operation.perform.outcome (call.scene stack) =
      (.error fault, call.scene stack) := by
    rw [hperform, outcome_map, h]
    rfl
  exact ⟨congrArg Prod.fst hout, congrArg Prod.snd hout⟩

theorem refused_of_excess (hasked : call.Announces player targets value object)
    (hexcess : object.manaCost.withX value = none) (stack : Stack) :
    ∃ fault, call.answer stack = .error fault ∧ (call.run stack).state = call.scene stack ∧
      (call.Unhindered stack → fault = .denied .cannotPayCost) := by
  cases hasked with
  | @cast spell lenient asked =>
    obtain ⟨fault, hout, hfault⟩ :=
      Scene.outcome_cast_excess hexcess (call.scene stack) player targets lenient
    obtain ⟨hanswer, hstate⟩ := refused_of_perform (by rw [asked]; rfl) hout
    refine ⟨fault, hanswer, hstate, ?_⟩
    rintro (⟨asked', priority, timing, valid⟩ | ⟨asked', -, -, -⟩)
    · obtain ⟨rfl, rfl, rfl, rfl, rfl⟩ := Operation.cast.inj (asked.symm.trans asked')
      exact hfault priority timing valid
    · simp [asked] at asked'
  | @activate id color ability asked registered =>
    cases hvenue : (call.scene stack).venue? id player with
    | none =>
      obtain ⟨fault, hout⟩ := Scene.outcome_activate_refused hvenue targets { x := some value, color }
      obtain ⟨hanswer, hstate⟩ := refused_of_perform (by rw [asked]; rfl) hout
      refine ⟨fault, hanswer, hstate, ?_⟩
      rintro (⟨asked', -, -, -⟩ | ⟨asked', -, venue, -⟩)
      · simp [asked] at asked'
      · obtain ⟨rfl, rfl, -, -⟩ := Operation.activate.inj (asked.symm.trans asked')
        rw [hvenue] at venue
        simp at venue
    | some arena =>
      have hregistered : arena.engine.registry.get? id = some ability := by
        rw [Scene.engine_of_venue hvenue]
        exact registered
      obtain ⟨fault, hout, hfault⟩ :=
        Arena.outcome_activate_excess hregistered hexcess player targets color
      obtain ⟨hanswer, hstate⟩ :=
        refused_of_perform (by rw [asked]; rfl) (Scene.outcome_activate_failing hvenue hout)
      refine ⟨fault, hanswer, hstate, ?_⟩
      rintro (⟨asked', -, -, -⟩ | ⟨asked', registered', venue, allowed⟩)
      · simp [asked] at asked'
      · obtain ⟨rfl, rfl, -, -⟩ := Operation.activate.inj (asked.symm.trans asked')
        obtain rfl := Option.some.inj (hvenue.symm.trans venue)
        obtain rfl := Option.some.inj (registered.symm.trans registered')
        exact hfault allowed

/-! ### An X that is paid for -/

theorem applies_of_gains (hsmall : value.toNat ≤ 255) {item : StackItem}
    (hnew : item = { id := stack.nextItem, object := object.used, controller := player, targets
                     x := some value })
    (hgains : stack.Gains item (call.after stack)) :
    call.Applies stack player targets value object (call.run stack).state.table := by
  have hplaced : (call.after stack).unmarked = stack.unmarked ++ [item] :=
    hgains.unmarked_eq (by rw [hnew])
  refine .waiting hnew hplaced fun calls last hstays hheight hresolves => ?_
  rw [← stack.length_unmarked] at hstays hheight
  have hthere := Stack.prefix_of_staysAbove ⟨[], by rw [List.append_nil, hplaced]⟩ hstays
  obtain ⟨top, htop, hsame⟩ := Stack.top_of_prefix hthere hheight
  have hx : top.x = some value := by
    show top.unmarked.x = some value
    rw [hsame, hnew]
  exact ⟨top, htop, hsame, resolvesAs_fixX hsmall hx (resolvesAs_top htop hresolves)⟩

/-- A spell that is cast has been paid for with its X. -/
theorem applies_cast {spell : Spell} {lenient : Bool} {answer : Answer}
    (asked : call.operation = .cast spell player targets (some value) lenient)
    (hx : 0 < spell.manaCost.x) (h : call.answer stack = .ok answer) :
    ∃ mana paid, spell.manaCost.withX value = some mana ∧
      call.Applies stack player targets value (.spell spell) paid ∧
      (mana.generic.toNat + mana.colored ≤ 255 →
        call.table.Spends paid player (mana.generic.toNat + mana.colored)) := by
  obtain ⟨id, hout, -⟩ := outcome_of_answer (by rw [asked]; rfl) h
  obtain ⟨payer, mana, hcastable⟩ := Scene.castable_of_outcome hout
  obtain ⟨pool, hpool, hcast⟩ := Scene.outcome_cast hcastable lenient
  obtain ⟨-, hgains⟩ := Scene.gains_of_cast hout
  obtain ⟨-, hstate⟩ := Prod.mk.inj (hout.symm.trans hcast)
  have hsmall : value.toNat ≤ 255 := ManaCost.small_of_withX hx hcastable.cost
  refine ⟨mana, _, hcastable.cost, applies_of_gains hsmall rfl hgains, fun hsum => ?_⟩
  rw [hstate]
  exact Table.spends_of_paid hcastable.pays rfl hpool hsum

/-- An ability that is used has been paid for with its X. -/
theorem applies_activate {id : AbilityId} {color : Option Color} {ability : Ability}
    {answer : Answer}
    (asked : call.operation = .activate id player targets { x := some value, color })
    (registered : call.engine.registry.get? id = some ability) (hx : 0 < ability.cost.mana.x)
    (h : call.answer stack = .ok answer) :
    ∃ mana paid, ability.cost.mana.withX value = some mana ∧
      call.Applies stack player targets value (.ability ability) paid ∧
      (mana.generic.toNat + mana.colored ≤ 255 →
        call.table.Spends paid player (mana.generic.toNat + mana.colored)) := by
  obtain ⟨number?, hout, -⟩ := outcome_of_answer (by rw [asked]; rfl) h
  generalize hstate : (call.run stack).state = after at hout
  cases Scene.uses_of_activate hout with
  | @atOnce _ cost paid used seated mana cleared payment effects =>
    obtain rfl := Option.some.inj (registered.symm.trans cleared.registered)
    have hmana := Cost.withX_of_fixX cleared.fixed
    refine ⟨cost.mana, (paid.counted id).table, hmana, ?_, Arena.spends_of_payCost payment⟩
    rw [Arena.resolveAbility, ← Arena.applyEffects_fixX (ManaCost.small_of_withX hx hmana) _ rfl] at effects
    exact .atOnce asked mana
      (Arena.prepare_eq_ok.mpr ⟨ability, cost, paid, cleared, payment, rfl, rfl⟩) effects hstate
  | @onStack _ cost paid seated other priority timing cleared payment =>
    obtain rfl := Option.some.inj (registered.symm.trans cleared.registered)
    have hmana := Cost.withX_of_fixX cleared.fixed
    refine ⟨cost.mana, (call.run stack).state.table, hmana, ?_, ?_⟩
    · obtain ⟨-, -, -, -, hgains⟩ := Scene.gains_of_activate registered other hout
      rw [← hstate] at hgains
      exact applies_of_gains (ManaCost.small_of_withX hx hmana) rfl hgains
    · rw [hstate]
      exact Arena.spends_of_payCost payment

/-- X paid is X applied. Whatever spell is cast or ability used, in every game and by whichever player,
with X in its cost and a value chosen for it: if the generic mana with X folded in exceeds what a cost
can hold, the call fails, nothing changes, and if no other check fails it is because the cost cannot be
paid. If the call succeeds, its payment takes just the mana that the cost comes to out of the player's
pool, as long as that is no more than 255, and the effects are applied with this value written in place
of X: at once for a mana ability, and for anything else when its turn comes to resolve, whatever calls
have been made in the meantime. -/
theorem chosen_x_paid_and_applied (hasked : call.Announces player targets value object)
    (hx : 0 < object.manaCost.x) (stack : Stack) :
    (255 < object.manaCost.due value →
      ∃ fault, call.answer stack = .error fault ∧ (call.run stack).state = call.scene stack ∧
        (call.Unhindered stack → fault = .denied .cannotPayCost)) ∧
    ∀ answer, call.answer stack = .ok answer →
      ∃ paid, call.Applies stack player targets value object paid ∧
        (object.manaCost.due value + object.manaCost.colored ≤ 255 →
          call.table.Spends paid player (object.manaCost.due value + object.manaCost.colored)) ∧
        ∀ effect ∈ object.effects, effect.isVariable = true →
          (effect.amount (some value)).toInt = value.toNat := by
  refine ⟨fun hexcess => ?_, fun answer hanswer => ?_⟩
  · exact refused_of_excess hasked (ManaCost.withX_eq_none_iff.mpr hexcess) stack
  · have hpaid : ∃ mana paid, object.manaCost.withX value = some mana ∧
        call.Applies stack player targets value object paid ∧
        (mana.generic.toNat + mana.colored ≤ 255 →
          call.table.Spends paid player (mana.generic.toNat + mana.colored)) := by
      cases hasked with
      | cast asked => exact applies_cast asked hx hanswer
      | activate asked registered => exact applies_activate asked registered hx hanswer
    obtain ⟨mana, paid, hmana, happlies, hspends⟩ := hpaid
    obtain ⟨hdue, hcolored⟩ := ManaCost.due_of_withX hmana
    rw [hdue, hcolored] at hspends
    have hsmall : value.toNat ≤ 255 := ManaCost.small_of_withX hx hmana
    refine ⟨paid, happlies, hspends, fun effect _ hvariable => ?_⟩
    rw [Effect.amount_of_variable hsmall hvariable, Effect.toInt_ofNat_small hsmall]

/-- The first player of the game with four red mana casts the spell for X and one red mana. -/
def castBlaze (value : UInt32) : Call where
  operation := .cast Scene.blaze ⟨1⟩ [.player ⟨2⟩] (some value) false
  table := Scene.fourRed.table
  engine := Scene.fourRed.engine

/-- With X as two it takes three mana, and an X of three hundred cannot be paid for. -/
theorem chosen_x_paid_and_applied_blaze :
    (∃ paid, (castBlaze 2).Applies Scene.fourRed.stack ⟨1⟩ [.player ⟨2⟩] 2 (.spell Scene.blaze) paid ∧
      Scene.fourRed.table.Spends paid ⟨1⟩ 3) ∧
      (castBlaze 300).answer Scene.fourRed.stack = .error (.denied .cannotPayCost) := by
  have hasked (value : UInt32) :
      (castBlaze value).Announces ⟨1⟩ [.player ⟨2⟩] value (.spell Scene.blaze) := .cast rfl
  have hfew : (castBlaze 2).answer Scene.fourRed.stack = .ok (.item ⟨1⟩) := by rfl
  have hunhindered : (castBlaze 300).Unhindered Scene.fourRed.stack :=
    .cast rfl (by rfl) (by rfl) (by rfl)
  obtain ⟨paid, happlies, hspends, -⟩ :=
    (chosen_x_paid_and_applied (hasked 2) (by decide) Scene.fourRed.stack).2 _ hfew
  obtain ⟨fault, hanswer, -, hfault⟩ :=
    (chosen_x_paid_and_applied (hasked 300) (by decide) Scene.fourRed.stack).1 (by decide)
  refine ⟨⟨paid, happlies, hspends (by decide)⟩, ?_⟩
  rw [hanswer, hfault hunhindered]

end Call

end CardRules
