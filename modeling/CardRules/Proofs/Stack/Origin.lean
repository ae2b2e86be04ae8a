import CardRules.Proofs.Stack.Casting
import CardRules.Proofs.Stack.Discipline
import CardRules.Proofs.Stack.Venue

/-!
# Where items come from

Every item on the stack was put there by one call. `Call.Puts` lists what a call can put there: an
object that is pushed, a triggered ability, a spell that is cast, an ability that is used. The last two
come with what the stack has asked for, which is priority, and at sorcery speed an empty stack in a
main phase.

Once on the stack an item keeps its place until it leaves. So it is as high as the stack was when it
came, and the call that put it there can be told from its place (`origin_play`).
-/

set_option autoImplicit false

namespace CardRules

open Act

namespace Stack

/-- A new item is on top, at the start of a round. Those below are as they were but for their marks. -/
def Gains (stack : Stack) (item : StackItem) (after : Stack) : Prop :=
  ∃ items, StackItem.Kept stack.items items ∧
    after = reset { stack with items := items ++ [item], nextItem := stack.nextItem.next }

theorem gains_push (stack : Stack) (object : StackObject) (controller : PlayerId)
    (targets : List Choice) (x : Option UInt32) :
    stack.Gains { id := stack.nextItem, object, controller, targets, x }
      (stack.push object controller targets x).2 :=
  ⟨stack.items, .refl _, rfl⟩

end Stack

/-- The items that a call may put on a stack. -/
inductive Call.Puts (call : Call) (stack : Stack) : StackItem → Prop
  | pushed {object : StackObject} {controller : PlayerId} {targets : List Choice}
      {x : Option UInt32} (asked : call.operation = .push object controller targets x) :
      Puts call stack { id := stack.nextItem, object, controller, targets, x }
  | triggered {ability : Ability} {controller : PlayerId} {targets : List Choice}
      (asked : call.operation = .pushTriggered ability controller targets) :
      Puts call stack { id := stack.nextItem, object := .ability ability, controller, targets }
  | cast {spell : Spell} {player : PlayerId} {targets : List Choice} {x : Option UInt32}
      {lenient : Bool} (asked : call.operation = .cast spell player targets x lenient)
      (seated : player ∈ stack.seats) (priority : stack.holder = player)
      (timing : spell.isSorcerySpeed = false ∨
        stack.items = [] ∧ call.table.turn.step.isMain = true) :
      Puts call stack
        { id := stack.nextItem, object := .spell spell, controller := player, targets, x }
  | activated {id : AbilityId} {player : PlayerId} {targets : List Choice} {decision : Decision}
      {ability : Ability} (asked : call.operation = .activate id player targets decision)
      (registered : call.engine.registry.get? id = some ability) (other : ability.isMana = false)
      (seated : player ∈ stack.seats) (priority : stack.holder = player)
      (timing : ability.timing.sorcerySpeed = false ∨
        stack.items = [] ∧ call.table.turn.step.isMain = true) :
      Puts call stack
        { id := stack.nextItem, object := .ability ability.recordUse, controller := player, targets
          x := decision.x }

/-! ## Abilities that wait for their place -/

theorem View.isMain_of_checkTiming {view : View} {timing : Timing} {controller : PlayerId}
    (h : view.checkTiming timing controller = .ok ()) (hsorcery : timing.sorcerySpeed = true) :
    view.table.turn.step.isMain = true := by
  unfold checkTiming at h
  simp only [bind_eq_ok_iff, demand_eq_ok_iff, hsorcery] at h
  simpa using h.1

namespace Scene

variable {scene after : Scene} {player : PlayerId} {targets : List Choice}

theorem gains_of_cast {spell : Spell} {x : Option UInt32} {lenient : Bool} {id : ItemId}
    (h : (cast spell player targets x lenient).outcome scene = (.ok id, after)) :
    id = scene.stack.nextItem ∧
      scene.stack.Gains
        { id := scene.stack.nextItem, object := .spell spell, controller := player, targets, x }
        after.stack := by
  obtain ⟨payer, mana, hcastable⟩ := castable_of_outcome h
  obtain ⟨pool, -, hout⟩ := outcome_cast hcastable lenient
  rw [hout] at h
  obtain ⟨hid, rfl⟩ := Prod.mk.inj h
  exact ⟨(Except.ok.inj hid).symm, scene.stack.items, .refl _, rfl⟩

/-- An ability that is not a mana ability is used with priority, at sorcery speed on an empty stack in
a main phase, and then is on top of the stack. -/
theorem gains_of_activate {id : AbilityId} {decision : Decision} {ability : Ability}
    {answer : Option ItemId} (hregistered : scene.engine.registry.get? id = some ability)
    (hother : ability.isMana = false)
    (h : (activate id player targets decision).outcome scene = (.ok answer, after)) :
    player ∈ scene.stack.seats ∧ scene.stack.holder = player ∧
      (ability.timing.sorcerySpeed = false ∨
        scene.stack.items = [] ∧ scene.table.turn.step.isMain = true) ∧
      answer = some scene.stack.nextItem ∧
      scene.stack.Gains
        { id := scene.stack.nextItem, object := .ability ability.recordUse, controller := player
          targets, x := decision.x } after.stack := by
  cases uses_of_activate h with
  | atOnce _ mana cleared _ _ =>
    obtain rfl := Option.some.inj (hregistered.symm.trans cleared.registered)
    exact absurd (mana.symm.trans hother) nofun
  | @onStack _ cost _ seated _ priority timing cleared payment =>
    obtain rfl := Option.some.inj (hregistered.symm.trans cleared.registered)
    -- the payment may mark spells
    have hkept := Arena.onlyMarks_frame.along_payCost cost ability.source player scene.arena
    rw [payment] at hkept
    refine ⟨seated, priority, ?_, rfl, _, hkept, rfl⟩
    obtain ⟨-, -, htiming, -⟩ := View.checkActivation_eq_ok_iff.mp cleared.allowed
    cases hsorcery : ability.timing.sorcerySpeed with
    | false => exact .inl rfl
    | true =>
      rw [hsorcery] at timing
      exact .inr ⟨by simpa using timing, View.isMain_of_checkTiming htiming hsorcery⟩

/-- What comes with a number was no mana ability. -/
theorem registered_of_activate {id : AbilityId} {decision : Decision} {new : ItemId}
    (h : (activate id player targets decision).outcome scene = (.ok (some new), after)) :
    ∃ ability, scene.engine.registry.get? id = some ability ∧ ability.isMana = false := by
  cases uses_of_activate h with
  | onStack _ other _ _ cleared _ => exact ⟨_, cleared.registered, other⟩

end Scene

namespace Call

variable {call : Call} {stack : Stack}

/-- If a call succeeds, so does what is carried out for it. -/
theorem outcome_of_answer {α : Type} {act : Scene.Move α} {wrap : α → Answer} {answer : Answer}
    (hperform : call.operation.perform = wrap <$> act) (h : call.answer stack = .ok answer) :
    ∃ a, act.outcome (call.scene stack) = (.ok a, (call.run stack).state) ∧ wrap a = answer := by
  have hout : (wrap <$> act).outcome (call.scene stack) = (.ok answer, (call.run stack).state) := by
    rw [← hperform]
    exact Prod.ext h rfl
  rw [outcome_map] at hout
  obtain ⟨hanswer, hstate⟩ := Prod.mk.inj hout
  cases hresult : (act.outcome (call.scene stack)).1 with
  | error fault =>
    rw [hresult] at hanswer
    simp [Except.map] at hanswer
  | ok a =>
    rw [hresult] at hanswer
    exact ⟨a, Prod.ext hresult hstate, Except.ok.inj hanswer⟩

/-- A call for a push has put the object on top. -/
theorem gains_of_push {act : Scene.Move ItemId} {object : StackObject} {controller : PlayerId}
    {targets : List Choice} {x : Option UInt32} {id : ItemId}
    (hperform : call.operation.perform = Answer.item <$> act)
    (hpush : act.outcome (call.scene stack) = (.ok stack.nextItem,
      { call.scene stack with stack := (stack.push object controller targets x).2 }))
    (h : call.answer stack = .ok (.item id)) :
    stack.nextItem = id ∧
      stack.Gains { id := stack.nextItem, object, controller, targets, x } (call.after stack) := by
  obtain ⟨new, hout, hid⟩ := outcome_of_answer hperform h
  obtain ⟨hnew, hstate⟩ := Prod.mk.inj (hpush.symm.trans hout)
  refine ⟨(Except.ok.inj hnew).trans (Answer.item.inj hid), ?_⟩
  have hafter : call.after stack = (stack.push object controller targets x).2 :=
    congrArg Scene.stack hstate.symm
  rw [hafter]
  exact stack.gains_push object controller targets x

/-- A call that answers the number of an item has put it on top. -/
theorem puts_of_answer {id : ItemId} (h : call.answer stack = .ok (.item id)) :
    ∃ item, item.id = id ∧ item.countered = false ∧ call.Puts stack item ∧
      stack.Gains item (call.after stack) := by
  cases hop : call.operation with
  | push object controller targets x =>
    obtain ⟨hid, hgains⟩ := gains_of_push (by rw [hop]; rfl) rfl h
    exact ⟨_, hid, rfl, .pushed hop, hgains⟩
  | pushTriggered ability controller targets =>
    obtain ⟨hid, hgains⟩ := gains_of_push (by rw [hop]; rfl) rfl h
    exact ⟨_, hid, rfl, .triggered hop, hgains⟩
  | cast spell player targets x lenient =>
    obtain ⟨new, hout, hid⟩ := outcome_of_answer (by rw [hop]; rfl) h
    obtain ⟨payer, mana, hcastable⟩ := Scene.castable_of_outcome hout
    obtain ⟨hnew, hgains⟩ := Scene.gains_of_cast hout
    rw [← Answer.item.inj hid, hnew]
    exact ⟨_, rfl, rfl, .cast hop hcastable.seated hcastable.priority hcastable.timing, hgains⟩
  | activate ability player targets decision =>
    obtain ⟨new?, hout, hid⟩ := outcome_of_answer (by rw [hop]; rfl) h
    cases new? with
    | none => simp at hid
    | some new =>
      obtain ⟨registered, hregistered, hother⟩ := Scene.registered_of_activate hout
      obtain ⟨hseated, hpriority, htiming, hnew, hgains⟩ :=
        Scene.gains_of_activate hregistered hother hout
      rw [← Answer.item.inj hid, Option.some.inj hnew]
      exact ⟨_, rfl, rfl, .activated hop hregistered hother hseated hpriority htiming, hgains⟩
  | pass _ | resolveTop | counter _ _ | setActive _ =>
    obtain ⟨_, -, hid⟩ := outcome_of_answer (by rw [hop]; rfl) h
    simp at hid

end Call

/-! ## Places -/

namespace Stack

/-- The items with no mark on them, bottom first. -/
def unmarked (stack : Stack) : List StackItem := stack.items.map StackItem.unmarked

theorem isPrefix_of_items {stack : Stack} {below above : List StackItem} {item : StackItem}
    (h : stack.items = below ++ item :: above) :
    below.map StackItem.unmarked ++ [item.unmarked] <+: stack.unmarked := by
  rw [unmarked, h]
  exact ⟨above.map StackItem.unmarked, by simp⟩

theorem Gains.unmarked_eq {stack after : Stack} {item : StackItem} (h : stack.Gains item after)
    (hfresh : item.countered = false) : after.unmarked = stack.unmarked ++ [item] := by
  obtain ⟨items, hkept, rfl⟩ := h
  show (items ++ [item]).map StackItem.unmarked = _
  rw [List.map_append, hkept.unmarked, List.map_singleton, StackItem.unmarked, ← hfresh]
  rfl

/-- A step that brings no item lets items leave from the top at most. -/
theorem Step.isPrefix_unmarked {stack after : Stack} {operation : Operation} {deed : Deed}
    (hstep : Step stack operation deed after) (h : deed.pushed? = none) :
    after.unmarked <+: stack.unmarked := by
  cases hstep with
  | nothing kept stays =>
    rw [unmarked, kept.unmarked]
    exact List.prefix_rfl
  | pushed kept number fresh stays => simp [Deed.pushed?] at h
  | resolved shape kept leaves =>
    rw [unmarked, unmarked, shape, List.map_append, ← kept.unmarked]
    exact List.prefix_append ..
  | handedOn seated waiting stays => exact List.prefix_rfl
  | roundOver empty stays => exact List.prefix_rfl
  | madeActive seated stays => exact List.prefix_rfl

end Stack

/-- A call lets items leave from the top, or puts one there. -/
theorem Call.unmarked_after (call : Call) (stack : Stack) :
    (call.after stack).unmarked <+: stack.unmarked ∨
      ∃ item, call.Puts stack item ∧ (call.after stack).unmarked = stack.unmarked ++ [item] := by
  cases hpushed : (call.deed stack).pushed? with
  | none => exact .inl ((call.step stack).isPrefix_unmarked hpushed)
  | some id =>
    right
    rw [call.deed_pushed?, Option.bind_eq_some_iff] at hpushed
    obtain ⟨answer, hanswer, hnumber⟩ := hpushed
    obtain rfl := Answer.eq_item_of_number? hnumber
    have hanswer : call.answer stack = .ok (.item id) := by
      cases hresult : call.answer stack with
      | error fault =>
        rw [hresult] at hanswer
        simp [Except.toOption] at hanswer
      | ok answer =>
        rw [hresult] at hanswer
        rw [Option.some.inj hanswer]
    obtain ⟨item, -, hfresh, hputs, hgains⟩ := puts_of_answer hanswer
    exact ⟨item, hputs, hgains.unmarked_eq hfresh⟩

namespace Stack

/-- What is on the stack came with some call, on top of what is below it now, and has been there
since. -/
theorem origin_play {start : Stack} (hempty : start.items = []) (calls : List Call)
    {below : List StackItem} {item : StackItem}
    (h : below ++ [item] <+: (start.play calls).unmarked) :
    ∃ earlier call rest, calls = earlier ++ call :: rest ∧
      (start.play earlier).unmarked = below ∧ call.Puts (start.play earlier) item ∧
      ∀ later, later <+: rest →
        below ++ [item] <+: (start.play (earlier ++ call :: later)).unmarked := by
  -- on the last call: it has brought the item, or the item was there before it
  induction calls using List.reverseRecOn with
  | nil =>
    have hnone : (start.play []).unmarked = [] := congrArg (List.map StackItem.unmarked) hempty
    rw [hnone] at h
    simp at h
  | append_singleton calls call ih =>
    have hbefore (hold : below ++ [item] <+: (start.play calls).unmarked) :
        ∃ earlier first rest, calls ++ [call] = earlier ++ first :: rest ∧
          (start.play earlier).unmarked = below ∧ first.Puts (start.play earlier) item ∧
          ∀ later, later <+: rest →
            below ++ [item] <+: (start.play (earlier ++ first :: later)).unmarked := by
      obtain ⟨earlier, first, rest, rfl, hbelow, hputs, hstays⟩ := ih hold
      refine ⟨earlier, first, rest ++ [call], by simp, hbelow, hputs, ?_⟩
      intro later hlater
      rcases List.prefix_concat_iff.mp hlater with rfl | hlater
      · rw [← List.cons_append, ← List.append_assoc]
        exact h
      · exact hstays later hlater
    have hafter := h
    rw [play_append_singleton] at hafter
    rcases call.unmarked_after (start.play calls) with hleaves | ⟨new, hputs, hnew⟩
    · exact hbefore (hafter.trans hleaves)
    · rw [hnew, List.prefix_concat_iff] at hafter
      rcases hafter with htop | hold
      · obtain ⟨rfl, hitem⟩ := List.append_inj' htop rfl
        obtain rfl := List.head_eq_of_cons_eq hitem
        refine ⟨calls, call, [], rfl, rfl, hputs, ?_⟩
        intro later hlater
        obtain rfl := List.prefix_nil.mp hlater
        exact h
      · exact hbefore hold

theorem origin_of_mem {start : Stack} {item : StackItem} (hempty : start.items = []) (calls : List Call)
    (hitem : item ∈ (start.play calls).items) :
    ∃ earlier call rest, calls = earlier ++ call :: rest ∧
      call.Puts (start.play earlier) item.unmarked := by
  obtain ⟨below, above, hsplit⟩ := List.append_of_mem hitem
  obtain ⟨earlier, call, rest, hcalls, -, hputs, -⟩ :=
    origin_play hempty calls (isPrefix_of_items hsplit)
  exact ⟨earlier, call, rest, hcalls, hputs⟩

end Stack

end CardRules
