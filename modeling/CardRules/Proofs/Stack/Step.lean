import CardRules.Proofs.Stack.Call
import CardRules.Proofs.Stack.Moves

/-!
# What a call can do to a stack

`Stack.Step` says once what each deed amounts to: which items come and go, who has passed, who
holds priority. `Call.step` is the inversion that every fact about runs starts from: whatever is
asked, with whatever table and engine, the stack after the call is related to the stack before by
the step of the call's deed.
-/

set_option autoImplicit false

namespace CardRules

/-- Whether an operation is a resolution: of the top item, either asked for or because the pass of
the holder completes a round. -/
def Stack.resolves (stack : Stack) : Operation → Bool
  | .resolveTop => !stack.items.isEmpty
  | .pass player =>
    (stack.checkPriority player).isOk && (stack.notePass player).allPassed && !stack.items.isEmpty
  | _ => false

theorem Stack.resolves_pass {stack : Stack} (h : stack.holder ∈ stack.seats) :
    stack.resolves (.pass stack.holder) =
      ((stack.notePass stack.holder).allPassed && !stack.items.isEmpty) := by
  rw [resolves, Scene.checkPriority_holder h]
  rfl

/-- What an operation with a deed does to a stack. Apart from what is said here, spells may be
marked as countered. -/
inductive Stack.Step (stack : Stack) (operation : Operation) : Deed → Stack → Prop
  | nothing {items : List StackItem} (kept : StackItem.Kept stack.items items)
      (stays : stack.resolves operation = false) :
    Step stack operation .nothing { stack with items }
  | pushed {items : List StackItem} {item : StackItem} (kept : StackItem.Kept stack.items items)
      (number : item.id = stack.nextItem) (fresh : item.countered = false)
      (stays : stack.resolves operation = false) :
    Step stack operation (.pushed item.id)
      (Stack.reset { stack with items := items ++ [item], nextItem := stack.nextItem.next })
  | resolved {rest items : List StackItem} {top : StackItem} (shape : stack.items = rest ++ [top])
      (kept : StackItem.Kept rest items) (leaves : stack.resolves operation = true) :
    Step stack operation (.resolved top.id) (Stack.reset { stack with items })
  | handedOn (seated : stack.holder ∈ stack.seats)
      (waiting : (stack.notePass stack.holder).allPassed = false)
      (stays : stack.resolves operation = false) :
    Step stack operation (.handedOn stack.holder)
      { stack.notePass stack.holder with holder := stack.next stack.holder }
  | roundOver (empty : stack.items = []) (stays : stack.resolves operation = false) :
    Step stack operation .roundOver stack.reset
  | madeActive {player : PlayerId} (seated : player ∈ stack.seats)
      (stays : stack.resolves operation = false) :
    Step stack operation (.madeActive player) (Stack.reset { stack with active := player })

namespace Call

variable {call : Call} {stack : Stack}

theorem answer_eq (call : Call) (stack : Stack) :
    call.answer stack = (call.operation.perform.outcome (call.scene stack)).1 := rfl

theorem after_eq (call : Call) (stack : Stack) :
    call.after stack = (call.operation.perform.outcome (call.scene stack)).2.stack := rfl

theorem departure_eq_nothing (h : (call.after stack).items.length = stack.items.length) :
    call.departure stack = .nothing := by
  unfold departure
  split
  · rw [if_neg (Nat.not_lt.mpr (Nat.le_of_eq h.symm))]
  · rfl

theorem departure_eq_resolved {rest : List StackItem} {top : StackItem}
    (hshape : stack.items = rest ++ [top])
    (h : (call.after stack).items.length = rest.length) :
    call.departure stack = .resolved top.id := by
  have htop : stack.top? = some top := by
    rw [Stack.top?, hshape]
    exact List.getLast?_concat
  have hlt : (call.after stack).items.length < stack.items.length := by
    rw [h, hshape, List.length_append]
    exact Nat.lt_succ_self rest.length
  unfold departure
  rw [htop]
  exact if_pos hlt

/-- A refused call has done nothing but let an item leave. -/
theorem deed_of_error {fault : Fault} (h : call.answer stack = .error fault) :
    call.deed stack = call.departure stack := by
  unfold deed
  rw [h]

theorem deed_of_item {id : ItemId} (h : call.answer stack = .ok (.item id)) :
    call.deed stack = .pushed id := by
  unfold deed
  rw [h]

/-- An answer that is neither about a new item nor about a pass on an empty stack or within a round
shows nothing: the deed is read off the items. -/
theorem deed_of_ok {answer : Answer} (h : call.answer stack = .ok answer)
    (hnumber : answer.number? = none) (hactive : ∀ player, call.operation ≠ .setActive player)
    (hpass : ∀ player, call.operation = .pass player →
      ∃ resolution, answer = .passed (.resolved resolution)) :
    call.deed stack = call.departure stack := by
  unfold deed
  rw [h]
  cases answer with
  | item id => simp [Answer.number?] at hnumber
  | passed outcome =>
    cases hoperation : call.operation with
    | pass player =>
      obtain ⟨resolution, hresolved⟩ := hpass player hoperation
      obtain rfl := Answer.passed.inj hresolved
      rfl
    | setActive player => exact absurd hoperation (hactive player)
    | _ => cases outcome <;> rfl
  | resolution resolution =>
    cases hoperation : call.operation with
    | setActive player => exact absurd hoperation (hactive player)
    | _ => rfl
  | done =>
    cases hoperation : call.operation with
    | setActive player => exact absurd hoperation (hactive player)
    | _ => rfl

/-- A call that at most puts an item on top. -/
theorem step_of_mayPush (hmove : Scene.MayPush Answer.number? call.operation.perform)
    (hstays : stack.resolves call.operation = false)
    (hactive : ∀ player, call.operation ≠ .setActive player)
    (hpass : ∀ player, call.operation ≠ .pass player) :
    Stack.Step stack call.operation (call.deed stack) (call.after stack) := by
  obtain ⟨mid, ⟨items, hkept, hmid⟩, hend⟩ := hmove (call.scene stack)
  have hmid : mid.stack = { stack with items } := hmid
  rcases hend with ⟨object, controller, targets, x, answer, hout, hnumber⟩ | ⟨hstate, hnone⟩
  · -- a new item, whose number is the answer
    have hanswer : call.answer stack = .ok answer := by rw [answer_eq, hout]
    have hafter : call.after stack = (mid.stack.push object controller targets x).2 := by
      rw [after_eq, hout]
    rw [hmid] at hnumber hafter
    obtain rfl := Answer.eq_item_of_number? hnumber
    rw [deed_of_item hanswer, hafter]
    let item : StackItem := { id := stack.nextItem, object, controller, targets, x }
    exact .pushed hkept (show item.id = stack.nextItem from rfl) rfl hstays
  · -- no item came, and marks do not change how many there are
    have hafter : call.after stack = { stack with items } := by rw [after_eq, hstate, hmid]
    have hdeed : call.deed stack = call.departure stack := by
      rcases hanswer : call.answer stack with fault | answer
      · exact deed_of_error hanswer
      · exact deed_of_ok hanswer (hnone answer hanswer) hactive
          fun player h => absurd h (hpass player)
    rw [hdeed, departure_eq_nothing (by rw [hafter]; exact hkept.length_eq), hafter]
    exact .nothing hkept hstays

/-- A call that carries out a resolution and whose answer shows nothing else. -/
theorem step_of_resolveTop
    (hafter : call.after stack = (Scene.resolveTop.outcome (call.scene stack)).2.stack)
    (hresolves : stack.resolves call.operation = !stack.items.isEmpty)
    (hdeed : call.deed stack = call.departure stack) :
    Stack.Step stack call.operation (call.deed stack) (call.after stack) := by
  rw [hdeed]
  rcases Scene.resolveTop_cases (call.scene stack) with
    ⟨hempty, hstate⟩ | ⟨rest, top, items, hshape, hkept, hstack⟩
  · have hempty : stack.items = [] := hempty
    rw [hstate] at hafter
    rw [hempty] at hresolves
    have hafter : call.after stack = stack := hafter
    rw [departure_eq_nothing (by rw [hafter]), hafter]
    exact Stack.Step.nothing (.refl stack.items) hresolves
  · have hshape : stack.items = rest ++ [top] := hshape
    have hafter : call.after stack = Stack.reset { stack with items } := by rw [hafter, hstack]; rfl
    have hlength : (call.after stack).items.length = rest.length := by
      rw [hafter]
      exact hkept.length_eq
    have hleaves : stack.resolves call.operation = true := by
      rw [hresolves, hshape, List.isEmpty_eq_false_iff.mpr (List.append_ne_nil_of_right_ne_nil _
        (List.cons_ne_nil top []))]
      rfl
    rw [departure_eq_resolved hshape hlength, hafter]
    exact .resolved hshape hkept hleaves

theorem step_pass (player : PlayerId) (hop : call.operation = .pass player) :
    Stack.Step stack call.operation (call.deed stack) (call.after stack) := by
  have hanswer := answer_eq call stack
  have hafter := after_eq call stack
  rw [hop, Operation.perform, Act.outcome_map] at hanswer hafter
  have hactive : ∀ player, call.operation ≠ .setActive player := by
    intro other h
    rw [hop] at h
    simp at h
  have hcases := Scene.pass_cases (call.scene stack) player
  have hscene : (call.scene stack).stack = stack := rfl
  rw [hscene] at hcases
  rcases hcases with ⟨fault, hcheck, hout⟩ |
    ⟨rfl, hseated, ⟨hwaiting, hout⟩ | ⟨hall, ⟨hempty, hout⟩ | ⟨hitems, hout⟩⟩⟩
  · -- the pass is refused
    rw [hout] at hanswer hafter
    have hafter : call.after stack = stack := hafter
    have hstays : stack.resolves call.operation = false := by
      rw [hop, Stack.resolves, hcheck]
      rfl
    rw [deed_of_error hanswer, departure_eq_nothing (by rw [hafter]), hafter]
    exact Stack.Step.nothing (.refl stack.items) hstays
  · -- somebody else has still to pass
    rw [hout] at hanswer hafter
    have hdeed : call.deed stack = .handedOn stack.holder := by
      unfold deed
      rw [hanswer, hop]
      rfl
    rw [hdeed, hafter]
    exact .handedOn hseated hwaiting (by rw [hop, Stack.resolves_pass hseated, hwaiting]; rfl)
  · -- everybody passed on an empty stack
    rw [hout] at hanswer hafter
    have hdeed : call.deed stack = .roundOver := by
      unfold deed
      rw [hanswer, hop]
      rfl
    rw [hdeed, hafter]
    exact .roundOver (List.isEmpty_iff.mp hempty)
      (by rw [hop, Stack.resolves_pass hseated, hall, hempty]; rfl)
  · -- everybody passed with something on the stack
    rw [hout] at hanswer hafter
    refine step_of_resolveTop hafter ?_ ?_
    · rw [hop, Stack.resolves_pass hseated, hall, Bool.true_and]
    · rcases hresult : (Scene.resolveTop.outcome (call.scene stack)).1 with fault | resolution
      · rw [hresult] at hanswer
        exact deed_of_error hanswer
      · rw [hresult] at hanswer
        exact deed_of_ok hanswer rfl hactive fun _ _ => ⟨resolution, rfl⟩

theorem step_setActive (player : PlayerId) (hop : call.operation = .setActive player) :
    Stack.Step stack call.operation (call.deed stack) (call.after stack) := by
  have hanswer := answer_eq call stack
  have hafter := after_eq call stack
  rw [hop, Operation.perform, Act.outcome_map] at hanswer hafter
  have hstays : stack.resolves call.operation = false := by rw [hop]; rfl
  by_cases hseated : player ∈ stack.seats
  · rw [Scene.outcome_setActive (call.scene stack) hseated] at hanswer hafter
    have hdeed : call.deed stack = .madeActive player := by
      unfold deed
      rw [hanswer, hop]
      rfl
    rw [hdeed, hafter]
    exact .madeActive hseated hstays
  · rw [Scene.outcome_setActive_refused (call.scene stack) hseated] at hanswer hafter
    have hafter : call.after stack = stack := hafter
    rw [deed_of_error hanswer, departure_eq_nothing (by rw [hafter]), hafter]
    exact Stack.Step.nothing (.refl stack.items) hstays

/-- Whatever is asked, with whatever table and engine, and whether it succeeds or fails: the stack
takes the step of what the call has done. -/
theorem step (call : Call) (stack : Stack) :
    Stack.Step stack call.operation (call.deed stack) (call.after stack) := by
  obtain ⟨operation, table, engine⟩ := call
  cases operation with
  | pass player => exact step_pass player rfl
  | setActive player => exact step_setActive player rfl
  | resolveTop =>
    have hanswer := answer_eq ⟨.resolveTop, table, engine⟩ stack
    have hafter := after_eq ⟨.resolveTop, table, engine⟩ stack
    rw [Operation.perform, Act.outcome_map] at hanswer hafter
    refine step_of_resolveTop hafter rfl ?_
    rcases hresult : (Scene.resolveTop.outcome ⟨table, engine, stack⟩).1 with fault | resolution
    · exact deed_of_error (hanswer.trans (congrArg (Except.map Answer.resolution) hresult))
    · exact deed_of_ok (hanswer.trans (congrArg (Except.map Answer.resolution) hresult)) rfl
        (by simp) (by simp)
  | push object controller targets x =>
    exact step_of_mayPush ((Scene.MayPush.push object controller targets x).map fun _ => rfl) rfl
      (by simp) (by simp)
  | pushTriggered ability controller targets =>
    exact step_of_mayPush
      ((Scene.MayPush.push (.ability ability) controller targets none).map fun _ => rfl) rfl
      (by simp) (by simp)
  | counter item player =>
    have hmove : Scene.MayPush (fun _ => none) (Scene.counter item player) :=
      .of_onlyMarks (Scene.onlyMarks_counter item player) fun _ => rfl
    exact step_of_mayPush (hmove.map fun _ => rfl) rfl (by simp) (by simp)
  | cast spell player targets x lenient =>
    exact step_of_mayPush ((Scene.mayPush_cast spell player targets x lenient).map fun _ => rfl) rfl
      (by simp) (by simp)
  | activate id player targets decision =>
    refine step_of_mayPush ((Scene.mayPush_activate id player targets decision).map fun id? => ?_)
      rfl (by simp) (by simp)
    cases id? with
    | none => rfl
    | some id => rfl

end Call

end CardRules
