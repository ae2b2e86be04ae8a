import CardRules.Proofs.Stack.Illegal

/-!
# Effects that fail

The effects of a list are applied one after the other, each to the targets that are left for it. If
one of them fails the rest is dropped and what was done stays done. Nothing is left half done: whatever
its kind, an effect that fails at a sound table has not changed anything, be it the destruction of a
card, which takes several steps, or mana of several colors, which is added color by color. So the state
is that after the effects before it (`FailsAt`).

A resolution is such an application, with the item off the stack and a new round after it.
-/

set_option autoImplicit false

namespace CardRules

open Act

namespace Arena

/-- The chosen targets that an effect gets if some others have taken theirs before it. -/
def sliceAfter (earlier : List Effect) (effect : Effect) (targets : List Choice) : List Choice :=
  (earlier.foldl (fun left first => left.drop (share first)) targets).take (share effect)

theorem sliceAfter_cons (first : Effect) (earlier : List Effect) (effect : Effect)
    (targets : List Choice) :
    sliceAfter (first :: earlier) effect targets =
      sliceAfter earlier effect (targets.drop (share first)) := rfl

/-- The effects before an index were applied one after the other, and the one at the index fails in the
state they have led to, and leaves it as it is. -/
structure FailsAt (effects : List Effect) (context : EffectContext) (before : Arena) (index : Nat)
    (fault : Fault) (after : Arena) : Prop where
  applied : (applyEffects (effects.take index) context).outcome before = (.ok (), after)
  failing : ∃ effect, effects[index]? = some effect ∧
    (applyEffect effect { context with
      targets := sliceAfter (effects.take index) effect context.targets }).outcome after =
        (.error fault, after)

namespace FailsAt

variable {effect : Effect} {effects : List Effect} {context : EffectContext}
  {before mid after : Arena} {index : Nat} {fault : Fault}

theorem head
    (h : (applyEffect effect { context with
      targets := context.targets.take (share effect) }).outcome before = (.error fault, before)) :
    FailsAt (effect :: effects) context before 0 fault before where
  applied := rfl
  failing := ⟨effect, rfl, h⟩

theorem tail
    (hfirst : (applyEffect effect { context with
      targets := context.targets.take (share effect) }).outcome before = (.ok (), mid))
    (h : FailsAt effects { context with targets := context.targets.drop (share effect) } mid index
      fault after) :
    FailsAt (effect :: effects) context before (index + 1) fault after where
  applied := by
    rw [List.take_succ_cons, applyEffects, outcome_bind_ok hfirst]
    exact h.applied
  failing := by
    obtain ⟨failing, hget, hfails⟩ := h.failing
    refine ⟨failing, hget, ?_⟩
    rw [List.take_succ_cons, sliceAfter_cons]
    exact hfails

end FailsAt

/-- An effect that fails at a sound table has changed nothing. -/
theorem atomic_applyEffect {arena : Arena} (hsound : arena.table.Sound) (effect : Effect)
    (context : EffectContext) : (applyEffect effect context).Atomic arena :=
  (stoppedBy_applyEffect effect context).atomic hsound

theorem sound_applyEffect {arena after : Arena} (hsound : arena.table.Sound) {effect : Effect}
    {context : EffectContext} (h : (applyEffect effect context).outcome arena = (.ok (), after)) :
    after.table.Sound := by
  have hkeeps := keepsTable_frame.course.along_applyEffect effect context arena
  rw [h] at hkeeps
  exact hsound.of_keeps hkeeps

/-- Effects that fail do so at one of them. -/
theorem failsAt_of_outcome {effects : List Effect} {context : EffectContext} {before after : Arena}
    {fault : Fault} (hsound : before.table.Sound)
    (h : (applyEffects effects context).outcome before = (.error fault, after)) :
    ∃ index, FailsAt effects context before index fault after := by
  -- along the effects; each leaves the rest of the targets and a sound table to those behind it
  induction effects generalizing context before with
  | nil => simp [applyEffects, outcome, pure_run] at h
  | cons effect effects ih =>
    rw [applyEffects] at h
    rcases hfirst : (applyEffect effect { context with
      targets := context.targets.take (share effect) }).outcome before with ⟨other | _, mid⟩
    · rw [outcome_bind_error hfirst] at h
      obtain ⟨hfault, rfl⟩ := Prod.mk.inj h
      obtain rfl := Except.error.inj hfault
      obtain rfl := atomic_applyEffect hsound _ _ _ _ hfirst
      exact ⟨0, .head hfirst⟩
    · rw [outcome_bind_ok hfirst] at h
      obtain ⟨index, hfails⟩ := ih (sound_applyEffect hsound hfirst) h
      exact ⟨index + 1, .tail hfirst hfails⟩

end Arena

namespace Scene

/-- A resolution that fails is one whose item has applied its effects up to one that fails. -/
theorem failsAt_of_resolveTop {scene after : Scene} {item : StackItem} {fault : Fault}
    (hsound : scene.table.Sound) (htop : scene.stack.top? = some item)
    (h : resolveTop.outcome scene = (.error fault, after)) :
    ∃ index arena,
      Arena.FailsAt item.object.effects item.context scene.resolving index fault arena ∧
        after = scene.resolvedTo arena := by
  rw [outcome_resolveTop_some htop, outcome_resolveItem] at h
  split at h
  · simp at h
  · split at h
    · simp at h
    · rcases happlied : (Arena.applyEffects item.object.effects item.context).outcome
        (arena { scene with stack := scene.stack.pop }) with ⟨other | _, arena⟩
      · rw [happlied] at h
        obtain ⟨hfault, rfl⟩ := Prod.mk.inj h
        obtain rfl := Except.error.inj hfault
        obtain ⟨index, hfails⟩ := Arena.failsAt_of_outcome hsound happlied
        exact ⟨index, arena, hfails, rfl⟩
      · rw [happlied] at h
        simp [Except.map] at h

/-- A pass of the holder that fails is a resolution that fails. -/
theorem outcome_resolveTop_of_pass {scene after : Scene} {player : PlayerId} {fault : Fault}
    (hpriority : scene.stack.checkPriority player = .ok ())
    (h : (pass player).outcome scene = (.error fault, after)) :
    resolveTop.outcome scene = (.error fault, after) := by
  rcases pass_cases scene player with
    ⟨other, hcheck, -⟩ | ⟨-, -, ⟨-, hout⟩ | ⟨-, ⟨-, hout⟩ | ⟨-, hout⟩⟩⟩
  · simp [hpriority] at hcheck
  · simp [hout] at h
  · simp [hout] at h
  · rw [hout] at h
    rcases hresolved : resolveTop.outcome scene with ⟨other | left, ended⟩
    · rw [hresolved] at h
      obtain ⟨hfault, rfl⟩ := Prod.mk.inj h
      rw [Except.error.inj hfault]
    · rw [hresolved] at h
      simp [Except.map] at h

/-- A failing effect leaves a clean prefix. At a sound table, whatever effects are applied in whatever
context: if that fails, then the effects before some index have been applied one after the other, the
one at the index fails in the state they have led to, with this fault and without a change, and this is
the state that is left. The same holds of the effects of an item that resolves, by itself or because of
a pass: what is left is the state after the prefix, without the item and at the start of a round. -/
theorem failing_effect_leaves_prefix :
    (∀ (arena after : Arena) (effects : List Effect) (context : EffectContext) (fault : Fault),
      arena.table.Sound → (Arena.applyEffects effects context).outcome arena = (.error fault, after) →
        ∃ index, Arena.FailsAt effects context arena index fault after) ∧
      ∀ (scene after : Scene) (item : StackItem) (fault : Fault),
        scene.table.Sound → scene.stack.top? = some item →
        (resolveTop.outcome scene = (.error fault, after) ∨
          ∃ player, scene.stack.checkPriority player = .ok () ∧
            (pass player).outcome scene = (.error fault, after)) →
        ∃ index arena,
          Arena.FailsAt item.object.effects item.context scene.resolving index fault arena ∧
            after = scene.resolvedTo arena := by
  constructor
  · intro arena after effects context fault hsound h
    exact Arena.failsAt_of_outcome hsound h
  · intro scene after item fault hsound htop h
    rcases h with hresolve | ⟨player, hpriority, hpass⟩
    · exact failsAt_of_resolveTop hsound htop hresolve
    · exact failsAt_of_resolveTop hsound htop (outcome_resolveTop_of_pass hpriority hpass)

/-- Two life, an exile, which no rule carries out, and five life. -/
def bequest : StackItem where
  id := .first
  object := .spell { (default : Spell) with
    effects := [{ kind := .gainLife, magnitude := 2 },
      { kind := .exile, magnitude := 0, targets := [{ kind := .creature }] },
      { kind := .gainLife, magnitude := 5 }] }
  controller := ⟨1⟩
  targets := []

/-- The only player has the spell on the stack. -/
def bequestOnTop : Scene where
  table := .seat ["A"] 20
  engine := {}
  stack := { items := [bequest], seats := [⟨1⟩], active := ⟨1⟩, holder := ⟨1⟩ }

/-- The pass of the only player resolves the spell, and the first two life are all that is left of it. -/
theorem failing_effect_leaves_prefix_bequest :
    (pass ⟨1⟩ bequestOnTop).result = .error (.unimplemented .exile) ∧
      ∃ index arena,
        Arena.FailsAt bequest.object.effects bequest.context bequestOnTop.resolving index
          (.unimplemented .exile) arena ∧
        ((pass ⟨1⟩).outcome bequestOnTop).2 = bequestOnTop.resolvedTo arena ∧
        arena.table.players.map (·.life) = [22] := by
  have hsound : bequestOnTop.table.Sound := fun id hid => absurd hid List.not_mem_nil
  have hfails : (pass ⟨1⟩ bequestOnTop).result = .error (.unimplemented .exile) := by rfl
  have hpass : (pass ⟨1⟩).outcome bequestOnTop =
      (.error (.unimplemented .exile), ((pass ⟨1⟩).outcome bequestOnTop).2) := Prod.ext hfails rfl
  obtain ⟨index, arena, hprefix, hstate⟩ := failing_effect_leaves_prefix.2 bequestOnTop _ bequest _
    hsound rfl (.inr ⟨⟨1⟩, rfl, hpass⟩)
  refine ⟨hfails, index, arena, hprefix, hstate, ?_⟩
  have hlife : (((pass ⟨1⟩).outcome bequestOnTop).2.table.players.map fun player => player.life) =
      [22] := by decide
  rw [hstate] at hlife
  exact hlife

end Scene

end CardRules
