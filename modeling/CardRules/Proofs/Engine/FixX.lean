import CardRules.Proofs.Stack.Moves

/-!
# X written out

The value chosen for X reaches an effect by way of the context in which it is applied. Here it is
written into the effect instead (`fixX`), as the number that stands where X stood: an effect under its
value of X is applied as the effect with that number is, for which the context needs no value of X any
more. The same holds of a list of effects, of an ability and of an item on the stack.

A pump has two numbers packed into one. None of them is X, so it is left as it is.
-/

set_option autoImplicit false

namespace CardRules

/-- The effect with a number in place of X. -/
def Effect.fixX (value : UInt32) (effect : Effect) : Effect :=
  { effect with
    magnitude := if effect.isVariable ∧ effect.kind ≠ .pump then Int32.ofNat value.toNat
      else effect.magnitude }

/-- The object with a number in place of X in its effects. -/
def StackObject.fixX (value : UInt32) : StackObject → StackObject
  | spell s => spell { s with effects := s.effects.map (Effect.fixX value) }
  | ability a => ability { a with effects := a.effects.map (Effect.fixX value) }

/-- The item with a number in place of X in its effects, and with no value for X. -/
def StackItem.fixX (value : UInt32) (item : StackItem) : StackItem :=
  { item with object := item.object.fixX value, x := none }

/-! ## Effects -/

namespace Effect

theorem targetsOf_fixX (value : UInt32) (effects : List Effect) :
    targetsOf (effects.map (fixX value)) = targetsOf effects :=
  List.flatMap_map ..

variable {value : UInt32} {effect : Effect}

theorem amount_of_fixed (h : ¬effect.isVariable = true) (x : Option UInt32) :
    effect.amount x = effect.magnitude :=
  if_neg h

theorem amount_of_variable (hsmall : value.toNat ≤ 255) (h : effect.isVariable = true) :
    effect.amount (some value) = Int32.ofNat value.toNat := by
  have hamount : effect.amount (some value) = Int32.ofNat (min value.toNat 2147483647) := if_pos h
  rw [hamount, Nat.min_eq_left (by omega)]

theorem toInt_ofNat_small (hsmall : value.toNat ≤ 255) :
    (Int32.ofNat value.toNat).toInt = value.toNat :=
  Int32.toInt_ofNat_of_lt (by omega)

theorem amount_fixX (hsmall : value.toNat ≤ 255) (h : effect.kind ≠ .pump) (x : Option UInt32) :
    (effect.fixX value).amount x = effect.amount (some value) := by
  by_cases hvariable : effect.isVariable = true
  · have hmagnitude : (effect.fixX value).magnitude = Int32.ofNat value.toNat :=
      if_pos ⟨hvariable, h⟩
    -- the number that stands for X is negative
    have hfixed : ¬(effect.fixX value).isVariable = true := by
      rw [isVariable, hmagnitude, beq_iff_eq]
      intro hx
      have hint := toInt_ofNat_small hsmall
      rw [hx, show Amount.x.toInt = -1 by decide] at hint
      omega
    rw [amount_of_fixed hfixed, hmagnitude, amount_of_variable hsmall hvariable]
  · have hmagnitude : (effect.fixX value).magnitude = effect.magnitude :=
      if_neg fun hfixed => hvariable hfixed.1
    have hfixed : ¬(effect.fixX value).isVariable = true := by
      rw [isVariable, hmagnitude]
      exact hvariable
    rw [amount_of_fixed hfixed, hmagnitude, amount_of_fixed hvariable]

end Effect

/-! ## What they do -/

namespace Arena

variable {value : UInt32} (hsmall : value.toNat ≤ 255) (context : EffectContext)
  (hx : context.x = some value)

include hsmall hx

theorem change_fixX (effect : Effect) :
    change (effect.fixX value) { context with x := none } = change effect context := by
  by_cases hpump : effect.kind = .pump
  · have hfixed : effect.fixX value = effect := by
      rw [Effect.fixX, if_neg fun hfixed => hfixed.2 hpump]
    -- a pump does not look at X
    rw [hfixed]
    unfold change
    rw [hpump]
    rfl
  · have hkind : (effect.fixX value).kind = effect.kind := rfl
    unfold change
    dsimp only
    rw [Effect.amount_fixX hsmall hpump, hx, hkind]
    cases hother : effect.kind with
    | pump => exact absurd hother hpump
    | _ => rfl

theorem applyEffects_fixX (effects : List Effect) :
    applyEffects (effects.map (Effect.fixX value)) { context with x := none } =
      applyEffects effects context := by
  induction effects generalizing context with
  | nil => rfl
  | cons effect effects ih =>
    have hchange := change_fixX hsmall { context with
      targets := context.targets.take (share effect) } hx effect
    have hrest := ih { context with targets := context.targets.drop (share effect) } hx
    unfold applyEffects applyEffect
    rw [← hchange, ← hrest]
    rfl

end Arena

namespace StackObject

theorem effects_fixX (value : UInt32) (object : StackObject) :
    (object.fixX value).effects = object.effects.map (Effect.fixX value) := by
  cases object <;> rfl

theorem targets_fixX (value : UInt32) (object : StackObject) :
    (object.fixX value).targets = object.targets := by
  rw [targets, effects_fixX, Effect.targetsOf_fixX, targets]

end StackObject

/-- An item under its value of X resolves as it would with X written out. -/
theorem Scene.outcome_resolveItem_fixX {item : StackItem} {value : UInt32}
    (hsmall : value.toNat ≤ 255) (hx : item.x = some value) (scene : Scene) :
    (resolveItem (item.fixX value)).outcome scene = (resolveItem item).outcome scene := by
  have hfizzles : scene.fizzles (item.fixX value) = scene.fizzles item := by
    unfold fizzles
    rw [StackItem.fixX, StackObject.targets_fixX]
    cases item.object <;> rfl
  have heffects : Arena.applyEffects (item.fixX value).object.effects (item.fixX value).context =
      Arena.applyEffects item.object.effects item.context := by
    rw [← Arena.applyEffects_fixX hsmall item.context hx, StackItem.fixX,
      StackObject.effects_fixX]
    unfold StackItem.context
    cases item.object <;> rfl
  rw [outcome_resolveItem, outcome_resolveItem, hfizzles, heffects]
  rfl

end CardRules
