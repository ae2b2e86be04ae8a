import CardRules.Engine
import CardRules.Mana.Production
import CardRules.Table.Moves

/-!
# Applying effects

Effects are applied in order. Each gets as many of the chosen targets as its requirements count,
looks at the first of them, and falls back to the controller or the source where it has none. The
first effect that fails ends the matter.
-/

set_option autoImplicit false

namespace CardRules

/-- What an effect needs to know besides the arena. -/
structure EffectContext where
  controller : PlayerId
  source : CardId
  targets : List Choice
  x : Option UInt32 := none
  color : Option Color := none
  oracleText : String := ""
deriving DecidableEq, Repr

namespace EffectContext

/-- The player targeted first, or else the controller. -/
def player (context : EffectContext) : PlayerId :=
  match context.targets with
  | .player id :: _ => id
  | _ => context.controller

/-- The permanent targeted first, or else the source. -/
def permanent (context : EffectContext) : CardId :=
  match context.targets with
  | .permanent id :: _ => id
  | _ => context.source

end EffectContext

namespace Arena

/-- A target was needed and none was there. -/
def lacksTarget : Fault := .insufficientTargets 1 0

/-- Destroys a permanent, and forgets its abilities if it left. -/
def destroy (card : CardId) : Move Unit := do
  let controller := ((← Act.get).table.card? card).map (·.controller)
  if (← onTable (Table.destroy card)) then
    match controller with
    | some controller => discard (leave card controller)
    | none => pure ()

/-- Marks a spell on the stack as countered. -/
def counter (item : ItemId) : Move Unit := do
  let items ← Act.ofExcept (StackItem.counter (← Act.get).items item)
  Act.modify fun arena => { arena with items }

/-- Makes the change of one effect. -/
def change (effect : Effect) (context : EffectContext) : Move Unit :=
  let amount := effect.amount context.x
  let count := amount.toInt.toNat
  match effect.kind with
  | .drawCards => onTable (Table.draw context.player count)
  | .dealDamage => match context.targets with
    | target :: _ => onTable (Table.damage target amount context.source)
    | [] => Act.fail lacksTarget
  | .gainLife => onTable (Table.gainLife context.controller amount)
  | .loseLife => onTable (Table.loseLife context.player amount)
  | .addMana => (Mana.produced context.oracleText amount context.color).forM fun (color, n) =>
      onTable (Table.addMana context.controller color n)
  | .pump =>
    let (power, toughness) := effect.pumpValues
    onTable (Table.pump context.permanent power toughness effect.duration)
  | .tap => onTable (Table.tap context.permanent)
  | .untap => onTable (Table.untap context.permanent)
  | .destroy => match context.targets with
    | .permanent card :: _ => destroy card
    | _ => Act.fail lacksTarget
  | .counterSpell => match context.targets with
    | .spell item :: _ => counter item
    | other :: _ => Act.fail (.invalidTarget 0 (.notSpell other))
    | [] => Act.fail lacksTarget
  | .mill => onTable (Table.mill context.player count)
  | .exile | .returnToHand | .createToken | .grantKeyword | .entersTapped | .modal =>
    Act.fail (.unimplemented effect.kind)

/-- Applies one effect. -/
def applyEffect (effect : Effect) (context : EffectContext) : Move Unit := do
  change effect context
  report (.verbose ("applied " ++ effect.description))

/-- How many targets an effect is handed. -/
def share (effect : Effect) : Nat := Target.totalCount effect.targets

/-- Applies effects in order, up to the first that fails, handing out the chosen targets. -/
def applyEffects : List Effect → EffectContext → Move Unit
  | [], _ => pure ()
  | effect :: effects, context => do
    applyEffect effect { context with targets := context.targets.take (share effect) }
    applyEffects effects { context with targets := context.targets.drop (share effect) }

end Arena

end CardRules
