import CardRules.Engine.Effects

/-!
# Activating abilities

Whether an ability may be used now (`checkActivation`), and its use: check, validate the targets,
pay, count. Mana abilities take effect at once; other abilities are handed back for the stack.

The checks come in a fixed order, and the first that fails is the answer: the kind of the ability,
its controller, its timing, its usage limits, its source, its cost with X as zero, its targets.
-/

set_option autoImplicit false

namespace CardRules

/-- Nothing if a condition holds, else a fault. -/
def demand (condition : Bool) (fault : Fault) : Except Fault Unit :=
  if condition then .ok () else .error fault

/-- What the controller chooses when using an ability. -/
structure Decision where
  x : Option UInt32 := none
  /-- The color for mana of any color and for a choice of symbols. -/
  color : Option Color := none
deriving DecidableEq, Repr, Inhabited

/-- What using an ability gives. -/
inductive Activation where
  /-- A mana ability, which has taken effect. -/
  | manaResolved
  /-- An ability that is paid for and waits for its place on the stack. -/
  | pending (object : StackObject)
deriving DecidableEq, Repr

namespace View

/-- Whether every part of a cost can be paid: mana and life, discards, and the sacrifice. -/
def affords (view : View) (cost : Cost) (source : CardId) (controller : PlayerId) : Bool :=
  (view.lenient || view.table.canPay controller cost) &&
    cost.discard.toNat ≤ view.table.handSize controller &&
    (!cost.sacrifice || view.table.onBattlefield source)

/-- Checks that the timing of an ability fits the step and the turn. -/
def checkTiming (view : View) (timing : Timing) (controller : PlayerId) : Except Fault Unit := do
  let turn := view.table.turn
  demand (!timing.sorcerySpeed || turn.step.isMain) (.denied .sorcerySpeed)
  demand (!timing.combatOnly || turn.step.isCombat) (.denied .combatOnly)
  demand (!timing.yourTurnOnly || turn.active == controller) (.denied .notYourTurn)

/-- Checks that no usage limit is reached. -/
def checkUsage (ability : Ability) : Except Fault Unit :=
  match ability.usageExhausted with
  | some period => .error (.denied (.usageExhausted period))
  | none => .ok ()

/-- Checks that a source to be tapped is there and untapped. -/
def checkUntapped (view : View) (ability : Ability) : Except Fault Unit :=
  if ability.cost.tap then
    match view.table.card? ability.source with
    | none => .error (.unknownEntity ability.source)
    | some card => demand (!card.tapped) (.denied .sourceTapped)
  else .ok ()

/-- Checks that each required target of an ability has some legal choice. -/
def checkTargets (view : View) (rules : Untargetability) (ability : Ability)
    (controller : PlayerId) : Except Fault Unit :=
  if ability.requiresTargets then
    match view.table.player? controller with
    | none => .error (.unknownEntity controller)
    | some player =>
      let colors := view.table.colorsOf ability.source
      let candidates := view.candidates
      demand ((ability.targets.filter (·.required)).all fun target =>
        candidates.any fun candidate => target.accepts rules candidate player colors)
        (.denied .noLegalTargets)
  else .ok ()

/-- Checks whether a player may use an ability now. -/
def checkActivation (view : View) (rules : Untargetability) (ability : Ability)
    (controller : PlayerId) : Except Fault Unit := do
  demand ability.kind.isActivatable (.denied (.notActivatable ability.kind))
  demand ((view.table.card? ability.source).all fun card => card.controller == controller)
    (.denied .notController)
  view.checkTiming ability.timing controller
  checkUsage ability
  view.checkUntapped ability
  demand (view.affords ability.cost.withoutX ability.source controller) (.denied .cannotPayCost)
  view.checkTargets rules ability controller

/-- Whether a player may use an ability now. -/
def canActivate (view : View) (rules : Untargetability) (ability : Ability)
    (controller : PlayerId) : Bool :=
  (view.checkActivation rules ability controller).isOk

end View

/-- The cost with the chosen X folded in; an X too large for a cost is denied. -/
def Cost.fixX (cost : Cost) (x : Option UInt32) : Except Fault Cost :=
  match cost.withX (x.getD 0) with
  | some cost => .ok cost
  | none => .error (.denied .cannotPayCost)

namespace Arena

/-- Taps the source of an ability if the cost asks for it. -/
def payTap (cost : Cost) (source : CardId) : Move Unit :=
  if cost.tap then onTable (Table.tap source) else pure ()

/-- Pays the mana and the life of a cost. If that fails, the source is untapped again. -/
def payPlayer (cost : Cost) (source : CardId) (controller : PlayerId) : Move Unit := do
  match ← Act.attempt (onTable (Table.pay controller cost)) with
  | .ok () => pure ()
  | .error fault =>
    if cost.tap then
      onTable (Table.untap source)
    Act.fail fault

/-- Discards the cards that a cost asks for. -/
def payDiscard (cost : Cost) (controller : PlayerId) : Move Unit :=
  if 0 < cost.discard then onTable (Table.discard controller cost.discard.toNat) else pure ()

/-- Sacrifices the source of an ability if the cost asks for it, and forgets its abilities. -/
def paySacrifice (cost : Cost) (source : CardId) (controller : PlayerId) : Move Unit :=
  if cost.sacrifice then do
    onTable (Table.sacrifice source)
    discard (leave source controller)
  else pure ()

/-- Pays a cost whose X is fixed. Everything is checked first; if the mana or the life still
cannot be paid, the source is untapped again. -/
def payCost (cost : Cost) (source : CardId) (controller : PlayerId) : Move Unit := do
  let arena ← Act.get
  Act.ofExcept (demand (arena.affords cost source controller) (.denied .cannotPayCost))
  payTap cost source
  payPlayer cost source controller
  payDiscard cost controller
  paySacrifice cost source controller

/-- Checks and pays for the use of an ability and counts it. The source of the ability may be gone
afterwards, and the ability with it. -/
def prepare (id : AbilityId) (controller : PlayerId) (targets : List Choice)
    (decision : Decision) : Move Ability := do
  let arena ← Act.get
  let ability ← Act.require (.unknownAbility id) (arena.engine.registry.get? id)
  let checked := do
    arena.checkActivation arena.engine.rules ability controller
    ability.cost.fixX decision.x
  match checked with
  | .error fault =>
    report (.ofCategory .normal "engine" ("denied " ++ id.text ++ ": " ++ fault.message))
    Act.fail fault
  | .ok cost =>
    Act.ofExcept (arena.validateTargets arena.engine.rules ability.targets targets controller
      (arena.table.colorsOf ability.source))
    payCost cost ability.source controller
    changeRegistry (·.update id Ability.recordUse)
    report (.verbose ("activated " ++ ability.name ++ " (" ++ id.text ++ ")"))
    pure ability.recordUse

/-- Lets an ability take effect. -/
def resolveAbility (ability : Ability) (controller : PlayerId) (targets : List Choice)
    (decision : Decision) : Move Unit :=
  applyEffects ability.effects
    { controller, source := ability.source, targets, x := decision.x, color := decision.color
      oracleText := ability.oracleText }

/-- Uses an ability and lets it take effect at once, without the stack. -/
def execute (id : AbilityId) (controller : PlayerId) (targets : List Choice)
    (decision : Decision) : Move Unit := do
  let ability ← prepare id controller targets decision
  resolveAbility ability controller targets decision

/-- Uses an ability. A mana ability takes effect at once, any other comes back for the stack. -/
def activate (id : AbilityId) (controller : PlayerId) (targets : List Choice)
    (decision : Decision) : Move Activation := do
  let ability ← prepare id controller targets decision
  if ability.isMana then
    resolveAbility ability controller targets decision
    pure .manaResolved
  else pure (.pending (.ability ability))

end Arena

end CardRules
