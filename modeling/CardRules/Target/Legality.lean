import CardRules.Target.Candidate

/-!
# Legal targets

A candidate is legal for a requirement if its category matches, nothing makes it untargetable, and
every restriction holds. `objection?` finds the first thing that speaks against it, in this order.

A restriction holds of a candidate only if the candidate has the property it reads, also where it
is negated.
-/

set_option autoImplicit false

namespace CardRules

/-- What can make an object untargetable. -/
inductive Untargetability where
  /-- Nothing does. -/
  | ignored
  /-- Shroud, hexproof and protection, read from the keywords. -/
  | keywords
deriving DecidableEq, Repr, Inhabited

namespace Untargetability

/-- Whether nobody can target the candidate. -/
def shrouds : Untargetability → Candidate → Bool
  | ignored, _ => false
  | keywords, candidate => candidate.hasKeyword .shroud

/-- Whether only its controller can target the candidate. -/
def hexproofs : Untargetability → Candidate → Bool
  | ignored, _ => false
  | keywords, candidate => candidate.hasKeyword .hexproof

/-- Whether the candidate is protected from a source of these colors. -/
def protects : Untargetability → Candidate → List Color → Bool
  | ignored, _, _ => false
  | keywords, candidate, colors =>
    colors.any fun color => candidate.hasKeyword (.protectionFrom color)

end Untargetability

/-- Whether a candidate is of a category, seen by a player. -/
def TargetKind.matches (kind : TargetKind) (candidate : Candidate) (player : PlayerId) : Bool :=
  let isPlayer := match candidate.reference with
    | .player _ => true
    | _ => false
  let isPermanent := match candidate.reference with
    | .permanent _ => true
    | _ => false
  let isSpell := match candidate.reference with
    | .spell _ => true
    | _ => false
  match kind with
  | any => isPlayer ||
      (isPermanent && (candidate.hasType .creature || candidate.hasType .planeswalker))
  | creatureOrPlayer => isPlayer || (isPermanent && candidate.hasType .creature)
  | .player => isPlayer
  | opponent => isPlayer && candidate.reference != .player player
  | permanent => isPermanent
  | spell => isSpell
  | creature => isPermanent && candidate.hasType .creature
  | artifact => isPermanent && candidate.hasType .artifact
  | enchantment => isPermanent && candidate.hasType .enchantment
  | land => isPermanent && candidate.hasType .land
  | planeswalker => isPermanent && candidate.hasType .planeswalker

/-- Whether a candidate has a trait, seen by the player of this name; nothing where the candidate
lacks the property that the trait reads. -/
def Trait.holds? (candidate : Candidate) (playerName : String) : Trait → Option Bool
  | .cardType t => candidate.types.map fun types => types.contains t
  | .subtype s => candidate.subtypes.map fun subtypes => subtypes.any (·.isNamed s)
  | .keyword k => candidate.keywords.map fun keywords => keywords.contains k
  | .power c n => candidate.power.map fun power => c.holds power n.toInt
  | .toughness c n => candidate.toughness.map fun toughness => c.holds toughness n.toInt
  | .manaValue c n => candidate.manaValue.map fun value => c.holds value n.toInt
  | .controller .you => candidate.controllerName.map (· == playerName)
  | .controller .opponent => candidate.controllerName.map (· != playerName)
  | .color c => candidate.colors.map fun colors => colors.contains c
  | .tapped => candidate.tapped
  | .untapped => candidate.tapped.map (!·)
  | .card id => some (candidate.reference == .permanent id)
  | .other _ => some true

/-- Whether a restriction holds of a candidate. Wording without a meaning always holds. -/
def Restriction.holds (restriction : Restriction) (candidate : Candidate) (playerName : String) :
    Bool :=
  match restriction.trait with
  | .other _ => true
  | trait => (trait.holds? candidate playerName).any (· != restriction.negated)

/-- The first thing that speaks against a candidate for a requirement: its category, then shroud,
hexproof and protection, then its restrictions in order. -/
def Target.objection? (rules : Untargetability) (target : Target) (candidate : Candidate)
    (player : Player) (sourceColors : List Color) : Option Objection :=
  let reference := candidate.reference
  if !target.kind.matches candidate player.id then some (.wrongKind reference target.kind)
  else if rules.shrouds candidate then some (.shroud reference)
  else if candidate.controller != some player.id && rules.hexproofs candidate then
    some (.hexproof reference)
  else if rules.protects candidate sourceColors then some (.protection reference)
  else
    (target.restrictions.find? fun restriction => !restriction.holds candidate player.name).map
      fun restriction => .restriction reference restriction

/-- Whether a candidate is legal for a requirement. -/
def Target.accepts (rules : Untargetability) (target : Target) (candidate : Candidate)
    (player : Player) (sourceColors : List Color) : Bool :=
  (target.objection? rules candidate player sourceColors).isNone

/-- The requirements of some targets, one for each object to be chosen. -/
def Target.slots (targets : List Target) : List Target :=
  targets.flatMap fun target => List.replicate target.count.toNat target

/-- The first fault of a list of choices, checked slot by slot from a given position. -/
def View.checkSlots (view : View) (rules : Untargetability) (player : Player)
    (sourceColors : List Color) : Nat → List (Choice × Target) → Except Fault Unit
  | _, [] => .ok ()
  | index, (choice, slot) :: rest =>
    match view.candidate? choice with
    | none => .error (.invalidTarget index (.missing choice))
    | some candidate =>
      match slot.objection? rules candidate player sourceColors with
      | some objection => .error (.invalidTarget index objection)
      | none => view.checkSlots rules player sourceColors (index + 1) rest

/-- Checks chosen targets against target requirements: enough of them, not too many, made by a
player of the game, and each legal for its slot. -/
def View.validateTargets (view : View) (rules : Untargetability) (targets : List Target)
    (choices : List Choice) (controller : PlayerId) (sourceColors : List Color) :
    Except Fault Unit :=
  let slots := Target.slots targets
  let required := (slots.filter (·.required)).length
  if choices.length < required then .error (.insufficientTargets required choices.length)
  else if slots.length < choices.length then
    .error (.invalidTarget slots.length (.tooMany slots.length))
  else match view.table.player? controller with
    | none => .error (.unknownEntity controller)
    | some player => view.checkSlots rules player sourceColors 0 (choices.zip slots)

/-- Whether every choice that has a slot has become illegal; never so without choices, always so
without a controller. -/
def View.allIllegal (view : View) (rules : Untargetability) (targets : List Target)
    (choices : List Choice) (controller : PlayerId) (sourceColors : List Color) : Bool :=
  !choices.isEmpty &&
    match view.table.player? controller with
    | none => true
    | some player => (choices.zip (Target.slots targets)).all fun (choice, slot) =>
        (view.candidate? choice).all fun candidate =>
          !slot.accepts rules candidate player sourceColors

end CardRules
