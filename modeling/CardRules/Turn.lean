import CardRules.Duration
import CardRules.Identity

/-!
# Turns

The steps of a turn in order, the phase each belongs to, and where a game stands in its turns.
-/

set_option autoImplicit false

namespace CardRules

/-- A phase of a turn. -/
inductive Phase where
  | beginning
  | preCombatMain
  | combat
  | postCombatMain
  | ending
deriving DecidableEq, Repr, Inhabited

/-- The name of a phase. -/
def Phase.name : Phase → String
  | beginning => "Beginning"
  | preCombatMain => "PreCombatMain"
  | combat => "Combat"
  | postCombatMain => "PostCombatMain"
  | ending => "Ending"

/-- A step of a turn. -/
inductive Step where
  | untap
  | upkeep
  | draw
  | main1
  | beginCombat
  | declareAttackers
  | declareBlockers
  | combatDamage
  | endCombat
  | main2
  | finish
  | cleanup
deriving DecidableEq, Repr, Inhabited

namespace Step

/-- The steps of a turn, in order. -/
def all : List Step :=
  [untap, upkeep, draw, main1, beginCombat, declareAttackers, declareBlockers, combatDamage,
    endCombat, main2, finish, cleanup]

/-- The name of a step. -/
def name : Step → String
  | untap => "Untap"
  | upkeep => "Upkeep"
  | draw => "Draw"
  | main1 => "Main1"
  | beginCombat => "BeginCombat"
  | declareAttackers => "DeclareAttackers"
  | declareBlockers => "DeclareBlockers"
  | combatDamage => "CombatDamage"
  | endCombat => "EndCombat"
  | main2 => "Main2"
  | finish => "End"
  | cleanup => "Cleanup"

/-- The phase a step belongs to. -/
def phase : Step → Phase
  | untap | upkeep | draw => .beginning
  | main1 => .preCombatMain
  | beginCombat | declareAttackers | declareBlockers | combatDamage | endCombat => .combat
  | main2 => .postCombatMain
  | finish | cleanup => .ending

/-- The step after this one; none after cleanup. -/
def next : Step → Option Step
  | untap => some upkeep
  | upkeep => some draw
  | draw => some main1
  | main1 => some beginCombat
  | beginCombat => some declareAttackers
  | declareAttackers => some declareBlockers
  | declareBlockers => some combatDamage
  | combatDamage => some endCombat
  | endCombat => some main2
  | main2 => some finish
  | finish => some cleanup
  | cleanup => none

/-- Whether the step is a main phase. -/
def isMain (step : Step) : Bool := step.phase == .preCombatMain || step.phase == .postCombatMain

/-- Whether the step belongs to combat. -/
def isCombat (step : Step) : Bool := step.phase == .combat

/-- The duration that ends when the step is left. -/
def endsDuration : Step → Option Duration
  | endCombat => some .untilEndOfCombat
  | cleanup => some .untilEndOfTurn
  | _ => none

/-- The order of the steps is the order of the list: each is followed by its successor. -/
theorem next_eq_getElem?_all (step : Step) : step.next = all[all.idxOf step + 1]? := by
  cases step <;> decide

end Step

/-- Where a game stands in its turns. -/
structure Turn where
  number : UInt32 := 1
  step : Step := .untap
  active : PlayerId
deriving DecidableEq, Repr, Inhabited

namespace Turn

/-- The turn one step on, and whether there was a step left. -/
def advance (turn : Turn) : Bool × Turn :=
  match turn.step.next with
  | some step => (true, { turn with step := step })
  | none => (false, turn)

/-- The first step of the next turn. -/
def pass (turn : Turn) (player : PlayerId) : Turn :=
  { number := turn.number + 1, step := .untap, active := player }

end Turn

end CardRules
