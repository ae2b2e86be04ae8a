import CardRules.Target.Legality

/-!
# Choosing targets

Targets for a player who has no wishes: for each required slot the first legal candidate that is
not chosen yet, where objects of others come before the player's own.
-/

set_option autoImplicit false

namespace CardRules

/-- Whether a candidate is the player or under the player's control. -/
def Candidate.belongsTo (candidate : Candidate) (player : PlayerId) : Bool :=
  candidate.reference == .player player || candidate.controller == some player

namespace View

/-- The candidates in the order in which a player takes them: those of others first. -/
def preferred (view : View) (player : PlayerId) : List Candidate :=
  let own := view.candidates.filter (·.belongsTo player)
  let others := view.candidates.filter fun candidate => !candidate.belongsTo player
  others ++ own

/-- The choices with one more for a slot, if there is a legal one that is not taken. -/
def fillSlot (candidates : List Candidate) (rules : Untargetability) (player : Player)
    (sourceColors : List Color) (chosen : List Choice) (slot : Target) : List Choice :=
  let free (candidate : Candidate) :=
    !chosen.contains candidate.reference && slot.accepts rules candidate player sourceColors
  match candidates.find? free with
  | some candidate => chosen ++ [candidate.reference]
  | none => chosen

/-- Targets for the required slots of some requirements. A slot without a legal candidate is passed
over. -/
def chooseTargets (view : View) (rules : Untargetability) (targets : List Target)
    (player : PlayerId) (sourceColors : List Color) : List Choice :=
  match view.table.player? player with
  | none => []
  | some controller =>
    (Target.slots (targets.filter (·.required))).foldl
      (fillSlot (view.preferred player) rules controller sourceColors) []

end View

end CardRules
