/-!
# Durations

How long the change an effect makes lasts.
-/

set_option autoImplicit false

namespace CardRules

/-- How long a change lasts. -/
inductive Duration where
  | instant
  | untilEndOfTurn
  | untilEndOfCombat
  | permanent
  | untilLeavesPlay
deriving DecidableEq, Repr, Inhabited

namespace Duration

/-- Every duration. -/
def all : List Duration := [instant, untilEndOfTurn, untilEndOfCombat, permanent, untilLeavesPlay]

/-- The name of a duration. -/
def name : Duration → String
  | instant => "Instant"
  | untilEndOfTurn => "UntilEndOfTurn"
  | untilEndOfCombat => "UntilEndOfCombat"
  | permanent => "Permanent"
  | untilLeavesPlay => "UntilLeavesPlay"

end Duration

end CardRules
