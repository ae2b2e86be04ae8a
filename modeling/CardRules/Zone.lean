import CardRules.Identity

/-!
# Zones

Cards lie in piles, whose top is the end of the list. Each player has a library, a hand, a
graveyard and an exile pile; the battlefield is one pile shared by all.
-/

set_option autoImplicit false

namespace CardRules

/-- A place where cards are. -/
inductive Zone where
  | library
  | hand
  | battlefield
  | graveyard
  | exile
deriving DecidableEq, Repr, Inhabited

namespace Zone

/-- Every zone. -/
def all : List Zone := [library, hand, battlefield, graveyard, exile]

/-- The name of a zone. -/
def name : Zone → String
  | library => "Library"
  | hand => "Hand"
  | battlefield => "Battlefield"
  | graveyard => "Graveyard"
  | exile => "Exile"

end Zone

/-- An ordered pile of cards, top last. -/
structure Pile where
  zone : Zone
  owner : EntityId
  cards : List CardId := []
deriving DecidableEq, Repr, Inhabited

namespace Pile

/-- The pile with a card on top. -/
def add (pile : Pile) (card : CardId) : Pile := { pile with cards := pile.cards ++ [card] }

/-- Whether a card is in the pile. -/
def contains (pile : Pile) (card : CardId) : Bool := pile.cards.contains card

/-- The pile without one occurrence of a card, the lowest, if the card is there. -/
def remove? (pile : Pile) (card : CardId) : Option Pile :=
  if pile.contains card then some { pile with cards := pile.cards.erase card } else none

/-- The top card. -/
def top? (pile : Pile) : Option CardId := pile.cards.getLast?

/-- The top cards, at most `count`, in the order in which they are taken. -/
def top (pile : Pile) (count : Nat) : List CardId := pile.cards.reverse.take count

/-- The pile without its top cards. -/
def dropTop (pile : Pile) (count : Nat) : Pile :=
  { pile with cards := pile.cards.take (pile.cards.length - count) }

/-- The pile with cards put on it one after the other. -/
def addAll (pile : Pile) (cards : List CardId) : Pile := { pile with cards := pile.cards ++ cards }

end Pile

/-- The piles of one player. -/
structure PlayerZones where
  library : Pile
  hand : Pile
  graveyard : Pile
  exile : Pile
deriving DecidableEq, Repr, Inhabited

namespace PlayerZones

/-- Empty piles of a player. -/
def empty (player : PlayerId) : PlayerZones where
  library := { zone := .library, owner := player }
  hand := { zone := .hand, owner := player }
  graveyard := { zone := .graveyard, owner := player }
  exile := { zone := .exile, owner := player }

/-- The pile of a zone; the battlefield is not a player's. -/
def pile? (zones : PlayerZones) : Zone → Option Pile
  | .library => some zones.library
  | .hand => some zones.hand
  | .graveyard => some zones.graveyard
  | .exile => some zones.exile
  | .battlefield => none

/-- The piles with one of them replaced; for the battlefield nothing changes. -/
def setPile (zones : PlayerZones) (zone : Zone) (pile : Pile) : PlayerZones :=
  match zone with
  | .library => { zones with library := pile }
  | .hand => { zones with hand := pile }
  | .graveyard => { zones with graveyard := pile }
  | .exile => { zones with exile := pile }
  | .battlefield => zones

/-- The piles with a card added to one of them. -/
def add (zones : PlayerZones) (zone : Zone) (card : CardId) : PlayerZones :=
  match zones.pile? zone with
  | some pile => zones.setPile zone (pile.add card)
  | none => zones

/-- The piles without a card of one of them, if it was there. -/
def remove? (zones : PlayerZones) (zone : Zone) (card : CardId) : Option PlayerZones := do
  let pile ← zones.pile? zone
  let pile ← pile.remove? card
  pure (zones.setPile zone pile)

/-- The cards taken by drawing `count` cards, and the piles after it: they go from the top of the
library to the hand one by one, as long as there are any. -/
def draw (zones : PlayerZones) (count : Nat) : List CardId × PlayerZones :=
  let cards := zones.library.top count
  (cards, { zones with
    library := zones.library.dropTop count
    hand := zones.hand.addAll cards })

/-- The cards taken by milling `count` cards, and the piles after it: they go from the top of the
library to the graveyard one by one, as long as there are any. -/
def mill (zones : PlayerZones) (count : Nat) : List CardId × PlayerZones :=
  let cards := zones.library.top count
  (cards, { zones with
    library := zones.library.dropTop count
    graveyard := zones.graveyard.addAll cards })

/-- The piles after discarding the top `count` cards of the hand one by one. -/
def discard (zones : PlayerZones) (count : Nat) : PlayerZones :=
  { zones with
    hand := zones.hand.dropTop count
    graveyard := zones.graveyard.addAll (zones.hand.top count) }

end PlayerZones

end CardRules
