import CardRules.Stack.Item
import CardRules.Table

/-!
# Candidates for targeting

What a target requirement looks at: a player, a permanent or a spell on the stack, with the
properties it has. A property that objects of its sort do not have is missing.

A view is what can be looked at: the table, and the items of the stack where the stack is in view.
-/

set_option autoImplicit false

namespace CardRules

/-- What abilities and effects can look at. -/
structure View where
  table : Table
  /-- The items of the stack, or none where the stack is out of view. -/
  items : List StackItem := []
  /-- Whether every mana and life payment is taken to be possible beforehand. -/
  lenient : Bool := false
deriving DecidableEq, Repr

/-- Something that could be targeted. -/
structure Candidate where
  reference : Choice
  controller : Option PlayerId := none
  controllerName : Option String := none
  types : Option (List CardType) := none
  subtypes : Option (List Subtype) := none
  colors : Option (List Color) := none
  keywords : Option (List Keyword) := none
  power : Option Int := none
  toughness : Option Int := none
  manaValue : Option Int := none
  tapped : Option Bool := none
  /-- The name of a player. -/
  playerName : Option String := none
deriving DecidableEq, Repr, Inhabited

namespace Candidate

/-- A player as a candidate. -/
def ofPlayer (player : Player) : Candidate where
  reference := .player player.id
  playerName := some player.name

/-- A permanent as a candidate. -/
def ofCard (card : Card) (controllerName : Option String) : Candidate where
  reference := .permanent card.id
  controller := some card.controller
  controllerName := controllerName
  types := some card.types
  subtypes := some card.subtypes
  colors := some card.colors
  keywords := some card.keywords
  power := card.currentPower
  toughness := card.currentToughness
  manaValue := some card.manaCost.manaValue.toNat
  tapped := some card.tapped

/-- A spell on the stack as a candidate. -/
def ofSpell (item : ItemId) (spell : Spell) (controller : PlayerId)
    (controllerName : Option String) : Candidate where
  reference := .spell item
  controller := some controller
  controllerName := controllerName
  types := some spell.types
  colors := some spell.manaCost.colors
  manaValue := some spell.manaCost.manaValue.toNat

/-- Whether the candidate is known to have a card type. -/
def hasType (candidate : Candidate) (type : CardType) : Bool :=
  candidate.types.any fun types => types.contains type

/-- Whether the candidate is known to have a keyword. -/
def hasKeyword (candidate : Candidate) (keyword : Keyword) : Bool :=
  candidate.keywords.any fun keywords => keywords.contains keyword

end Candidate

namespace View

/-- The name of a player. -/
def playerName? (view : View) (id : PlayerId) : Option String :=
  (view.table.player? id).map (·.name)

/-- The candidate a choice names, unless it is no longer where it was: a permanent must be on the
battlefield, a spell on the stack and not countered. -/
def candidate? (view : View) : Choice → Option Candidate
  | .player id => (view.table.player? id).map Candidate.ofPlayer
  | .permanent id =>
    if view.table.onBattlefield id then
      (view.table.card? id).map fun card => .ofCard card (view.playerName? card.controller)
    else none
  | .spell item =>
    (StackItem.findSpell? view.items item).map fun (spell, controller) =>
      .ofSpell item spell controller (view.playerName? controller)

/-- Every choice there is: the players, the permanents, the spells. -/
def choices (view : View) : List Choice :=
  view.table.seats.map .player ++ view.table.battlefield.cards.map .permanent ++
    (StackItem.openSpells view.items).map .spell

/-- Every candidate in view. -/
def candidates (view : View) : List Candidate := view.choices.filterMap view.candidate?

end View

end CardRules
