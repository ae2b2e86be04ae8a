import CardRules.CardType
import CardRules.Duration
import CardRules.Identity
import CardRules.Keyword
import CardRules.Mana.Cost

/-!
# Cards

A card, in whichever zone it is: its printed characteristics, its owner and controller, and what
the battlefield adds to it (tapped, damage, changes of power and toughness for a time).
-/

set_option autoImplicit false

namespace CardRules

/-- A change of power and toughness for a time. -/
structure Modifier where
  power : Int32
  toughness : Int32
  duration : Duration
deriving DecidableEq, Repr, Inhabited

/-- A card. -/
structure Card where
  id : CardId
  name : String
  manaCost : ManaCost := {}
  types : List CardType := []
  subtypes : List Subtype := []
  colors : List Color := []
  power : Option Int8 := none
  toughness : Option Int8 := none
  text : String := ""
  owner : PlayerId
  controller : PlayerId
  tapped : Bool := false
  keywords : List Keyword := []
  modifiers : List Modifier := []
  damage : Int32 := 0
deriving DecidableEq, Repr, Inhabited

namespace Card

/-- A card without characteristics, controlled by its owner. -/
def blank (id : CardId) (name : String) (owner : PlayerId) : Card :=
  { id := id, name := name, owner := owner, controller := owner }

/-- Whether the card has a type. -/
def isType (card : Card) (type : CardType) : Bool := card.types.contains type

/-- Whether the card has a subtype, case disregarded. -/
def hasSubtype (card : Card) (name : String) : Bool :=
  card.subtypes.any fun subtype => subtype.isNamed name

/-- Whether the card has a keyword. -/
def hasKeyword (card : Card) (keyword : Keyword) : Bool := card.keywords.contains keyword

/-- The power with all changes, for a card that has power. -/
def currentPower (card : Card) : Option Int :=
  card.power.map fun power =>
    card.modifiers.foldr (fun modifier sum => modifier.power.toInt + sum) power.toInt

/-- The toughness with all changes, for a card that has toughness. -/
def currentToughness (card : Card) : Option Int :=
  card.toughness.map fun toughness =>
    card.modifiers.foldr (fun modifier sum => modifier.toughness.toInt + sum) toughness.toInt

/-- The card with one more change of power and toughness. -/
def addModifier (card : Card) (power toughness : Int32) (duration : Duration) : Card :=
  { card with modifiers := card.modifiers ++ [⟨power, toughness, duration⟩] }

/-- The card without the changes that last as long as `elapsed`. -/
def expire (card : Card) (elapsed : Duration) : Card :=
  { card with modifiers := card.modifiers.filter (·.duration != elapsed) }

/-- The card as it is away from the battlefield: untapped, undamaged, unchanged and under its
owner's control. -/
def leaveBattlefield (card : Card) : Card :=
  { card with tapped := false, damage := 0, modifiers := [], controller := card.owner }

end Card

end CardRules
