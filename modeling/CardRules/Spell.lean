import CardRules.Ability
import CardRules.Card

/-!
# Spells

What a player casts. A spell resolves by its effects as an ability does, but it is paid with mana
alone and its timing depends on its types.
-/

set_option autoImplicit false

namespace CardRules

/-- A spell being cast. -/
structure Spell where
  name : String
  manaCost : ManaCost := {}
  types : List CardType := []
  oracleText : String := ""
  effects : List Effect
  /-- The card the spell is cast from. -/
  source : CardId
  /-- Castable whenever its controller holds priority. -/
  flash : Bool := false
deriving DecidableEq, Repr, Inhabited

namespace Spell

/-- The spell of a card. -/
def ofCard (card : Card) (effects : List Effect) : Spell where
  name := card.name
  manaCost := card.manaCost
  types := card.types
  oracleText := card.text
  effects := effects
  source := card.id
  flash := card.hasKeyword .flash

/-- Whether the spell is an instant. -/
def isInstant (spell : Spell) : Bool := spell.types.contains .instant

/-- Whether the spell needs an empty stack in a main phase: all but instants and spells with
flash do. -/
def isSorcerySpeed (spell : Spell) : Bool := !spell.isInstant && !spell.flash

/-- Whether the spell becomes a permanent. -/
def isPermanent (spell : Spell) : Bool := spell.types.any (·.isPermanent)

/-- All target requirements, in the order of the effects. -/
def targets (spell : Spell) : List Target := Effect.targetsOf spell.effects

end Spell

end CardRules
