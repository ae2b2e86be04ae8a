import CardRules.Fault
import CardRules.Spell

/-!
# Items on the stack

A spell or an ability on its way to resolve, with its controller and the choices made for it. Here
also are the questions that can be asked of the items of a stack without anything else: which of
them are spells that can still be targeted, and the marking of a spell as countered.
-/

set_option autoImplicit false

namespace CardRules

/-- What an item on the stack is. -/
inductive StackObject where
  | spell (spell : Spell)
  | ability (ability : Ability)
deriving DecidableEq, Repr, Inhabited

namespace StackObject

/-- The name of an object. -/
def name : StackObject → String
  | spell s => s.name
  | ability a => a.name

/-- The effects of an object. -/
def effects : StackObject → List Effect
  | spell s => s.effects
  | ability a => a.effects

/-- The card an object comes from. -/
def source : StackObject → CardId
  | spell s => s.source
  | ability a => a.source

/-- The rules text of an object. -/
def oracleText : StackObject → String
  | spell s => s.oracleText
  | ability a => a.oracleText

/-- All target requirements, in the order of the effects. -/
def targets (object : StackObject) : List Target := Effect.targetsOf object.effects

/-- The spell, if the object is one. -/
def spell? : StackObject → Option Spell
  | spell s => some s
  | ability _ => none

/-- Whether the object is a spell. -/
def isSpell (object : StackObject) : Bool := object.spell?.isSome

end StackObject

/-- An item on the stack. -/
structure StackItem where
  id : ItemId
  object : StackObject
  controller : PlayerId
  targets : List Choice
  x : Option UInt32 := none
  countered : Bool := false
deriving DecidableEq, Repr, Inhabited

namespace StackItem

/-- Whether the item is a spell that can still be targeted. -/
def isOpenSpell (item : StackItem) : Bool := item.object.isSpell && !item.countered

/-- The spell with a number, if it can still be targeted, and its controller. -/
def findSpell? (items : List StackItem) (id : ItemId) : Option (Spell × PlayerId) := do
  let item ← items.find? fun item => item.id == id && !item.countered
  let spell ← item.object.spell?
  pure (spell, item.controller)

/-- The numbers of the spells that can still be targeted, bottom first. -/
def openSpells (items : List StackItem) : List ItemId :=
  (items.filter (·.isOpenSpell)).map (·.id)

/-- The items with one spell marked as countered. -/
def counter (items : List StackItem) (id : ItemId) : Except Fault (List StackItem) :=
  match items.find? fun item => item.id == id with
  | none => .error (.violation (.itemNotFound id))
  | some item =>
    if item.object.isSpell then
      .ok (items.map fun item => if item.id == id then { item with countered := true } else item)
    else .error (.violation (.counterNonSpell id))

end StackItem

end CardRules
