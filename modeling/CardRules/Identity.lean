/-!
# Identities

Players, cards and the battlefield share one series of numbers; abilities and items on the stack
have series of their own. The ability number zero is reserved for "no ability".
-/

set_option autoImplicit false

namespace CardRules

/-- The number of a player, a card or the battlefield. -/
structure EntityId where
  number : UInt32
deriving DecidableEq, Repr, Inhabited

/-- The number of a player. -/
abbrev PlayerId := EntityId

/-- The number of a card. -/
abbrev CardId := EntityId

/-- The number of an ability. -/
structure AbilityId where
  number : UInt32
deriving DecidableEq, Repr, Inhabited

/-- The number of an item on the stack. -/
structure ItemId where
  number : UInt32
deriving DecidableEq, Repr, Inhabited

/-- The number in decimal. -/
def EntityId.text (id : EntityId) : String := toString id.number.toNat

/-- The identity after this one. -/
def EntityId.next (id : EntityId) : EntityId := ⟨id.number + 1⟩

/-- The reserved number that no ability carries. -/
def AbilityId.nil : AbilityId := ⟨0⟩

/-- The first number an ability can carry. -/
def AbilityId.first : AbilityId := ⟨1⟩

/-- How an ability is referred to in messages. -/
def AbilityId.text (id : AbilityId) : String := s!"ability#{id.number.toNat}"

/-- The identity after this one. -/
def AbilityId.next (id : AbilityId) : AbilityId := ⟨id.number + 1⟩

/-- The first number an item on the stack carries. -/
def ItemId.first : ItemId := ⟨1⟩

/-- How an item on the stack is referred to in messages. -/
def ItemId.text (id : ItemId) : String := s!"stack#{id.number.toNat}"

/-- The identity after this one. -/
def ItemId.next (id : ItemId) : ItemId := ⟨id.number + 1⟩

end CardRules
