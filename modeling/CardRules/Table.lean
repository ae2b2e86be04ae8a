import CardRules.Card
import CardRules.Player
import CardRules.Store
import CardRules.Turn
import CardRules.Zone

/-!
# The table

Everything in a game but the stack: the cards, the players with their piles, the battlefield and
the turn. Players are numbered first, in table order, then the battlefield; cards follow.
-/

set_option autoImplicit false

namespace CardRules

/-- The state of a game, apart from abilities and the stack. -/
structure Table where
  cards : Store Card := {}
  /-- The players in table order. -/
  players : List Player
  zones : List (PlayerId × PlayerZones)
  battlefield : Pile
  turn : Turn
  /-- The number the next card gets. -/
  nextId : EntityId
deriving DecidableEq, Repr

namespace Table

/-- A table with players seated in the given order; the first one is active. -/
def seat (names : List String) (life : Int32) : Table :=
  let ids := (List.range names.length).map fun i => (⟨UInt32.ofNat (i + 1)⟩ : PlayerId)
  let field : EntityId := ⟨UInt32.ofNat (names.length + 1)⟩
  { players := (ids.zip names).map fun (id, name) => { id, name, life }
    zones := ids.map fun id => (id, PlayerZones.empty id)
    battlefield := { zone := .battlefield, owner := field }
    turn := { active := ids.headD field }
    nextId := field.next }

/-- The numbers of the players, in table order. -/
def seats (table : Table) : List PlayerId := table.players.map (·.id)

/-- A player by number. -/
def player? (table : Table) (id : PlayerId) : Option Player :=
  table.players.find? fun player => player.id == id

/-- A card by number. -/
def card? (table : Table) (id : CardId) : Option Card := table.cards.get? id

/-- The piles of a player. -/
def zones? (table : Table) (id : PlayerId) : Option PlayerZones := table.zones.lookup id

/-- The table with a player changed. -/
def updatePlayer (table : Table) (id : PlayerId) (f : Player → Player) : Table :=
  { table with players := table.players.map fun player => if player.id == id then f player else player }

/-- The table with a player's piles changed. -/
def updateZones (table : Table) (id : PlayerId) (f : PlayerZones → PlayerZones) : Table :=
  { table with zones := table.zones.map fun (key, zones) => (key, if key == id then f zones else zones) }

/-- The table with a card changed. -/
def updateCard (table : Table) (id : CardId) (f : Card → Card) : Table :=
  { table with cards := table.cards.update id f }

/-- The other player of a game of two. -/
def opponent? (table : Table) (id : PlayerId) : Option PlayerId :=
  if table.players.length = 2 then (table.players.find? fun player => player.id != id).map (·.id)
  else none

/-- Whether a card is on the battlefield. -/
def onBattlefield (table : Table) (id : CardId) : Bool := table.battlefield.contains id

/-- The number of cards in a player's hand. -/
def handSize (table : Table) (id : PlayerId) : Nat :=
  (table.zones? id).elim 0 fun zones => zones.hand.cards.length

/-- The permanents of a type that a player controls, in battlefield order. -/
def permanents (table : Table) (player : PlayerId) (type : CardType) : List CardId :=
  table.battlefield.cards.filter fun id =>
    (table.card? id).any fun card => card.controller == player && card.isType type

/-- Whether a player can pay the mana and the life of a cost. -/
def canPay (table : Table) (player : PlayerId) (cost : Cost) : Bool :=
  (table.player? player).any fun player => player.canPay cost

/-- The colors of a card; a card that is not there has none. -/
def colorsOf (table : Table) (card : CardId) : List Color :=
  (table.card? card).elim [] fun card => card.colors

/-- A card as messages name it. -/
def cardName (table : Table) (card : CardId) : String :=
  (table.card? card).elim card.text fun card => card.name

/-- The table with a card added under the next number, outside every zone. -/
def insertCard (table : Table) (card : Card) : CardId × Table :=
  let id := table.nextId
  (id, { table with cards := table.cards.insert id { card with id }, nextId := id.next })

/-- The table with a card without characteristics added, outside every zone. -/
def createCard (table : Table) (name : String) (owner : PlayerId) : CardId × Table :=
  table.insertCard (.blank table.nextId name owner)

/-- The table with a card added on the battlefield. -/
def createPermanent (table : Table) (card : Card) : CardId × Table :=
  let (id, table) := table.insertCard card
  (id, { table with battlefield := table.battlefield.add id })

/-- The table at another step of the turn. -/
def setStep (table : Table) (step : Step) : Table :=
  { table with turn := { table.turn with step } }

/-- A card after a duration has run out; the end of the turn also takes its damage away. -/
def expireCard (elapsed : Duration) (card : Card) : Card :=
  let card := card.expire elapsed
  if elapsed = .untilEndOfTurn then { card with damage := 0 } else card

/-- The table one step on, and whether there was a step left. The durations tied to the step
that is left run out for every card on the battlefield. -/
def advanceStep (table : Table) : Bool × Table :=
  let cards := match table.turn.step.endsDuration with
    | none => table.cards
    | some elapsed =>
      table.battlefield.cards.foldl (fun cards id => cards.update id (expireCard elapsed)) table.cards
  let (more, turn) := table.turn.advance
  (more, { table with cards, turn })

/-- The player after this one in a cyclic order; for one who is not in it, the second. -/
def nextSeat (seats : List PlayerId) (player : PlayerId) : Option PlayerId :=
  let i := if seats.contains player then seats.idxOf player else 0
  seats[i + 1]? <|> seats.head?

/-- The table at the start of the next player's turn, with all mana pools empty. -/
def nextTurn (table : Table) : Table :=
  match nextSeat table.seats table.turn.active with
  | none => table
  | some next =>
    { table with players := table.players.map (·.emptyPool), turn := table.turn.pass next }

/-- Whether a creature on the battlefield has to die: its toughness is gone, or its damage is
lethal and it is not indestructible. -/
def isDying (card : Card) : Bool :=
  match card.currentToughness with
  | none => false
  | some toughness =>
    toughness ≤ 0 || (toughness ≤ card.damage.toInt && !card.hasKeyword .indestructible)

/-- The creatures on the battlefield that have to die, in battlefield order. -/
def dying (table : Table) : List CardId :=
  table.battlefield.cards.filter fun id => (table.card? id).any isDying

end Table

end CardRules
