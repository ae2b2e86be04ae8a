import CardRules.Act
import CardRules.Table

/-!
# Changes at the table

What effects and payments do to a table. Each change is an action: it fails with a cause, and a
failure keeps what was done before it. In particular a permanent whose owner has no piles is gone
from the battlefield when it was to be moved to one of them.
-/

set_option autoImplicit false

namespace CardRules.Table

/-- An action on a table. -/
abbrev Change (α : Type) : Type := Act Table α

/-- Reports an event of the table. -/
def report (event : Event) : Change Unit := Act.report .table event

/-- A card that must exist. -/
def requireCard (id : CardId) : Change Card := do
  Act.require (.unknownEntity id) ((← Act.get).card? id)

/-- A player that must exist. -/
def requirePlayer (id : PlayerId) : Change Player := do
  Act.require (.unknownEntity id) ((← Act.get).player? id)

/-- The piles of a player, who must have some. -/
def requireZones (id : PlayerId) : Change PlayerZones := do
  Act.require (.unknownEntity id) ((← Act.get).zones? id)

/-- Changes a player, who must exist. -/
def changePlayer (id : PlayerId) (f : Player → Player) : Change Unit := do
  let _ ← requirePlayer id
  Act.modify (·.updatePlayer id f)

/-- A card that must be on the battlefield and exist. -/
def requirePermanent (id : CardId) : Change Card := do
  if (← Act.get).onBattlefield id then requireCard id else Act.fail (.unknownEntity id)

/-- Changes a card, which must be on the battlefield and exist. -/
def changePermanent (id : CardId) (f : Card → Card) : Change Unit := do
  let _ ← requirePermanent id
  Act.modify (·.updateCard id f)

/-- Puts a card into one of its owner's piles, or onto the battlefield. -/
def place (id : CardId) (zone : Zone) : Change Unit := do
  let card ← requireCard id
  if zone = .battlefield then
    Act.modify fun table => { table with battlefield := table.battlefield.add id }
  else
    let _ ← requireZones card.owner
    Act.modify (·.updateZones card.owner (·.add zone id))

/-- Takes a card out of one of its owner's piles, or off the battlefield; it must be there. -/
def takeFrom (id : CardId) (zone : Zone) : Change Unit := do
  let card ← requireCard id
  if zone = .battlefield then
    match (← Act.get).battlefield.remove? id with
    | some battlefield => Act.modify fun table => { table with battlefield }
    | none => Act.fail (.unknownEntity id)
  else
    let zones ← requireZones card.owner
    match zones.remove? zone id with
    | some zones => Act.modify (·.updateZones card.owner fun _ => zones)
    | none => Act.fail (.unknownEntity id)

/-- Moves a card between zones. A card that leaves the battlefield leaves behind what the
battlefield added to it. -/
def move (id : CardId) (source target : Zone) : Change Unit := do
  takeFrom id source
  place id target
  if source = .battlefield then
    Act.modify (·.updateCard id Card.leaveBattlefield)
  report (.verbose (id.text ++ " moved from " ++ source.name ++ " to " ++ target.name))

/-- Buries the creatures that have to die, and answers which they were. -/
def buryDying : Change (List CardId) := do
  let dying := (← Act.get).dying
  dying.forM fun id => do
    move id .battlefield .graveyard
    report (.normal ((← Act.get).cardName id ++ " died"))
  pure dying

/-- Deducts the mana and the life of a cost; nothing changes on failure. -/
def pay (player : PlayerId) (cost : Cost) : Change Unit := do
  let payer ← requirePlayer player
  let paid ← Act.ofExcept (payer.pay cost)
  Act.modify (·.updatePlayer player fun _ => paid)

/-- Discards cards from the top of a hand, which must have that many. -/
def discard (player : PlayerId) (count : Nat) : Change Unit := do
  let zones ← requireZones player
  let size := zones.hand.cards.length
  if size < count then Act.fail (.payment (.hand count size))
  else Act.modify (·.updateZones player (·.discard count))

/-- Moves a permanent to its owner's graveyard as a payment. -/
def sacrifice (id : CardId) : Change Unit := do
  move id .battlefield .graveyard
  report (.normal ((← Act.get).cardName id ++ " was sacrificed"))

/-- Taps a permanent. -/
def tap (id : CardId) : Change Unit := changePermanent id fun card => { card with tapped := true }

/-- Untaps a permanent. -/
def untap (id : CardId) : Change Unit := changePermanent id fun card => { card with tapped := false }

/-- Adds mana to a player's pool. -/
def addMana (player : PlayerId) (color : Color) (amount : UInt8) : Change Unit := do
  changePlayer player (·.addMana color amount)
  report (.verbose (s!"{player.text} added {amount.toNat} {color.symbol} mana"))

/-- Deals damage: a player loses life, a permanent is marked. -/
def damage (target : Choice) (amount : Int32) (source : CardId) : Change Unit := do
  match target with
  | .player player => changePlayer player (·.loseLife amount)
  | .permanent id =>
    changePermanent id fun card => { card with damage := Capped.addWord card.damage amount }
  | .spell item => Act.fail (.invalidTarget 0 (.undamageable item))
  report (.normal ((← Act.get).cardName source ++ " deals " ++ toString amount.toInt ++
    " damage to " ++ target.text))

/-- Draws cards, as many as the library has. -/
def draw (player : PlayerId) (count : Nat) : Change Unit := do
  let zones ← requireZones player
  let (cards, zones) := zones.draw count
  Act.modify (·.updateZones player fun _ => zones)
  if cards.length < count then
    report (.normal (player.text ++ " tried to draw " ++ toString count ++
      " card(s) from a library of " ++ toString cards.length))

/-- Mills cards, as many as the library has. -/
def mill (player : PlayerId) (count : Nat) : Change Unit := do
  let zones ← requireZones player
  let (cards, zones) := zones.mill count
  Act.modify (·.updateZones player fun _ => zones)
  report (.verbose (player.text ++ " milled " ++ toString cards.length ++ " card(s)"))

/-- A player gains life. -/
def gainLife (player : PlayerId) (amount : Int32) : Change Unit :=
  changePlayer player (·.gainLife amount)

/-- A player loses life. -/
def loseLife (player : PlayerId) (amount : Int32) : Change Unit :=
  changePlayer player (·.loseLife amount)

/-- Changes the power and toughness of a permanent for a time. -/
def pump (id : CardId) (power toughness : Int32) (duration : Duration) : Change Unit :=
  changePermanent id (·.addModifier power toughness duration)

/-- Destroys a permanent unless it is indestructible, and answers whether it left. -/
def destroy (id : CardId) : Change Bool := do
  let card ← requirePermanent id
  if card.hasKeyword .indestructible then
    report (.normal (card.name ++ " is indestructible"))
    pure false
  else
    move id .battlefield .graveyard
    report (.normal ((← Act.get).cardName id ++ " was destroyed"))
    pure true

end CardRules.Table
