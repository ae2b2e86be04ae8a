import CardRules.Proofs.Table.Keeps

/-!
# Taking a card up and putting it down

A move takes a card up (`Table.TakenUp`) and puts it down (`Table.putDown`). Both touch the battlefield or the
piles of the card's owner and nothing else, and each of them, if it fails, leaves no trace. So a move that fails
has left the table as it was, unless it fails between the two. Then a permanent was taken up that is to go to
one of its owner's piles, and the owner has none (`Table.Strands`): taking a card out of a pile asks for the
piles of its owner, and taking it off the battlefield does not.
-/

set_option autoImplicit false

namespace CardRules.Table

open Act

/-- The table without a card on the battlefield. -/
def lift (table : Table) (id : CardId) : Table :=
  { table with
    battlefield := { table.battlefield with cards := table.battlefield.cards.erase id } }

/-- The table without a card that was in one of its places: on the battlefield, or in a pile of its owner. -/
inductive TakenUp (table : Table) (id : CardId) (owner : PlayerId) : Zone → Table → Prop where
  | field (h : table.onBattlefield id = true) : TakenUp table id owner .battlefield (table.lift id)
  | pile {zone : Zone} {zones rest : PlayerZones} (hzone : zone ≠ .battlefield)
      (hzones : table.zones? owner = some zones) (hrest : zones.remove? zone id = some rest) :
      TakenUp table id owner zone (table.updateZones owner fun _ => rest)

/-- The table with a card put into one of its places. -/
def putDown (table : Table) (id : CardId) (owner : PlayerId) (zone : Zone) : Table :=
  if zone = .battlefield then { table with battlefield := table.battlefield.add id }
  else table.updateZones owner (·.add zone id)

/-- The table after a card has left a zone: only the battlefield leaves something on it. -/
def afterLeaving (table : Table) (id : CardId) (source : Zone) : Table :=
  if source = .battlefield then table.updateCard id Card.leaveBattlefield else table

/-- A permanent is to go to a pile of its owner, who has none. -/
structure Strands (table : Table) (id : CardId) (source target : Zone) (owner : PlayerId) : Prop where
  source : source = .battlefield
  target : target ≠ .battlefield
  card : ∃ card, table.permanent? id = some card ∧ card.owner = owner
  piles : table.zones? owner = none

variable {table taken : Table} {id : CardId} {card : Card} {source target zone : Zone}
  {owner : PlayerId}

theorem TakenUp.keeps (h : table.TakenUp id owner zone taken) : Keeps table taken := by
  cases h with
  | field h => exact keeps_remove (if_pos h)
  | pile hzone hzones hrest => exact keeps_updateZones table owner _

theorem TakenUp.card? (h : table.TakenUp id owner zone taken) (key : CardId) :
    taken.card? key = table.card? key := by
  cases h <;> rfl

theorem card?_putDown (table : Table) (id key : CardId) (owner : PlayerId) (zone : Zone) :
    (table.putDown id owner zone).card? key = table.card? key := by
  unfold putDown
  split
  · rfl
  · rfl

theorem seats_putDown (table : Table) (id : CardId) (owner : PlayerId) (zone : Zone) :
    (table.putDown id owner zone).seats = table.seats := by
  unfold putDown
  split
  · rfl
  · rfl

theorem piles_putDown (table : Table) (id : CardId) (owner : PlayerId) (zone : Zone)
    (player : PlayerId) :
    ((table.putDown id owner zone).zones? player).isSome = (table.zones? player).isSome := by
  unfold putDown
  split
  · rfl
  · exact (keeps_updateZones table owner _).piles player

theorem mem_battlefield_putDown {key : CardId} (h : key ∈ table.battlefield.cards) :
    key ∈ (table.putDown id owner zone).battlefield.cards := by
  unfold putDown
  split
  · exact List.mem_append_left [id] h
  · exact h

theorem outcome_takeFrom_battlefield (hcard : table.card? id = some card)
    (hfield : table.onBattlefield id = true) :
    (takeFrom id .battlefield).outcome table = (.ok (), table.lift id) := by
  have hremove : table.battlefield.remove? id = some (table.lift id).battlefield := if_pos hfield
  unfold takeFrom
  rw [outcome_bind_ok (outcome_requireCard hcard), if_pos rfl, outcome_bind_ok (outcome_get table),
    hremove]
  rfl

/-- A card is taken up if it is in its place, and nothing happens otherwise. -/
theorem outcome_takeFrom_cases (table : Table) (id : CardId) (zone : Zone) :
    (∃ fault, (takeFrom id zone).outcome table = (.error fault, table)) ∨
      ∃ card taken, table.card? id = some card ∧ table.TakenUp id card.owner zone taken ∧
        (takeFrom id zone).outcome table = (.ok (), taken) := by
  cases hcard : table.card? id with
  | none =>
    unfold takeFrom
    rw [outcome_bind_error (outcome_requireCard_none hcard)]
    exact .inl ⟨_, rfl⟩
  | some card =>
    by_cases hzone : zone = .battlefield
    · subst hzone
      by_cases hfield : table.onBattlefield id = true
      · exact .inr ⟨card, table.lift id, rfl, .field hfield, outcome_takeFrom_battlefield hcard hfield⟩
      · have hremove : table.battlefield.remove? id = none := if_neg hfield
        unfold takeFrom
        rw [outcome_bind_ok (outcome_requireCard hcard), if_pos rfl,
          outcome_bind_ok (outcome_get table), hremove]
        exact .inl ⟨_, rfl⟩
    · unfold takeFrom
      rw [outcome_bind_ok (outcome_requireCard hcard), if_neg hzone]
      cases hzones : table.zones? card.owner with
      | none =>
        rw [outcome_bind_error (outcome_requireZones_none hzones)]
        exact .inl ⟨_, rfl⟩
      | some zones =>
        rw [outcome_bind_ok (outcome_requireZones hzones)]
        cases hremove : zones.remove? zone id with
        | none => exact .inl ⟨_, rfl⟩
        | some rest => exact .inr ⟨card, _, rfl, .pile hzone hzones hremove, rfl⟩

/-- A card that exists is put down unless it is to go to a pile that is not there. -/
theorem outcome_place_eq (hcard : table.card? id = some card) (zone : Zone) :
    (place id zone).outcome table =
      if zone = .battlefield ∨ (table.zones? card.owner).isSome = true then
        (.ok (), table.putDown id card.owner zone)
      else (.error (.unknownEntity card.owner), table) := by
  unfold place putDown
  rw [outcome_bind_ok (outcome_requireCard hcard)]
  by_cases hzone : zone = .battlefield
  · rw [if_pos hzone, if_pos (.inl hzone), if_pos hzone]
    rfl
  · rw [if_neg hzone, if_neg hzone]
    cases hzones : table.zones? card.owner with
    | none =>
      rw [outcome_bind_error (outcome_requireZones_none hzones), if_neg]
      simp [hzone]
    | some zones =>
      rw [outcome_bind_ok (outcome_requireZones hzones), if_pos (.inr rfl)]
      rfl

/-! ## Moves -/

/-- Where the owner of every card has piles, no card can be stranded. -/
theorem not_strands_of_piles
    (h : ∀ id card, table.card? id = some card → (table.zones? card.owner).isSome = true) :
    ¬table.Strands id source target owner := by
  rintro ⟨-, -, ⟨card, hcard, rfl⟩, hpiles⟩
  have hsome := h id card (permanent?_eq_some_iff.mp hcard).2
  rw [hpiles] at hsome
  simp at hsome

/-- A permanent that is stranded is in no place any more. -/
theorem Strands.outcome_move (h : table.Strands id source target owner) :
    (move id source target).outcome table = (.error (.unknownEntity owner), table.lift id) := by
  obtain ⟨rfl, htarget, ⟨card, hcard, rfl⟩, hpiles⟩ := h
  obtain ⟨hfield, hthere⟩ := permanent?_eq_some_iff.mp hcard
  have hthere' : (table.lift id).card? id = some card := hthere
  have hpiles' : (table.lift id).zones? card.owner = none := hpiles
  have hplace : (place id target).outcome (table.lift id) =
      (.error (.unknownEntity card.owner), table.lift id) := by
    rw [outcome_place_eq hthere', hpiles', if_neg]
    rintro (htarget' | hsome)
    · exact htarget htarget'
    · simp at hsome
  unfold move
  rw [outcome_bind_ok (outcome_takeFrom_battlefield hthere hfield), outcome_bind_error hplace]

/-- A move that is not stopped is both of its halves, and then the card leaves behind what it has to. -/
theorem outcome_move {placed : Table} (htake : (takeFrom id source).outcome table = (.ok (), taken))
    (hplace : (place id target).outcome taken = (.ok (), placed)) :
    (move id source target).outcome table = (.ok (), placed.afterLeaving id source) := by
  unfold move afterLeaving
  rw [outcome_bind_ok htake, outcome_bind_ok hplace]
  dsimp only
  split
  · rfl
  · rfl

/-- A move fails and changes nothing, or strands the card, or puts down what it has taken up. -/
theorem outcome_move_cases (table : Table) (id : CardId) (source target : Zone) :
    (∃ fault, (move id source target).outcome table = (.error fault, table)) ∨
      (∃ owner, table.Strands id source target owner) ∨
      ∃ card taken, table.card? id = some card ∧ table.TakenUp id card.owner source taken ∧
        (move id source target).outcome table =
          (.ok (), (taken.putDown id card.owner target).afterLeaving id source) := by
  rcases outcome_takeFrom_cases table id source with ⟨fault, hfail⟩ | ⟨card, taken, hcard, htaken, htake⟩
  · unfold move
    rw [outcome_bind_error hfail]
    exact .inl ⟨fault, rfl⟩
  · have hplace := outcome_place_eq ((htaken.card? id).trans hcard) target
    rw [htaken.keeps.piles] at hplace
    split at hplace
    · exact .inr (.inr ⟨card, taken, hcard, htaken, outcome_move htake hplace⟩)
    · rename_i hnone
      obtain ⟨htarget, hpiles⟩ := not_or.mp hnone
      have hpiles : table.zones? card.owner = none := by simpa using hpiles
      cases htaken with
      | field hfield =>
        have hpermanent : table.permanent? id = some card :=
          permanent?_eq_some_iff.mpr ⟨hfield, hcard⟩
        exact .inr (.inl ⟨card.owner, rfl, htarget, ⟨card, hpermanent, rfl⟩, hpiles⟩)
      | pile hzone hzones hrest =>
        -- the owner's piles were there when the card was taken out of one
        rw [hpiles] at hzones
        simp at hzones

end CardRules.Table
