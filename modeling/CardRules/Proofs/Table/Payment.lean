import CardRules.Proofs.Table.Moving

/-!
# Payments at the table

What a player was found able to pay can be paid: mana and life (`outcome_pay`), cards from the hand
(`outcome_discard`), and a permanent (`outcome_sacrifice`), whose owner needs a graveyard for it to go to.
Each lemma says which table is left, so that what was found of one part of a cost can be carried past the
payment of the others.
-/

set_option autoImplicit false

namespace CardRules

namespace Table

open Act

variable {table : Table}

/-- A player at the table is replaced by what a payment leaves of him, or the table is left as it was. -/
theorem outcome_pay_eq {id : PlayerId} {player : Player} (hplayer : table.player? id = some player)
    (cost : Cost) :
    (pay id cost).outcome table = match player.pay cost with
      | .error fault => (.error fault, table)
      | .ok paid => (.ok (), table.updatePlayer id fun _ => paid) := by
  unfold pay
  rw [outcome_bind_ok (outcome_requirePlayer hplayer)]
  cases player.pay cost <;> rfl

/-- A payment goes through if the player is there and can pay. -/
theorem outcome_pay_eq_ok {player : PlayerId} {cost : Cost} {after : Table} :
    (pay player cost).outcome table = (.ok (), after) ↔
      ∃ payer paid, table.player? player = some payer ∧ payer.pay cost = .ok paid ∧
        after = table.updatePlayer player fun _ => paid := by
  cases hpayer : table.player? player with
  | none =>
    unfold pay
    rw [outcome_bind_error (outcome_requirePlayer_none hpayer)]
    simp
  | some payer =>
    rw [outcome_pay_eq hpayer]
    cases hpaid : payer.pay cost with
    | error fault => simp [hpaid]
    | ok paid => simp [hpaid, eq_comm]

theorem atomic_pay (player : PlayerId) (cost : Cost) : (pay player cost).Atomic table := by
  unfold pay
  refine Atomic.bind_of_unchanged (snd_outcome_requirePlayer player table) fun payer _ => ?_
  exact Atomic.bind_of_unchanged rfl fun paid _ => Succeeds.atomic ⟨(), _, outcome_modify _ _⟩

theorem outcome_pay {player : PlayerId} {cost : Cost} (h : table.canPay player cost = true) :
    ∃ paid : Player, paid.id = player ∧
      (pay player cost).outcome table = (.ok (), table.updatePlayer player fun _ => paid) := by
  rw [canPay, Option.any_eq_true] at h
  obtain ⟨payer, hpayer, hcan⟩ := h
  obtain ⟨paid, hpaid⟩ := Player.exists_pay_iff.mpr hcan
  have hid : payer.id = player := id_of_player? hpayer
  exact ⟨paid, (Player.id_of_pay hpaid).trans hid, outcome_pay_eq_ok.mpr ⟨payer, paid, hpayer, hpaid, rfl⟩⟩

theorem outcome_discard {player : PlayerId} {count : Nat} (hcount : 0 < count)
    (h : count ≤ table.handSize player) :
    (discard player count).outcome table =
      (.ok (), table.updateZones player (·.discard count)) := by
  unfold handSize at h
  cases hzones : table.zones? player with
  | none =>
    rw [hzones] at h
    exact absurd (Nat.lt_of_lt_of_le hcount h) (Nat.lt_irrefl 0)
  | some zones =>
    rw [hzones] at h
    unfold discard
    rw [outcome_bind_ok (outcome_requireZones hzones)]
    exact congrArg (fun act : Change Unit => act.outcome table) (if_neg (Nat.not_lt.mpr h))

/-- The table with a permanent in the graveyard of its owner. -/
def bury (table : Table) (id : CardId) (owner : PlayerId) : Table :=
  ((table.lift id).updateZones owner (·.add .graveyard id)).updateCard id Card.leaveBattlefield

theorem card?_bury (table : Table) (id key : CardId) (owner : PlayerId) :
    (table.bury id owner).card? key =
      if key = id then (table.card? key).map Card.leaveBattlefield else table.card? key :=
  card?_updateCard _ id key Card.leaveBattlefield

section Bury

variable {id : CardId} {card : Card}

/-- A permanent can be put into the graveyard of an owner who has one. -/
theorem outcome_bury (hfield : table.onBattlefield id = true) (hcard : table.card? id = some card)
    (howner : (table.zones? card.owner).isSome = true) :
    (move id .battlefield .graveyard).outcome table = (.ok (), table.bury id card.owner) := by
  have hcard' : (table.lift id).card? id = some card := hcard
  have hplace := outcome_place_eq hcard' .graveyard
  rw [if_pos (.inr howner)] at hplace
  exact outcome_move (outcome_takeFrom_battlefield hcard hfield) hplace

/-- A permanent whose owner has no piles is taken up and not put down. -/
theorem outcome_bury_none (hfield : table.onBattlefield id = true)
    (hcard : table.card? id = some card) (howner : table.zones? card.owner = none) :
    (move id .battlefield .graveyard).outcome table =
      (.error (.unknownEntity card.owner), table.lift id) := by
  have hpermanent : table.permanent? id = some card := permanent?_eq_some_iff.mpr ⟨hfield, hcard⟩
  exact Strands.outcome_move ⟨rfl, by decide, ⟨card, hpermanent, rfl⟩, howner⟩

theorem outcome_sacrifice (hfield : table.onBattlefield id = true)
    (hcard : table.card? id = some card) (howner : (table.zones? card.owner).isSome = true) :
    (sacrifice id).outcome table = (.ok (), table.bury id card.owner) :=
  (outcome_sacrifice_eq id table).trans (outcome_bury hfield hcard howner)

theorem outcome_sacrifice_unowned (hfield : table.onBattlefield id = true)
    (hcard : table.card? id = some card) (howner : table.zones? card.owner = none) :
    (sacrifice id).outcome table = (.error (.unknownEntity card.owner), table.lift id) :=
  (outcome_sacrifice_eq id table).trans (outcome_bury_none hfield hcard howner)

/-- What is no permanent cannot be taken up. -/
theorem outcome_bury_absent (hcard : table.permanent? id = none) :
    (move id .battlefield .graveyard).outcome table = (.error (.unknownEntity id), table) := by
  have htake : (takeFrom id .battlefield).outcome table = (.error (.unknownEntity id), table) := by
    unfold takeFrom
    cases hthere : table.card? id with
    | none => rw [outcome_bind_error (outcome_requireCard_none hthere)]
    | some card =>
      have hfield : ¬table.onBattlefield id = true := by
        intro hfield
        rw [permanent?, if_pos hfield, hthere] at hcard
        simp at hcard
      have hremove : table.battlefield.remove? id = none := if_neg hfield
      rw [outcome_bind_ok (outcome_requireCard hthere), if_pos rfl,
        outcome_bind_ok (outcome_get table), hremove]
      rfl
  unfold move
  rw [outcome_bind_error htake]

theorem outcome_sacrifice_none (hcard : table.permanent? id = none) :
    (sacrifice id).outcome table = (.error (.unknownEntity id), table) :=
  (outcome_sacrifice_eq id table).trans (outcome_bury_absent hcard)

/-- A permanent that is indestructible stays, and any other is buried. -/
theorem outcome_destroy (hcard : table.permanent? id = some card) :
    (destroy id).outcome table =
      if card.hasKeyword .indestructible then (.ok false, table)
      else if (table.zones? card.owner).isSome then (.ok true, table.bury id card.owner)
      else (.error (.unknownEntity card.owner), table.lift id) := by
  obtain ⟨hfield, hthere⟩ := permanent?_eq_some_iff.mp hcard
  unfold destroy
  rw [outcome_bind_ok (outcome_requirePermanent hcard)]
  split
  · rfl
  · split
    · rename_i howner
      rw [outcome_bind_ok (outcome_bury hfield hthere howner), outcome_bind_ok (outcome_get _)]
      rfl
    · rename_i howner
      rw [outcome_bind_error (outcome_bury_none hfield hthere (by simpa using howner))]

theorem outcome_destroy_none (hcard : table.permanent? id = none) :
    (destroy id).outcome table = (.error (.unknownEntity id), table) := by
  unfold destroy
  rw [outcome_bind_error (outcome_requirePermanent_none hcard)]

end Bury

theorem outcome_addMana {player : PlayerId} (h : player ∈ table.seats) (color : Color)
    (amount : UInt8) :
    (addMana player color amount).outcome table =
      (.ok (), table.updatePlayer player (·.addMana color amount)) := by
  obtain ⟨payer, hpayer⟩ := Option.isSome_iff_exists.mp ((player?_isSome table player).mpr h)
  unfold addMana
  rw [outcome_bind_ok (outcome_changePlayer hpayer _)]
  rfl

end Table

end CardRules
