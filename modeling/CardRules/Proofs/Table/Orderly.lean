import CardRules.Proofs.Table.Payment
import Mathlib.Data.List.Nodup
import Mathlib.Data.List.Perm.Subperm

/-!
# Where the cards are

The piles of a table are the battlefield and, for each player, library, hand, graveyard and exile.
`Table.pool` lists what lies in them, pile after pile. An orderly table has piles for exactly its
players, in a player's piles only cards that the player owns, and on the battlefield only cards that
exist.

Taking a card out of a pile and putting it down somewhere change the pool by that card, and every
other change only rearranges it (`Shuffles`).
-/

set_option autoImplicit false

namespace CardRules

namespace PlayerZones

theorem cards_add (zones : PlayerZones) {zone : Zone} (h : zone ≠ .battlefield) (id : CardId) :
    (zones.add zone id).cards.Perm (id :: zones.cards) := by
  refine List.perm_iff_count.mpr fun card => ?_
  cases zone with
  | battlefield => exact absurd rfl h
  | _ =>
    simp only [add, pile?, setPile, Pile.add, cards_eq, List.count_append, List.count_cons,
      List.count_nil]
    omega

theorem cards_remove? {zones rest : PlayerZones} {zone : Zone} {id : CardId}
    (h : zones.remove? zone id = some rest) : zones.cards.Perm (id :: rest.cards) := by
  unfold remove? at h
  obtain ⟨pile, hpile, h⟩ := Option.bind_eq_some_iff.mp h
  obtain ⟨left, hleft, h⟩ := Option.bind_eq_some_iff.mp h
  obtain rfl := Option.some.inj h
  unfold Pile.remove? at hleft
  split at hleft
  · rename_i hmem
    obtain rfl := Option.some.inj hleft
    have herase := (List.perm_cons_erase (List.contains_iff_mem.mp hmem)).count_eq
    refine List.perm_iff_count.mpr fun card => ?_
    have hcard := herase card
    cases zone with
    | battlefield => simp [pile?] at hpile
    | _ =>
      obtain rfl := Option.some.inj hpile
      simp only [setPile, cards_eq, List.count_append, List.count_cons] at hcard ⊢
      omega
  · simp at hleft

end PlayerZones

namespace Table

open Act

/-- Every pile: the battlefield, then those of each player. -/
def piles (table : Table) : List Pile := table.battlefield :: table.zones.flatMap (·.2.piles)

/-- The cards in the piles, pile after pile. -/
def pool (table : Table) : List CardId := table.piles.flatMap (·.cards)

/-- The owner of a card. -/
def owner? (table : Table) (id : CardId) : Option PlayerId := (table.card? id).map (·.owner)

/-- Every player has piles, and the cards in them are the player's; the cards on the battlefield
exist; owners have seats; and the numbers of cards are below the next one. -/
structure Orderly (table : Table) : Prop where
  keys : table.zones.map (·.1) = table.seats
  distinct : table.seats.Nodup
  owned (entry : PlayerId × PlayerZones) (hentry : entry ∈ table.zones) (id : CardId)
    (hid : id ∈ entry.2.cards) : table.owner? id = some entry.1
  field (id : CardId) (hid : id ∈ table.battlefield.cards) : (table.owner? id).isSome = true
  seated (id : CardId) (owner : PlayerId) (h : table.owner? id = some owner) : owner ∈ table.seats
  below (id : CardId) (owner : PlayerId) (h : table.owner? id = some owner) :
    id.number < table.nextId.number

theorem pool_eq (table : Table) :
    table.pool = table.battlefield.cards ++ table.zones.flatMap (·.2.cards) := by
  rw [pool, piles, List.flatMap_cons, List.flatMap_assoc]
  rfl

theorem owner?_updateCard (table : Table) (id key : CardId) {f : Card → Card}
    (hf : ∀ card, (f card).owner = card.owner) :
    (table.updateCard id f).owner? key = table.owner? key := by
  rw [owner?, owner?, card?_updateCard]
  split
  · rw [Option.map_map]
    exact congrArg (fun g => (table.card? key).map g) (funext hf)
  · rfl

theorem zones_updateZones (table : Table) (player : PlayerId) (f : PlayerZones → PlayerZones) :
    (table.updateZones player f).zones =
      table.zones.map fun entry => (entry.1, if entry.1 == player then f entry.2 else entry.2) := rfl

theorem map_entries_of_ne {player : PlayerId} {entries : List (PlayerId × PlayerZones)}
    (h : ∀ entry ∈ entries, entry.1 ≠ player) (f : PlayerZones → PlayerZones) :
    (entries.map fun entry => (entry.1, if entry.1 == player then f entry.2 else entry.2)) =
      entries := by
  conv_rhs => rw [← List.map_id entries]
  refine List.map_congr_left fun entry hentry => ?_
  rw [if_neg (mt beq_iff_eq.mp (h entry hentry))]
  rfl

namespace Orderly

variable {table : Table} {player : PlayerId} {zones : PlayerZones}

theorem owner_zones (h : table.Orderly) {id : CardId} {card : Card}
    (hcard : table.card? id = some card) : (table.zones? card.owner).isSome = true := by
  have hseat : card.owner ∈ table.seats := h.seated id card.owner (by rw [owner?, hcard]; rfl)
  rw [← h.keys] at hseat
  obtain ⟨entry, hentry, hkey⟩ := List.mem_map.mp hseat
  rw [zones?, List.lookup_isSome_iff]
  exact ⟨entry, hentry, beq_iff_eq.mpr hkey.symm⟩

/-- A player's entry stands in one place, and a change of the player's piles is made there. -/
theorem split (h : table.Orderly) (hzones : table.zones? player = some zones) :
    ∃ front back, table.zones = front ++ (player, zones) :: back ∧
      ∀ f, (table.updateZones player f).zones = front ++ (player, f zones) :: back := by
  obtain ⟨front, back, hsplit, hfront⟩ := List.lookup_eq_some_iff.mp hzones
  have hkeys : (table.zones.map (·.1)).Nodup := h.keys ▸ h.distinct
  rw [hsplit, List.map_append, List.map_cons, List.nodup_append, List.nodup_cons] at hkeys
  obtain ⟨-, ⟨hback, -⟩, -⟩ := hkeys
  have hbefore : ∀ entry ∈ front, entry.1 ≠ player := by
    intro entry hentry hkey
    simpa [hkey] using hfront entry hentry
  have hafter : ∀ entry ∈ back, entry.1 ≠ player := by
    intro entry hentry hkey
    exact hback (List.mem_map.mpr ⟨entry, hentry, hkey⟩)
  refine ⟨front, back, hsplit, fun f => ?_⟩
  rw [zones_updateZones, hsplit, List.map_append, List.map_cons, map_entries_of_ne hbefore,
    map_entries_of_ne hafter, if_pos (beq_self_eq_true player)]

/-- What a change of a player's piles does to the pool is what it does to the piles. -/
theorem count_pool_updateZones (h : table.Orderly) (hzones : table.zones? player = some zones)
    (f : PlayerZones → PlayerZones) (id : CardId) :
    (table.updateZones player f).pool.count id + zones.cards.count id =
      table.pool.count id + (f zones).cards.count id := by
  obtain ⟨front, back, hsplit, hupdate⟩ := h.split hzones
  have hfield : (table.updateZones player f).battlefield = table.battlefield := rfl
  rw [pool_eq, pool_eq, hupdate, hsplit, hfield]
  simp only [List.flatMap_append, List.flatMap_cons, List.count_append]
  omega

theorem updateZones (h : table.Orderly) (hzones : table.zones? player = some zones)
    {f : PlayerZones → PlayerZones}
    (hf : ∀ id ∈ (f zones).cards, table.owner? id = some player) :
    (table.updateZones player f).Orderly := by
  obtain ⟨front, back, hsplit, hupdate⟩ := h.split hzones
  constructor
  · have hkeys := h.keys
    rw [hsplit] at hkeys
    rw [hupdate, List.map_append, List.map_cons]
    rwa [List.map_append, List.map_cons] at hkeys
  · exact h.distinct
  · intro entry hentry id hid
    rw [hupdate, List.mem_append, List.mem_cons] at hentry
    have hold (hentry : entry ∈ front ∨ entry ∈ back) : table.owner? id = some entry.1 := by
      refine h.owned entry ?_ id hid
      rw [hsplit, List.mem_append, List.mem_cons]
      exact hentry.imp_right .inr
    rcases hentry with hfront | rfl | hback
    · exact hold (.inl hfront)
    · exact hf id hid
    · exact hold (.inr hback)
  · exact h.field
  · exact h.seated
  · exact h.below

theorem owned_of_zones (h : table.Orderly) (hzones : table.zones? player = some zones)
    (id : CardId) (hid : id ∈ zones.cards) : table.owner? id = some player := by
  obtain ⟨front, back, hsplit, -⟩ := h.split hzones
  refine h.owned (player, zones) ?_ id hid
  rw [hsplit]
  exact List.mem_append_right front List.mem_cons_self

theorem updateCard (h : table.Orderly) (id : CardId) {f : Card → Card}
    (hf : ∀ card, (f card).owner = card.owner) : (table.updateCard id f).Orderly where
  keys := h.keys
  distinct := h.distinct
  owned entry hentry key hkey :=
    (owner?_updateCard table id key hf).trans (h.owned entry hentry key hkey)
  field key hkey := by
    rw [owner?_updateCard table id key hf]
    exact h.field key hkey
  seated key owner howner := h.seated key owner (owner?_updateCard table id key hf ▸ howner)
  below key owner howner := h.below key owner (owner?_updateCard table id key hf ▸ howner)

theorem updatePlayer (h : table.Orderly) {id : PlayerId} {f : Player → Player}
    (hf : ∀ player, player.id = id → (f player).id = id) : (table.updatePlayer id f).Orderly where
  keys := h.keys.trans (seats_updatePlayer table hf).symm
  distinct := (seats_updatePlayer table hf).symm ▸ h.distinct
  owned := h.owned
  field := h.field
  seated key owner howner := (seats_updatePlayer table hf).symm ▸ h.seated key owner howner
  below := h.below

theorem addPermanent (h : table.Orderly) {id : CardId} {owner : PlayerId}
    (hid : table.owner? id = some owner) :
    Orderly { table with battlefield := table.battlefield.add id } where
  keys := h.keys
  distinct := h.distinct
  owned := h.owned
  field key hkey := by
    have hkey : key ∈ table.battlefield.cards ++ [id] := hkey
    rw [List.mem_append, List.mem_singleton] at hkey
    rcases hkey with hkey | rfl
    · exact h.field key hkey
    · exact Option.isSome_of_mem hid
  seated := h.seated
  below := h.below

end Orderly

/-! ## Changes that only rearrange -/

/-- An orderly table stays orderly, with the same players, the same next number and the same cards
in its piles. -/
def Shuffles (before after : Table) : Prop :=
  before.Orderly → after.Orderly ∧ after.seats = before.seats ∧ after.nextId = before.nextId ∧
    after.pool.Perm before.pool

instance : Std.Refl Shuffles := ⟨fun _ h => ⟨h, rfl, rfl, .refl _⟩⟩

instance : IsTrans Table Shuffles where
  trans _ _ _ hab hbc ha := by
    obtain ⟨hb, hseats, hnext, hpool⟩ := hab ha
    obtain ⟨hc, hseats', hnext', hpool'⟩ := hbc hb
    exact ⟨hc, hseats'.trans hseats, hnext'.trans hnext, hpool'.trans hpool⟩

theorem shuffles_updateCard (table : Table) (id : CardId) {f : Card → Card}
    (hf : ∀ card, (f card).owner = card.owner) : Shuffles table (table.updateCard id f) :=
  fun h => ⟨h.updateCard id hf, rfl, rfl, .refl _⟩

theorem shuffles_frame : Frame Shuffles where
  player table _ _ hf := fun h => ⟨h.updatePlayer hf, seats_updatePlayer table hf, rfl, .refl _⟩
  permanent table id _ _ hf := shuffles_updateCard table id fun card => (hf card).owner
  zones table player f hf := by
    intro h
    cases hzones : table.zones? player with
    | none =>
      -- nobody's piles are changed
      have hkeys : ∀ entry ∈ table.zones, entry.1 ≠ player := by
        intro entry hentry hkey
        rw [zones?, List.lookup_eq_none_iff] at hzones
        simpa [hkey] using hzones entry hentry
      have hsame : table.updateZones player f = table := by
        show { table with zones := (table.updateZones player f).zones } = table
        rw [zones_updateZones, map_entries_of_ne hkeys]
      rw [hsame]
      exact ⟨h, rfl, rfl, .refl _⟩
    | some zones =>
      have hperm := hf zones hzones
      refine ⟨h.updateZones hzones fun id hid => ?_, rfl, rfl, List.perm_iff_count.mpr fun id => ?_⟩
      · exact h.owned_of_zones hzones id (hperm.mem_iff.mp hid)
      · have hcount := h.count_pool_updateZones hzones f id
        have := hperm.count_eq id
        omega

/-! ## Taking a card up and putting it down -/

/-- What is left of an orderly table when a card is out of the pool. -/
structure Lacks (before after : Table) (id : CardId) : Prop where
  orderly : after.Orderly
  seats : after.seats = before.seats
  nextId : after.nextId = before.nextId
  owners (key : CardId) : after.owner? key = before.owner? key
  pool : before.pool.Perm (id :: after.pool)

theorem pool_lift {table : Table} {id : CardId} (h : table.onBattlefield id = true) :
    table.pool.Perm (id :: (table.lift id).pool) := by
  rw [pool_eq, pool_eq, ← List.cons_append]
  exact (List.perm_cons_erase (List.contains_iff_mem.mp h)).append_right _

/-- What was taken up is out of the pool. -/
theorem lacks_of_takenUp {table taken : Table} (h : table.Orderly) {id : CardId} {owner : PlayerId}
    {zone : Zone} (htaken : table.TakenUp id owner zone taken) : Lacks table taken id := by
  cases htaken with
  | field hfield =>
    refine ⟨?_, rfl, rfl, fun _ => rfl, pool_lift hfield⟩
    exact ⟨h.keys, h.distinct, h.owned,
      fun key hkey => h.field key (List.mem_of_mem_erase hkey), h.seated, h.below⟩
  | @pile _ zones rest _ hzones hrest =>
    have hperm := PlayerZones.cards_remove? hrest
    refine ⟨?_, rfl, rfl, fun _ => rfl, List.perm_iff_count.mpr fun key => ?_⟩
    · refine h.updateZones hzones fun key hkey => ?_
      exact h.owned_of_zones hzones key (hperm.mem_iff.mpr (List.mem_cons_of_mem id hkey))
    · -- the pool has lost from this pile what the pile has lost
      have hcount := h.count_pool_updateZones hzones (fun _ => rest) key
      have := hperm.count_eq key
      rw [List.count_cons] at this ⊢
      omega

/-- A card that is not in its place is not taken, and nothing happens. -/
theorem takeFrom_cases {table : Table} (h : table.Orderly) (id : CardId) (zone : Zone) :
    (∃ fault, (takeFrom id zone).outcome table = (.error fault, table)) ∨
      ∃ after, (takeFrom id zone).outcome table = (.ok (), after) ∧ Lacks table after id := by
  rcases outcome_takeFrom_cases table id zone with hfail | ⟨card, taken, -, htaken, htake⟩
  · exact .inl hfail
  · exact .inr ⟨taken, htake, lacks_of_takenUp h htaken⟩

/-- A card that exists can be put down anywhere. -/
theorem outcome_place {table : Table} (h : table.Orderly) {id : CardId} {card : Card}
    (hcard : table.card? id = some card) (zone : Zone) :
    ∃ after, (place id zone).outcome table = (.ok (), after) ∧ Lacks after table id ∧
      after.Orderly := by
  have howner : table.owner? id = some card.owner := by rw [owner?, hcard]; rfl
  have hpiles := h.owner_zones hcard
  have hplace := outcome_place_eq hcard zone
  rw [if_pos (.inr hpiles)] at hplace
  refine ⟨_, hplace, ?_⟩
  unfold putDown
  by_cases hzone : zone = .battlefield
  · rw [if_pos hzone]
    refine ⟨⟨h, rfl, rfl, fun _ => rfl, ?_⟩, h.addPermanent howner⟩
    rw [pool_eq, pool_eq, ← List.cons_append]
    exact (List.perm_append_singleton id table.battlefield.cards).append_right _
  · -- the pile is one of the owner's, whoever controls the card
    rw [if_neg hzone]
    obtain ⟨zones, hzones⟩ := Option.isSome_iff_exists.mp hpiles
    have hperm := zones.cards_add hzone id
    refine ⟨⟨h, rfl, rfl, fun _ => rfl, List.perm_iff_count.mpr fun key => ?_⟩, ?_⟩
    · have hcount := h.count_pool_updateZones hzones (·.add zone id) key
      have := hperm.count_eq key
      rw [List.count_cons] at this ⊢
      omega
    · refine h.updateZones hzones fun key hkey => ?_
      rcases List.mem_cons.mp (hperm.mem_iff.mp hkey) with rfl | hkey
      · exact howner
      · exact h.owned_of_zones hzones key hkey

/-- A card that does not exist is not put down, and nothing happens. -/
theorem place_cases {table : Table} (h : table.Orderly) (id : CardId) (zone : Zone) :
    (∃ fault, (place id zone).outcome table = (.error fault, table)) ∨
      ∃ after, (place id zone).outcome table = (.ok (), after) ∧ Lacks after table id ∧
        after.Orderly := by
  cases hcard : table.card? id with
  | none =>
    unfold place
    rw [outcome_bind_error (outcome_requireCard_none hcard)]
    exact .inl ⟨_, rfl⟩
  | some card => exact .inr (outcome_place h hcard zone)

theorem Orderly.card_of_mem_pool {table : Table} (h : table.Orderly) {id : CardId}
    (hid : id ∈ table.pool) : ∃ card, table.card? id = some card := by
  have howner : (table.owner? id).isSome = true := by
    rw [pool_eq, List.mem_append, List.mem_flatMap] at hid
    rcases hid with hfield | ⟨entry, hentry, hid⟩
    · exact h.field id hfield
    · exact Option.isSome_of_mem (h.owned entry hentry id hid)
  rw [owner?, Option.isSome_map] at howner
  exact Option.isSome_iff_exists.mp howner

/-- A move puts down what it has taken up. -/
theorem move_cases {table : Table} (h : table.Orderly) (id : CardId) (source target : Zone) :
    (∃ fault, (move id source target).outcome table = (.error fault, table)) ∨
      ∃ after, (move id source target).outcome table = (.ok (), after) ∧ Shuffles table after := by
  rcases takeFrom_cases h id source with ⟨fault, hfail⟩ | ⟨taken, htake, hlacks⟩
  · unfold move
    rw [outcome_bind_error hfail]
    exact .inl ⟨fault, rfl⟩
  · have hmem : id ∈ table.pool := hlacks.pool.mem_iff.mpr List.mem_cons_self
    obtain ⟨card, hcard⟩ : ∃ card, taken.card? id = some card := by
      obtain ⟨card, hcard⟩ := h.card_of_mem_pool hmem
      have howner := hlacks.owners id
      rw [owner?, owner?, hcard] at howner
      obtain ⟨same, hsame, -⟩ := Option.map_eq_some_iff.mp howner
      exact ⟨same, hsame⟩
    obtain ⟨placed, hplace, hadded, horderly⟩ := outcome_place hlacks.orderly hcard target
    have hshuffled : Shuffles table placed := fun _ =>
      ⟨horderly, hadded.seats.symm.trans hlacks.seats, hadded.nextId.symm.trans hlacks.nextId,
        hadded.pool.trans hlacks.pool.symm⟩
    refine .inr ⟨_, outcome_move htake hplace, ?_⟩
    unfold afterLeaving
    split
    · exact IsTrans.trans _ _ _ hshuffled (shuffles_updateCard placed id fun _ => rfl)
    · exact hshuffled

end Table

end CardRules
