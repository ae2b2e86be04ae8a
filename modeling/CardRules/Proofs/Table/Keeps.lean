import CardRules.Proofs.Table.Frame

/-!
# What lasts at a table

Effects and payments move cards about and change what players have. They do not change who sits at
the table, who has piles, or who owns a card, and they bring no card onto the battlefield. This is
`Table.Keeps`, and every change that the engine makes moves the table along it, whether it succeeds
or fails. Apart from the changes that bury a permanent they do less: the battlefield is the same, and
of its cards only what it adds to them changes (`Table.Quiet`).

A table is sound if every card on the battlefield exists and its owner has a seat, that is, piles
for the card to go to. By `Keeps`, a sound table stays sound. Every player has piles at a table as it
is set up (`Seated`), and that lasts as well.
-/

set_option autoImplicit false

namespace CardRules.Table

open Act

/-- The same players with piles of their own, the same owners, and nothing new on the
battlefield. -/
structure Keeps (before after : Table) : Prop where
  seats : after.seats = before.seats
  piles (player : PlayerId) : (after.zones? player).isSome = (before.zones? player).isSome
  owners (card : CardId) : (after.card? card).map (·.owner) = (before.card? card).map (·.owner)
  battlefield (card : CardId) : card ∈ after.battlefield.cards → card ∈ before.battlefield.cards

/-- The same players with piles of their own, the same battlefield, and the same cards but for what
the battlefield adds to those on it. -/
structure Quiet (before after : Table) : Prop where
  seats : after.seats = before.seats
  piles (player : PlayerId) : (after.zones? player).isSome = (before.zones? player).isSome
  battlefield : after.battlefield = before.battlefield
  cards (id : CardId) : ∃ f : Card → Card, (∀ card, Card.Alike card (f card)) ∧
    after.card? id = (before.card? id).map f
  off (id : CardId) (h : before.onBattlefield id = false) : after.card? id = before.card? id

/-- Every card on the battlefield exists and has an owner with piles. -/
def Sound (table : Table) : Prop :=
  ∀ id ∈ table.battlefield.cards, ∃ card, table.card? id = some card ∧
    (table.zones? card.owner).isSome = true

/-- The card is on the battlefield and has an owner with piles. -/
def Buriable (table : Table) (id : CardId) : Prop :=
  ∃ card, table.permanent? id = some card ∧ (table.zones? card.owner).isSome = true

/-- Every player has piles. -/
def Seated (table : Table) : Prop :=
  ∀ player ∈ table.seats, (table.zones? player).isSome = true

instance : Std.Refl Keeps := ⟨fun _ => ⟨rfl, fun _ => rfl, fun _ => rfl, fun _ => id⟩⟩

instance : IsTrans Table Keeps where
  trans _ _ _ hab hbc := {
    seats := hbc.seats.trans hab.seats
    piles := fun player => (hbc.piles player).trans (hab.piles player)
    owners := fun card => (hbc.owners card).trans (hab.owners card)
    battlefield := fun card hcard => hab.battlefield card (hbc.battlefield card hcard) }

theorem exists_alike (card? : Option Card) :
    ∃ f : Card → Card, (∀ card, Card.Alike card (f card)) ∧ card? = card?.map f :=
  ⟨id, Card.Alike.refl, by rw [Option.map_id, id]⟩

instance : Std.Refl Quiet where
  refl _ := {
    seats := rfl
    piles := fun _ => rfl
    battlefield := rfl
    cards := fun _ => exists_alike _
    off := fun _ _ => rfl }

instance : IsTrans Table Quiet where
  trans a b c hab hbc := {
    seats := hbc.seats.trans hab.seats
    piles := fun player => (hbc.piles player).trans (hab.piles player)
    battlefield := hbc.battlefield.trans hab.battlefield
    cards := by
      intro id
      obtain ⟨f, hf, hb⟩ := hab.cards id
      obtain ⟨g, hg, hc⟩ := hbc.cards id
      exact ⟨g ∘ f, fun card => (hf card).trans (hg (f card)), by rw [hc, hb, Option.map_map]⟩
    off := by
      intro id hid
      have hid' : b.onBattlefield id = false := by
        rw [onBattlefield, hab.battlefield]
        exact hid
      exact (hbc.off id hid').trans (hab.off id hid) }

theorem Quiet.keeps {before after : Table} (h : Quiet before after) : Keeps before after where
  seats := h.seats
  piles := h.piles
  owners id := by
    obtain ⟨f, hf, hid⟩ := h.cards id
    rw [hid, Option.map_map]
    exact congrArg (fun g => (before.card? id).map g) (funext fun card => (hf card).owner)
  battlefield id hid := h.battlefield ▸ hid

theorem Quiet.onBattlefield_eq {before after : Table} (h : Quiet before after) (id : CardId) :
    after.onBattlefield id = before.onBattlefield id := by
  rw [onBattlefield, h.battlefield, onBattlefield]

theorem Quiet.permanent?_eq {before after : Table} (h : Quiet before after) (id : CardId) :
    ∃ f : Card → Card, (∀ card, Card.Alike card (f card)) ∧
      after.permanent? id = (before.permanent? id).map f := by
  obtain ⟨f, hf, hcard⟩ := h.cards id
  refine ⟨f, hf, ?_⟩
  rw [permanent?, permanent?, h.onBattlefield_eq, hcard]
  split
  · rfl
  · rfl

theorem Quiet.buriable_iff {before after : Table} (h : Quiet before after) (id : CardId) :
    after.Buriable id ↔ before.Buriable id := by
  obtain ⟨f, hf, hid⟩ := h.permanent?_eq id
  unfold Buriable
  rw [hid]
  constructor
  · rintro ⟨card, hcard, howner⟩
    obtain ⟨card', hcard', rfl⟩ := Option.map_eq_some_iff.mp hcard
    rw [h.piles, (hf card').owner] at howner
    exact ⟨card', hcard', howner⟩
  · rintro ⟨card, hcard, howner⟩
    refine ⟨f card, Option.map_eq_some_iff.mpr ⟨card, hcard, rfl⟩, ?_⟩
    rw [h.piles, (hf card).owner]
    exact howner

theorem Sound.buriable {table : Table} (h : table.Sound) {id : CardId}
    (hid : table.onBattlefield id = true) : table.Buriable id := by
  obtain ⟨card, hcard, howner⟩ := h id (List.contains_iff_mem.mp hid)
  exact ⟨card, permanent?_eq_some_iff.mpr ⟨hid, hcard⟩, howner⟩

theorem Sound.of_keeps {before after : Table} (h : before.Sound) (hkeeps : Keeps before after) :
    after.Sound := by
  intro id hid
  obtain ⟨card, hcard, howner⟩ := h id (hkeeps.battlefield id hid)
  have howners := hkeeps.owners id
  rw [hcard] at howners
  obtain ⟨card', hcard', hsame⟩ := Option.map_eq_some_iff.mp howners
  exact ⟨card', hcard', by rw [hkeeps.piles, hsame, howner]⟩

theorem Seated.of_keeps {before after : Table} (h : before.Seated) (hkeeps : Keeps before after) :
    after.Seated := by
  intro player hplayer
  rw [hkeeps.piles]
  exact h player (hkeeps.seats ▸ hplayer)

theorem Seated.sound {table : Table} (h : table.Seated)
    (howned : ∀ id ∈ table.battlefield.cards, ∃ card, table.card? id = some card ∧
      card.owner ∈ table.seats) : table.Sound := by
  intro id hid
  obtain ⟨card, hcard, howner⟩ := howned id hid
  exact ⟨card, hcard, h card.owner howner⟩

theorem seated_seat (names : List String) (life : Int32) : (seat names life).Seated := by
  intro player hplayer
  rw [seats, List.mem_map] at hplayer
  obtain ⟨seated, hseated, rfl⟩ := hplayer
  obtain ⟨⟨id, name⟩, hzip, rfl⟩ := List.mem_map.mp hseated
  rw [zones?, List.lookup_isSome_iff]
  exact ⟨_, List.mem_map_of_mem (List.of_mem_zip hzip).1, beq_self_eq_true id⟩

/-! ## The parts of a table -/

theorem keeps_updateCard (table : Table) (id : CardId) {f : Card → Card}
    (hf : ∀ card, (f card).owner = card.owner) : Keeps table (table.updateCard id f) where
  seats := rfl
  piles _ := rfl
  owners key := by
    rw [card?_updateCard]
    split
    · rw [Option.map_map]
      exact congrArg (fun g => (table.card? key).map g) (funext hf)
    · rfl
  battlefield _ := fun h => h

theorem keeps_updateZones (table : Table) (id : PlayerId) (f : PlayerZones → PlayerZones) :
    Keeps table (table.updateZones id f) where
  seats := rfl
  piles key := by
    rw [zones?_updateZones]
    split
    · exact Option.isSome_map
    · rfl
  owners _ := rfl
  battlefield _ := fun h => h

theorem keeps_remove {table : Table} {id : CardId} {battlefield : Pile}
    (h : table.battlefield.remove? id = some battlefield) :
    Keeps table { table with battlefield } where
  seats := rfl
  piles _ := rfl
  owners _ := rfl
  battlefield card hcard := by
    unfold Pile.remove? at h
    split at h
    · obtain rfl := Option.some.inj h
      exact List.mem_of_mem_erase hcard
    · simp at h

/-! ## Changes -/

theorem quiet_frame : Frame Quiet where
  player table _ _ hf := {
    seats := seats_updatePlayer table hf
    piles := fun _ => rfl
    battlefield := rfl
    cards := fun _ => exists_alike _
    off := fun _ _ => rfl }
  permanent table id f hid hf := {
    seats := rfl
    piles := fun _ => rfl
    battlefield := rfl
    cards := by
      intro key
      rw [card?_updateCard]
      split
      · exact ⟨f, hf, rfl⟩
      · exact exists_alike _
    off := by
      -- the card that changes is on the battlefield
      intro key hkey
      rw [card?_updateCard, if_neg]
      rintro rfl
      rw [hid] at hkey
      exact absurd hkey (by decide) }
  zones table player f _ := {
    seats := rfl
    piles := (keeps_updateZones table player f).piles
    battlefield := rfl
    cards := fun _ => exists_alike _
    off := fun _ _ => rfl }

theorem keeps_frame : Frame Keeps where
  player table id f hf := (quiet_frame.player table id f hf).keeps
  permanent table id f hid hf := (quiet_frame.permanent table id f hid hf).keeps
  zones table id f hf := (quiet_frame.zones table id f hf).keeps

theorem keeps_place (id : CardId) {zone : Zone} (h : zone ≠ .battlefield) :
    Along Keeps (place id zone) := by
  unfold place
  refine (along_requireCard id).bind fun card => ?_
  rw [if_neg h]
  exact (along_requireZones _).bind fun _ => .modify fun table => keeps_updateZones table _ _

theorem keeps_takeFrom (id : CardId) (zone : Zone) : Along Keeps (takeFrom id zone) := by
  unfold takeFrom
  refine (along_requireCard id).bind fun card => ?_
  split
  · intro table
    rw [outcome_bind_ok (outcome_get table)]
    cases hremove : table.battlefield.remove? id with
    | none => exact Std.Refl.refl table
    | some battlefield => exact keeps_remove hremove
  · refine (along_requireZones _).bind fun zones => ?_
    split
    · exact .modify fun table => keeps_updateZones table _ _
    · exact .fail _

theorem keeps_move (id : CardId) (source : Zone) {target : Zone} (h : target ≠ .battlefield) :
    Along Keeps (move id source target) :=
  along_move (keeps_takeFrom id source) (keeps_place id h)
    fun table => keeps_updateCard table id fun _ => rfl

theorem keeps_sacrifice (id : CardId) : Along Keeps (sacrifice id) :=
  along_sacrifice (keeps_move id .battlefield (by decide))

theorem keeps_destroy (id : CardId) : Along Keeps (destroy id) :=
  along_destroy (keeps_move id .battlefield (by decide))

end CardRules.Table
