import CardRules.Proofs.Act
import CardRules.Proofs.Player.Payment
import CardRules.Proofs.Zone.Taking
import CardRules.Table.Moves
import Mathlib.Data.List.Perm.Basic

/-!
# Changes that move no permanent

Most changes at a table do one of three things: they change what a player has, they change what the
battlefield adds to a permanent, or they shift cards between the piles of one player. `Table.Frame R`
says that each of the three moves the table along `R`; then so does every payment and every effect
but those that put a permanent into a graveyard. Those are made of moves, and a move is all there is to
look at (`along_sacrifice`, `along_destroy`, `along_buryDying`).
-/

set_option autoImplicit false

namespace CardRules

/-- The cards differ at most in what the battlefield adds to a card. -/
def Card.Alike (before after : Card) : Prop :=
  after = { before with
    tapped := after.tapped, damage := after.damage, modifiers := after.modifiers }

/-- A player's piles. -/
def PlayerZones.piles (zones : PlayerZones) : List Pile :=
  [zones.library, zones.hand, zones.graveyard, zones.exile]

/-- The cards in a player's piles. -/
def PlayerZones.cards (zones : PlayerZones) : List CardId := zones.piles.flatMap (·.cards)

namespace Card.Alike

variable {a b c : Card}

theorem refl (card : Card) : card.Alike card := rfl

theorem trans (hab : a.Alike b) (hbc : b.Alike c) : a.Alike c := by
  rw [Alike, hbc, hab]

theorem owner (h : a.Alike b) : b.owner = a.owner := by rw [h]

theorem controller (h : a.Alike b) : b.controller = a.controller := by rw [h]

theorem isType (h : a.Alike b) (type : CardType) : b.isType type = a.isType type := by
  rw [h]
  rfl

end Card.Alike

namespace PlayerZones

theorem cards_eq (zones : PlayerZones) : zones.cards =
    zones.library.cards ++ (zones.hand.cards ++ (zones.graveyard.cards ++ zones.exile.cards)) := by
  simp [cards, piles]

/-- The cards on top and the others are all the cards of a pile. -/
theorem perm_dropTop_append_top (pile : Pile) (count : Nat) :
    ((pile.dropTop count).cards ++ pile.top count).Perm pile.cards := by
  conv_rhs => rw [← pile.dropTop_append_top count]
  exact (List.reverse_perm _).symm.append_left _

theorem cards_draw (zones : PlayerZones) (count : Nat) :
    (zones.draw count).2.cards.Perm zones.cards := by
  refine List.perm_iff_count.mpr fun card => ?_
  have htaken := (perm_dropTop_append_top zones.library count).count_eq card
  simp only [cards_eq, draw, Pile.addAll, List.count_append] at htaken ⊢
  omega

theorem cards_mill (zones : PlayerZones) (count : Nat) :
    (zones.mill count).2.cards.Perm zones.cards := by
  refine List.perm_iff_count.mpr fun card => ?_
  have htaken := (perm_dropTop_append_top zones.library count).count_eq card
  simp only [cards_eq, mill, Pile.addAll, List.count_append] at htaken ⊢
  omega

theorem cards_discard (zones : PlayerZones) (count : Nat) :
    (zones.discard count).cards.Perm zones.cards := by
  refine List.perm_iff_count.mpr fun card => ?_
  have htaken := (perm_dropTop_append_top zones.hand count).count_eq card
  simp only [cards_eq, discard, Pile.addAll, List.count_append] at htaken ⊢
  omega

end PlayerZones

namespace Table

open Act

/-! ## The parts of a table -/

theorem card?_updateCard (table : Table) (id key : CardId) (f : Card → Card) :
    (table.updateCard id f).card? key =
      if key = id then (table.card? key).map f else table.card? key :=
  Store.get?_update table.cards id key f

theorem zones?_updateZones (table : Table) (id key : PlayerId) (f : PlayerZones → PlayerZones) :
    (table.updateZones id f).zones? key =
      if key = id then (table.zones? key).map f else table.zones? key :=
  Store.get?_update ⟨table.zones⟩ id key f

theorem seats_updatePlayer (table : Table) {id : PlayerId} {f : Player → Player}
    (hf : ∀ player, player.id = id → (f player).id = id) :
    (table.updatePlayer id f).seats = table.seats := by
  rw [seats, seats, updatePlayer, List.map_map]
  refine List.map_congr_left fun player _ => ?_
  rw [Function.comp]
  by_cases hid : player.id = id
  · rw [if_pos (beq_iff_eq.mpr hid), hf player hid, hid]
  · rw [if_neg (mt beq_iff_eq.mp hid)]

theorem seats_emptyPools (table : Table) :
    seats { table with players := table.players.map (·.emptyPool) } = table.seats := by
  rw [seats, seats, List.map_map]
  rfl

theorem id_of_player? {table : Table} {id : PlayerId} {player : Player}
    (h : table.player? id = some player) : player.id = id := by
  simpa using List.find?_some h

theorem player?_updatePlayer (table : Table) (id key : PlayerId) {f : Player → Player}
    (hf : ∀ player, player.id = id → (f player).id = id) :
    (table.updatePlayer id f).player? key =
      if key = id then (table.player? key).map f else table.player? key := by
  have hsame : ((fun player : Player => player.id == key) ∘
      fun player => if player.id == id then f player else player) = fun player => player.id == key := by
    funext player
    rw [Function.comp]
    split
    · rename_i hid
      rw [hf player (beq_iff_eq.mp hid), beq_iff_eq.mp hid]
    · rfl
  unfold updatePlayer player?
  rw [List.find?_map, hsame]
  cases hplayer : table.players.find? fun player => player.id == key with
  | none => simp
  | some player =>
    have hkey : player.id = key := by simpa using List.find?_some hplayer
    rw [Option.map_some, Option.map_some, hkey]
    by_cases hid : key = id
    · rw [if_pos (beq_iff_eq.mpr hid), if_pos hid]
    · rw [if_neg (mt beq_iff_eq.mp hid), if_neg hid]

theorem player?_isSome (table : Table) (id : PlayerId) :
    (table.player? id).isSome = true ↔ id ∈ table.seats := by
  rw [player?, List.find?_isSome, seats, List.mem_map]
  refine exists_congr fun player => and_congr_right fun _ => ?_
  rw [beq_iff_eq]

/-! ## What must be there -/

section Require

variable {table : Table}

theorem outcome_requireCard {id : CardId} {card : Card} (h : table.card? id = some card) :
    (requireCard id).outcome table = (.ok card, table) := by
  unfold requireCard
  rw [outcome_bind_ok (outcome_get table), h, outcome_require_some]

theorem outcome_requireCard_none {id : CardId} (h : table.card? id = none) :
    (requireCard id).outcome table = (.error (.unknownEntity id), table) := by
  unfold requireCard
  rw [outcome_bind_ok (outcome_get table), h, outcome_require_none]

theorem outcome_requirePlayer {id : PlayerId} {player : Player}
    (h : table.player? id = some player) :
    (requirePlayer id).outcome table = (.ok player, table) := by
  unfold requirePlayer
  rw [outcome_bind_ok (outcome_get table), h, outcome_require_some]

theorem outcome_requirePlayer_none {id : PlayerId} (h : table.player? id = none) :
    (requirePlayer id).outcome table = (.error (.unknownEntity id), table) := by
  unfold requirePlayer
  rw [outcome_bind_ok (outcome_get table), h, outcome_require_none]

theorem outcome_requireZones {id : PlayerId} {zones : PlayerZones}
    (h : table.zones? id = some zones) :
    (requireZones id).outcome table = (.ok zones, table) := by
  unfold requireZones
  rw [outcome_bind_ok (outcome_get table), h, outcome_require_some]

theorem outcome_requireZones_none {id : PlayerId} (h : table.zones? id = none) :
    (requireZones id).outcome table = (.error (.unknownEntity id), table) := by
  unfold requireZones
  rw [outcome_bind_ok (outcome_get table), h, outcome_require_none]

/-- A card that is on the battlefield and exists. -/
def permanent? (table : Table) (id : CardId) : Option Card :=
  if table.onBattlefield id then table.card? id else none

theorem permanent?_eq_some_iff {id : CardId} {card : Card} :
    table.permanent? id = some card ↔
      table.onBattlefield id = true ∧ table.card? id = some card := by
  unfold permanent?
  split
  · rename_i hfield
    exact ⟨fun h => ⟨hfield, h⟩, fun h => h.2⟩
  · rename_i hfield
    exact ⟨fun h => by simp at h, fun h => absurd h.1 hfield⟩

theorem outcome_requirePermanent {id : CardId} {card : Card}
    (h : table.permanent? id = some card) :
    (requirePermanent id).outcome table = (.ok card, table) := by
  obtain ⟨hfield, hcard⟩ := permanent?_eq_some_iff.mp h
  unfold requirePermanent
  rw [outcome_bind_ok (outcome_get table), if_pos hfield, outcome_requireCard hcard]

theorem outcome_requirePermanent_none {id : CardId} (h : table.permanent? id = none) :
    (requirePermanent id).outcome table = (.error (.unknownEntity id), table) := by
  unfold requirePermanent
  rw [outcome_bind_ok (outcome_get table)]
  unfold permanent? at h
  split at h
  · rename_i hfield
    rw [if_pos hfield, outcome_requireCard_none h]
  · rename_i hfield
    rw [if_neg hfield, outcome_fail]

theorem outcome_changePermanent {id : CardId} {card : Card} (h : table.permanent? id = some card)
    (f : Card → Card) :
    (changePermanent id f).outcome table = (.ok (), table.updateCard id f) := by
  unfold changePermanent
  rw [outcome_bind_ok (outcome_requirePermanent h), outcome_modify]

theorem outcome_changePermanent_none {id : CardId} (h : table.permanent? id = none)
    (f : Card → Card) :
    (changePermanent id f).outcome table = (.error (.unknownEntity id), table) := by
  unfold changePermanent
  rw [outcome_bind_error (outcome_requirePermanent_none h)]

theorem outcome_changePlayer {id : PlayerId} {player : Player} (h : table.player? id = some player)
    (f : Player → Player) :
    (changePlayer id f).outcome table = (.ok (), table.updatePlayer id f) := by
  unfold changePlayer
  rw [outcome_bind_ok (outcome_requirePlayer h), outcome_modify]

theorem outcome_changePlayer_none {id : PlayerId} (h : table.player? id = none)
    (f : Player → Player) :
    (changePlayer id f).outcome table = (.error (.unknownEntity id), table) := by
  unfold changePlayer
  rw [outcome_bind_error (outcome_requirePlayer_none h)]

/-! A look at the table leaves it as it is, whether it finds something or not. -/

theorem snd_outcome_requirePlayer (id : PlayerId) (table : Table) :
    ((requirePlayer id).outcome table).2 = table := by
  unfold requirePlayer
  rw [outcome_bind_ok (outcome_get table), snd_outcome_require]

theorem snd_outcome_requireZones (id : PlayerId) (table : Table) :
    ((requireZones id).outcome table).2 = table := by
  unfold requireZones
  rw [outcome_bind_ok (outcome_get table), snd_outcome_require]

theorem snd_outcome_requirePermanent (id : CardId) (table : Table) :
    ((requirePermanent id).outcome table).2 = table := by
  cases hcard : table.permanent? id with
  | none => rw [outcome_requirePermanent_none hcard]
  | some card => rw [outcome_requirePermanent hcard]

variable {R : Table → Table → Prop} [Std.Refl R] [IsTrans Table R]

theorem along_requireCard (id : CardId) : Along R (requireCard id) :=
  Along.get.bind fun _ => .require _ _

theorem along_requirePlayer (id : PlayerId) : Along R (requirePlayer id) :=
  Along.get.bind fun _ => .require _ _

theorem along_requireZones (id : PlayerId) : Along R (requireZones id) :=
  Along.get.bind fun _ => .require _ _

theorem along_requirePermanent (id : CardId) : Along R (requirePermanent id) := by
  unfold requirePermanent
  refine Along.get.bind fun table => ?_
  split
  · exact along_requireCard id
  · exact .fail _

end Require

/-! ## Moves

A move is made of its two halves, and a sacrifice, a destruction and the burial of the dying are made of moves. -/

section Moves

/-- What is reported afterwards makes no difference to what a change comes to. -/
theorem outcome_bind_report (change : Change Unit) (event : Table → Event) (table : Table) :
    (change >>= fun _ => Act.get >>= fun after => report (event after)).outcome table =
      change.outcome table := by
  rcases hchange : change.outcome table with ⟨fault | _, after⟩
  · rw [outcome_bind_error hchange]
  · rw [outcome_bind_ok hchange]
    rfl

theorem outcome_sacrifice_eq (id : CardId) (table : Table) :
    (sacrifice id).outcome table = (move id .battlefield .graveyard).outcome table :=
  outcome_bind_report _ _ table

variable {R : Table → Table → Prop} [Std.Refl R] [IsTrans Table R]

theorem along_move {id : CardId} {source target : Zone} (htake : Along R (takeFrom id source))
    (hplace : Along R (place id target))
    (hleave : ∀ table : Table, R table (table.updateCard id Card.leaveBattlefield)) :
    Along R (move id source target) := by
  have hmodify : Along R (Act.modify (·.updateCard id Card.leaveBattlefield)) := .modify hleave
  unfold move
  refine htake.bind fun _ => hplace.bind fun _ => ?_
  dsimp only
  split
  · exact hmodify.bind fun _ => .report _ _
  · exact .report _ _

theorem along_sacrifice {id : CardId} (h : Along R (move id .battlefield .graveyard)) :
    Along R (sacrifice id) :=
  h.bind fun _ => Along.get.bind fun _ => .report _ _

theorem along_destroy {id : CardId} (h : Along R (move id .battlefield .graveyard)) :
    Along R (destroy id) := by
  unfold destroy
  refine (along_requirePermanent id).bind fun card => ?_
  split
  · exact (Along.report _ _).bind fun _ => .pure _
  · exact h.bind fun _ => Along.get.bind fun _ => (Along.report _ _).bind fun _ => .pure _

theorem along_buryDying (h : ∀ id, Along R (move id .battlefield .graveyard)) : Along R buryDying :=
  Along.get.bind fun _ => (Along.forM fun id _ =>
    (h id).bind fun _ => Along.get.bind fun _ => .report _ _).bind fun _ => .pure _

end Moves

/-! ## The three sorts of change -/

/-- Changing a player, changing what the battlefield adds to a permanent, and shifting a player's
cards between the piles move the table along `R`. -/
structure Frame (R : Table → Table → Prop) : Prop where
  player (table : Table) (id : PlayerId) (f : Player → Player)
    (hf : ∀ player, player.id = id → (f player).id = id) : R table (table.updatePlayer id f)
  permanent (table : Table) (id : CardId) (f : Card → Card) (hid : table.onBattlefield id = true)
    (hf : ∀ card, Card.Alike card (f card)) : R table (table.updateCard id f)
  zones (table : Table) (id : PlayerId) (f : PlayerZones → PlayerZones)
    (hf : ∀ zones, table.zones? id = some zones → (f zones).cards.Perm zones.cards) :
    R table (table.updateZones id f)

namespace Frame

variable {R : Table → Table → Prop} [Std.Refl R] [IsTrans Table R]

theorem along_changePlayer (frame : Frame R) (id : PlayerId) (f : Player → Player)
    (hf : ∀ player, (f player).id = player.id) : Along R (changePlayer id f) :=
  (along_requirePlayer id).bind fun _ => .modify fun table =>
    frame.player table id f fun player h => (hf player).trans h

omit [IsTrans Table R] in
theorem along_changePermanent (frame : Frame R) (id : CardId) (f : Card → Card)
    (hf : ∀ card, Card.Alike card (f card)) : Along R (changePermanent id f) := by
  intro table
  cases hcard : table.permanent? id with
  | none =>
    rw [outcome_changePermanent_none hcard]
    exact Std.Refl.refl table
  | some card =>
    rw [outcome_changePermanent hcard]
    exact frame.permanent table id f (permanent?_eq_some_iff.mp hcard).1 hf

omit [IsTrans Table R] in
/-- A change of a player's piles that only shifts the cards between them. -/
theorem along_zones (frame : Frame R) (id : PlayerId) {change : PlayerZones → Change Unit}
    (h : ∀ (table : Table) (zones : PlayerZones), table.zones? id = some zones →
      ((change zones).outcome table).2 = table ∨ ∃ f : PlayerZones → PlayerZones,
        (f zones).cards.Perm zones.cards ∧
          ((change zones).outcome table).2 = table.updateZones id f) :
    Along R (requireZones id >>= change) := by
  intro table
  cases hzones : table.zones? id with
  | none =>
    rw [outcome_bind_error (outcome_requireZones_none hzones)]
    exact Std.Refl.refl table
  | some zones =>
    rw [outcome_bind_ok (outcome_requireZones hzones)]
    rcases h table zones hzones with hsame | ⟨f, hf, hchanged⟩
    · rw [hsame]
      exact Std.Refl.refl table
    · rw [hchanged]
      refine frame.zones table id f fun zones' hzones' => ?_
      obtain rfl : zones = zones' := Option.some.inj (hzones.symm.trans hzones')
      exact hf

omit [IsTrans Table R] in
theorem along_pay (frame : Frame R) (player : PlayerId) (cost : Cost) :
    Along R (pay player cost) := by
  intro table
  unfold pay
  cases hpayer : table.player? player with
  | none =>
    rw [outcome_bind_error (outcome_requirePlayer_none hpayer)]
    exact Std.Refl.refl table
  | some payer =>
    rw [outcome_bind_ok (outcome_requirePlayer hpayer)]
    cases hpaid : payer.pay cost with
    | error fault => exact Std.Refl.refl table
    | ok paid =>
      have hid : payer.id = player := id_of_player? hpayer
      exact frame.player table player _ fun _ _ => (Player.id_of_pay hpaid).trans hid

omit [IsTrans Table R] in
theorem along_discard (frame : Frame R) (player : PlayerId) (count : Nat) :
    Along R (discard player count) := by
  refine frame.along_zones player fun table zones _ => ?_
  dsimp only
  split
  · exact .inl rfl
  · exact .inr ⟨(·.discard count), zones.cards_discard count, rfl⟩

omit [IsTrans Table R] in
theorem along_draw (frame : Frame R) (player : PlayerId) (count : Nat) :
    Along R (draw player count) := by
  refine frame.along_zones player fun table zones _ =>
    .inr ⟨fun _ => (zones.draw count).2, zones.cards_draw count, ?_⟩
  dsimp only
  rw [outcome_bind_ok (outcome_modify _ _)]
  split
  · rfl
  · rfl

omit [IsTrans Table R] in
theorem along_mill (frame : Frame R) (player : PlayerId) (count : Nat) :
    Along R (mill player count) :=
  frame.along_zones player fun _ zones _ =>
    .inr ⟨fun _ => (zones.mill count).2, zones.cards_mill count, rfl⟩

omit [IsTrans Table R] in
theorem along_tap (frame : Frame R) (id : CardId) : Along R (tap id) :=
  frame.along_changePermanent id _ fun _ => rfl

omit [IsTrans Table R] in
theorem along_untap (frame : Frame R) (id : CardId) : Along R (untap id) :=
  frame.along_changePermanent id _ fun _ => rfl

omit [IsTrans Table R] in
theorem along_pump (frame : Frame R) (id : CardId) (power toughness : Int32)
    (duration : Duration) : Along R (pump id power toughness duration) :=
  frame.along_changePermanent id _ fun _ => rfl

theorem along_gainLife (frame : Frame R) (player : PlayerId) (amount : Int32) :
    Along R (gainLife player amount) :=
  frame.along_changePlayer player _ fun _ => rfl

theorem along_loseLife (frame : Frame R) (player : PlayerId) (amount : Int32) :
    Along R (loseLife player amount) :=
  frame.along_changePlayer player _ fun _ => rfl

theorem along_addMana (frame : Frame R) (player : PlayerId) (color : Color) (amount : UInt8) :
    Along R (addMana player color amount) :=
  (frame.along_changePlayer player (·.addMana color amount) fun _ => rfl).bind fun _ => .report _ _

theorem along_damage (frame : Frame R) (target : Choice) (amount : Int32) (source : CardId) :
    Along R (damage target amount source) := by
  have hreport (event : Table → Event) :
      Along R (Act.get >>= fun table => report (event table)) :=
    Along.get.bind fun _ => .report _ _
  unfold damage
  cases target with
  | player player =>
    exact (frame.along_changePlayer player (·.loseLife amount) fun _ => rfl).bind fun _ => hreport _
  | permanent id =>
    exact (frame.along_changePermanent id (fun card =>
      { card with damage := Capped.addWord card.damage amount }) fun _ => rfl).bind
        fun _ => hreport _
  | spell item => exact (Along.fail _).bind fun _ => hreport _

end Frame

end Table

end CardRules
