import CardRules.Proofs.Table.Dying
import CardRules.Proofs.Table.Obstacle

/-!
# Changes that lose no card

A change is careful if it only rearranges what lies in the piles of an orderly table, and changes
nothing at all where it fails. Every change that effects and payments make is careful, and so is
going on with the turn. A new card gets a number that no card has, and lies in no pile.
-/

set_option autoImplicit false

namespace CardRules.Table

open Act

/-- The change only rearranges an orderly table, and where it fails it changes nothing. -/
structure Careful {α : Type} (act : Change α) : Prop where
  shuffles : Along Shuffles act
  atomic (table : Table) (h : table.Orderly) : act.Atomic table

namespace Careful

variable {α β : Type}

theorem bind_succeeds {act : Change α} {next : α → Change β} (h : Careful act)
    (halong : ∀ a, Along Shuffles (next a)) (hnext : ∀ a table, (next a).Succeeds table) :
    Careful (act >>= next) where
  shuffles := h.shuffles.bind halong
  atomic table horderly := (h.atomic table horderly).bind_succeeds fun a after _ => hnext a after

end Careful

/-! ## Every change is careful -/

theorem careful_changePlayer (id : PlayerId) (f : Player → Player)
    (hf : ∀ player, (f player).id = player.id) : Careful (changePlayer id f) where
  shuffles := shuffles_frame.along_changePlayer id f hf
  atomic _ horderly := (stoppedBy_changePlayer id f).atomic horderly

theorem careful_changePermanent (id : CardId) (f : Card → Card)
    (hf : ∀ card, Card.Alike card (f card)) : Careful (changePermanent id f) where
  shuffles := shuffles_frame.along_changePermanent id f hf
  atomic _ horderly := (stoppedBy_changePermanent id f).atomic horderly

theorem careful_draw (player : PlayerId) (count : Nat) : Careful (draw player count) where
  shuffles := shuffles_frame.along_draw player count
  atomic _ horderly := (stoppedBy_draw player count).atomic horderly

theorem careful_mill (player : PlayerId) (count : Nat) : Careful (mill player count) where
  shuffles := shuffles_frame.along_mill player count
  atomic _ horderly := (stoppedBy_mill player count).atomic horderly

theorem careful_discard (player : PlayerId) (count : Nat) : Careful (discard player count) where
  shuffles := shuffles_frame.along_discard player count
  atomic table _ := by
    refine Atomic.bind_of_unchanged (snd_outcome_requireZones player table) fun zones _ => ?_
    dsimp only
    split
    · exact .of_unchanged rfl
    · exact Succeeds.atomic ⟨(), _, rfl⟩

theorem careful_pay (player : PlayerId) (cost : Cost) : Careful (pay player cost) where
  shuffles := shuffles_frame.along_pay player cost
  atomic _ _ := atomic_pay player cost

theorem careful_addMana (player : PlayerId) (color : Color) (amount : UInt8) :
    Careful (addMana player color amount) := by
  have hpool : Careful (changePlayer player (·.addMana color amount)) :=
    careful_changePlayer player _ fun _ => rfl
  exact hpool.bind_succeeds (fun _ => .report _ _) fun _ table => ⟨(), table, rfl⟩

theorem careful_damage (target : Choice) (amount : Int32) (source : CardId) :
    Careful (damage target amount source) where
  shuffles := shuffles_frame.along_damage target amount source
  atomic _ horderly := (stoppedBy_damage target amount source).atomic horderly

theorem careful_move (id : CardId) (source target : Zone) : Careful (move id source target) where
  shuffles table := by
    intro h
    rcases move_cases h id source target with ⟨fault, hfail⟩ | ⟨after, hmove, hshuffled⟩
    · rw [hfail]
      exact ⟨h, rfl, rfl, .refl _⟩
    · rw [hmove]
      exact hshuffled h
  atomic table h := by
    rcases move_cases h id source target with ⟨fault, hfail⟩ | ⟨after, hmove, -⟩
    · exact .of_unchanged (by rw [hfail])
    · exact Succeeds.atomic ⟨(), after, hmove⟩

theorem careful_sacrifice (id : CardId) : Careful (sacrifice id) :=
  (careful_move id _ _).bind_succeeds (fun _ => Along.get.bind fun _ => .report _ _)
    fun _ table => ⟨(), table, rfl⟩

theorem careful_destroy (id : CardId) : Careful (destroy id) where
  shuffles := along_destroy (careful_move id _ _).shuffles
  atomic table h := by
    unfold destroy
    refine Atomic.bind_of_unchanged (snd_outcome_requirePermanent id table) fun card _ => ?_
    split
    · exact Succeeds.atomic ⟨_, table, rfl⟩
    · exact ((careful_move id _ _).atomic table h).bind_succeeds fun _ after _ => ⟨_, after, rfl⟩

theorem careful_buryDying : Careful buryDying where
  shuffles := along_buryDying fun id => (careful_move id _ _).shuffles
  atomic table h := by
    obtain ⟨done, after, hburied⟩ :=
      succeeds_forM_die h.sound (List.filter_sublist.subperm : table.dying.Subperm _)
    exact Succeeds.atomic ⟨_, after, outcome_buryDying_eq_ok.mpr ⟨rfl, hburied⟩⟩

/-! ## The turn -/

theorem shuffles_setTurn (table : Table) (turn : Turn) : Shuffles table { table with turn } :=
  fun h => ⟨⟨h.keys, h.distinct, h.owned, h.field, h.seated, h.below⟩, rfl, rfl, .refl _⟩

theorem shuffles_updateCards (table : Table) (ids : List CardId) {f : Card → Card}
    (hf : ∀ card, (f card).owner = card.owner) :
    Shuffles table
      { table with cards := ids.foldl (fun cards id => cards.update id f) table.cards } := by
  induction ids generalizing table with
  | nil => exact Std.Refl.refl table
  | cons id ids ih =>
    exact IsTrans.trans _ _ _ (shuffles_updateCard table id hf) (ih (table.updateCard id f))

theorem shuffles_advanceStep (table : Table) : Shuffles table table.advanceStep.2 := by
  have howner (elapsed : Duration) (card : Card) :
      (expireCard elapsed card).owner = card.owner := by
    unfold expireCard
    dsimp only
    split
    · rfl
    · rfl
  unfold advanceStep
  cases table.turn.step.endsDuration with
  | none => exact shuffles_setTurn table _
  | some elapsed =>
    exact IsTrans.trans _ _ _
      (shuffles_updateCards table table.battlefield.cards (howner elapsed)) (shuffles_setTurn _ _)

theorem shuffles_nextTurn (table : Table) : Shuffles table table.nextTurn := by
  unfold nextTurn
  cases nextSeat table.seats table.turn.active with
  | none => exact Std.Refl.refl table
  | some next =>
    have hseats := seats_emptyPools table
    have hplayers : Shuffles table { table with players := table.players.map (·.emptyPool) } := by
      intro h
      exact ⟨⟨h.keys.trans hseats.symm, hseats.symm ▸ h.distinct, h.owned, h.field,
        fun id owner howner => hseats.symm ▸ h.seated id owner howner, h.below⟩, hseats, rfl, .refl _⟩
    exact IsTrans.trans _ _ _ hplayers (shuffles_setTurn _ _)

/-! ## New cards -/

section Insert

variable {table : Table}

theorem owner?_insertCard (table : Table) (card : Card) (key : CardId) :
    (table.insertCard card).2.owner? key =
      if key = table.nextId then some card.owner else table.owner? key := by
  have hcard : (table.insertCard card).2.card? key =
      if key = table.nextId then some { card with id := table.nextId } else table.card? key :=
    Store.get?_insert table.cards table.nextId key _
  rw [owner?, hcard]
  split
  · rfl
  · rfl

theorem toNat_next {id : EntityId} (h : id.number.toNat + 1 < UInt32.size) :
    id.next.number.toNat = id.number.toNat + 1 := by
  rw [EntityId.next, UInt32.toNat_add]
  exact Nat.mod_eq_of_lt h

/-- A new card is under a new number, so it is none of the cards in the piles. -/
theorem Orderly.insertCard (h : table.Orderly) {card : Card} (howner : card.owner ∈ table.seats)
    (hsmall : table.nextId.number.toNat + 1 < UInt32.size) :
    (table.insertCard card).2.Orderly := by
  have hnew (id : CardId) (owner : PlayerId) (hid : table.owner? id = some owner) :
      (table.insertCard card).2.owner? id = some owner := by
    rw [owner?_insertCard, if_neg, hid]
    rintro rfl
    exact UInt32.lt_irrefl _ (h.below table.nextId owner hid)
  constructor
  · exact h.keys
  · exact h.distinct
  · exact fun entry hentry id hid => hnew id entry.1 (h.owned entry hentry id hid)
  · intro id hid
    obtain ⟨owner, hid⟩ := Option.isSome_iff_exists.mp (h.field id hid)
    exact Option.isSome_of_mem (hnew id owner hid)
  · intro id owner hid
    rw [owner?_insertCard] at hid
    split at hid
    · exact Option.some.inj hid ▸ howner
    · exact h.seated id owner hid
  · intro id owner hid
    rw [owner?_insertCard] at hid
    have hlt : table.nextId.number < table.nextId.next.number := by
      rw [UInt32.lt_iff_toNat_lt, toNat_next hsmall]
      exact Nat.lt_succ_self _
    split at hid
    · rename_i hkey
      rw [hkey]
      exact hlt
    · exact UInt32.lt_trans (h.below id owner hid) hlt

end Insert

end CardRules.Table
