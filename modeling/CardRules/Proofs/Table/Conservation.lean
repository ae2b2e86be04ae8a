import CardRules.Proofs.Table.Careful
import Mathlib.Data.List.Range

/-!
# Conservation of cards

What can be asked of a table, as data: cards are created, placed and moved, the turn goes on, and
effects and payments make their changes. `Table.play` is the table after a list of operations,
succeeding or failing. Two lists tell the history of a run: the numbers that were given to new cards
(`created`), and the cards that came into the piles from outside (`placements`).

Nothing else counts. The pool is always a rearrangement of what was placed, so a card that was placed
once lies in one pile, once, whatever happens afterwards.
-/

set_option autoImplicit false

namespace CardRules.Table

open Act

/-- What can be asked of a table. -/
inductive Operation where
  | create (name : String) (owner : PlayerId)
  | insert (card : Card)
  | createPermanent (card : Card)
  | place (id : CardId) (zone : Zone)
  | move (id : CardId) (source target : Zone)
  | draw (player : PlayerId) (count : Nat)
  | mill (player : PlayerId) (count : Nat)
  | discard (player : PlayerId) (count : Nat)
  | sacrifice (id : CardId)
  | destroy (id : CardId)
  | buryDying
  | setStep (step : Step)
  | advanceStep
  | nextTurn
  | pay (player : PlayerId) (cost : Cost)
  | tap (id : CardId)
  | untap (id : CardId)
  | addMana (player : PlayerId) (color : Color) (amount : UInt8)
  | damage (target : Choice) (amount : Int32) (source : CardId)
  | gainLife (player : PlayerId) (amount : Int32)
  | loseLife (player : PlayerId) (amount : Int32)
  | pump (id : CardId) (power toughness : Int32) (duration : Duration)
  /-- A player gets control of a card. -/
  | control (id : CardId) (player : PlayerId)

/-- A new card at the table, and its number. -/
def adding (add : Table → CardId × Table) : Change (Option CardId) := fun table =>
  { result := .ok (some (add table).1), state := (add table).2 }

/-- A change that brings no new card. -/
def silently {α : Type} (change : Change α) : Change (Option CardId) := (fun _ => none) <$> change

namespace Operation

/-- The operation as a change; it answers the number of a new card. -/
def perform : Operation → Change (Option CardId)
  | create name owner => adding (·.createCard name owner)
  | insert card => adding (·.insertCard card)
  | createPermanent card => adding (·.createPermanent card)
  | place id zone => silently (Table.place id zone)
  | move id source target => silently (Table.move id source target)
  | draw player count => silently (Table.draw player count)
  | mill player count => silently (Table.mill player count)
  | discard player count => silently (Table.discard player count)
  | sacrifice id => silently (Table.sacrifice id)
  | destroy id => silently (Table.destroy id)
  | buryDying => silently Table.buryDying
  | setStep step => silently (Act.modify (·.setStep step))
  | advanceStep => silently (Act.modify (·.advanceStep.2))
  | nextTurn => silently (Act.modify (·.nextTurn))
  | pay player cost => silently (Table.pay player cost)
  | tap id => silently (Table.tap id)
  | untap id => silently (Table.untap id)
  | addMana player color amount => silently (Table.addMana player color amount)
  | damage target amount source => silently (Table.damage target amount source)
  | gainLife player amount => silently (Table.gainLife player amount)
  | loseLife player amount => silently (Table.loseLife player amount)
  | pump id power toughness duration => silently (Table.pump id power toughness duration)
  | control id player =>
    silently (Act.modify (·.updateCard id fun card => { card with controller := player }))

/-- The owner of a new card. -/
def owner? : Operation → Option PlayerId
  | create _ owner => some owner
  | insert card => some card.owner
  | createPermanent card => some card.owner
  | _ => none

variable (operation : Operation) (table : Table)

/-- The table after an operation. -/
def after : Table := (operation.perform table).state

/-- The number of a new card, if there is one. -/
def created : List CardId :=
  match (operation.perform table).result with
  | .ok (some id) => [id]
  | _ => []

/-- The card that comes into a pile from outside, if there is one. -/
def placed : List CardId :=
  match operation, (operation.perform table).result with
  | place id _, .ok _ => [id]
  | createPermanent _, .ok (some id) => [id]
  | _, _ => []

end Operation

/-- The table after some operations. -/
def play (table : Table) : List Operation → Table
  | [] => table
  | operation :: operations => (operation.after table).play operations

/-- The numbers of the cards that some operations create, in order. -/
def created (table : Table) : List Operation → List CardId
  | [] => []
  | operation :: operations => operation.created table ++ (operation.after table).created operations

/-- The cards that some operations bring into the piles, in order, each as often as it is brought. -/
def placements (table : Table) : List Operation → List CardId
  | [] => []
  | operation :: operations => operation.placed table ++ (operation.after table).placements operations

/-! ## One operation -/

/-- What happens to an orderly table while some numbers are given and some cards are placed. -/
structure Step (before after : Table) (created placed : List CardId) : Prop where
  orderly : after.Orderly
  seats : after.seats = before.seats
  numbers : created.map (·.number.toNat) =
    List.range' before.nextId.number.toNat created.length
  next : after.nextId.number.toNat = before.nextId.number.toNat + created.length
  pool : after.pool.Perm (before.pool ++ placed)

theorem Step.refl {table : Table} (h : table.Orderly) : Step table table [] [] :=
  ⟨h, rfl, rfl, rfl, by rw [List.append_nil]⟩

theorem Step.trans {a b c : Table} {created created' placed placed' : List CardId}
    (hab : Step a b created placed) (hbc : Step b c created' placed') :
    Step a c (created ++ created') (placed ++ placed') where
  orderly := hbc.orderly
  seats := hbc.seats.trans hab.seats
  numbers := by
    rw [List.map_append, hab.numbers, hbc.numbers, hab.next, List.length_append,
      ← List.range'_append_1]
  next := by rw [hbc.next, hab.next, List.length_append, Nat.add_assoc]
  pool := by
    rw [← List.append_assoc]
    exact hbc.pool.trans (hab.pool.append_right placed')

theorem Step.of_shuffles {before after : Table} (h : before.Orderly)
    (hshuffles : Shuffles before after) : Step before after [] [] := by
  obtain ⟨horderly, hseats, hnext, hpool⟩ := hshuffles h
  refine ⟨horderly, hseats, rfl, by rw [hnext]; rfl, ?_⟩
  rw [List.append_nil]
  exact hpool

theorem Step.insertCard {table : Table} (h : table.Orderly) {card : Card}
    (howner : card.owner ∈ table.seats) (hsmall : table.nextId.number.toNat + 1 < UInt32.size) :
    Step table (table.insertCard card).2 [table.nextId] [] where
  orderly := h.insertCard howner hsmall
  seats := rfl
  numbers := rfl
  next := toNat_next hsmall
  pool := by rw [List.append_nil]; exact .refl _

theorem Careful.silently {α : Type} {change : Change α} (h : Careful change) :
    Careful (silently change) :=
  h.bind_succeeds (fun _ => .pure none) fun _ table => ⟨none, table, rfl⟩

theorem careful_modify {f : Table → Table} (h : ∀ table, Shuffles table (f table)) :
    Careful (Act.modify f) :=
  ⟨.modify h, fun table _ => Succeeds.atomic ⟨(), f table, rfl⟩⟩

namespace Operation

/-- The operations that create or place a card, and the others, which are all careful. -/
theorem careful_or (operation : Operation) :
    ((∃ name owner, operation = create name owner) ∨ (∃ card, operation = insert card) ∨
      (∃ card, operation = createPermanent card) ∨ ∃ id zone, operation = place id zone) ∨
      ∃ (α : Type) (change : Change α), Careful change ∧
        operation.perform = silently change ∧ ∀ table, operation.placed table = [] := by
  cases operation with
  | create name owner => exact .inl (.inl ⟨name, owner, rfl⟩)
  | insert card => exact .inl (.inr (.inl ⟨card, rfl⟩))
  | createPermanent card => exact .inl (.inr (.inr (.inl ⟨card, rfl⟩)))
  | place id zone => exact .inl (.inr (.inr (.inr ⟨id, zone, rfl⟩)))
  | move id source target =>
    exact .inr ⟨_, _, careful_move id source target, rfl, fun _ => rfl⟩
  | draw player count => exact .inr ⟨_, _, careful_draw player count, rfl, fun _ => rfl⟩
  | mill player count => exact .inr ⟨_, _, careful_mill player count, rfl, fun _ => rfl⟩
  | discard player count => exact .inr ⟨_, _, careful_discard player count, rfl, fun _ => rfl⟩
  | sacrifice id => exact .inr ⟨_, _, careful_sacrifice id, rfl, fun _ => rfl⟩
  | destroy id => exact .inr ⟨_, _, careful_destroy id, rfl, fun _ => rfl⟩
  | buryDying => exact .inr ⟨_, _, careful_buryDying, rfl, fun _ => rfl⟩
  | setStep step =>
    exact .inr ⟨_, _, careful_modify fun table => shuffles_setTurn table _, rfl, fun _ => rfl⟩
  | advanceStep => exact .inr ⟨_, _, careful_modify shuffles_advanceStep, rfl, fun _ => rfl⟩
  | nextTurn => exact .inr ⟨_, _, careful_modify shuffles_nextTurn, rfl, fun _ => rfl⟩
  | pay player cost => exact .inr ⟨_, _, careful_pay player cost, rfl, fun _ => rfl⟩
  | tap id =>
    have htap : Careful (Table.tap id) := careful_changePermanent id _ fun _ => rfl
    exact .inr ⟨_, _, htap, rfl, fun _ => rfl⟩
  | untap id =>
    have huntap : Careful (Table.untap id) := careful_changePermanent id _ fun _ => rfl
    exact .inr ⟨_, _, huntap, rfl, fun _ => rfl⟩
  | addMana player color amount =>
    exact .inr ⟨_, _, careful_addMana player color amount, rfl, fun _ => rfl⟩
  | damage target amount source =>
    exact .inr ⟨_, _, careful_damage target amount source, rfl, fun _ => rfl⟩
  | gainLife player amount =>
    exact .inr ⟨_, _, careful_changePlayer player (·.gainLife amount) fun _ => rfl, rfl,
      fun _ => rfl⟩
  | loseLife player amount =>
    exact .inr ⟨_, _, careful_changePlayer player (·.loseLife amount) fun _ => rfl, rfl,
      fun _ => rfl⟩
  | pump id power toughness duration =>
    exact .inr ⟨_, _, careful_changePermanent id (·.addModifier power toughness duration)
      fun _ => rfl, rfl, fun _ => rfl⟩
  | control id player =>
    have hcontrol : Careful (Act.modify (·.updateCard id fun card =>
        { card with controller := player })) :=
      careful_modify fun table => shuffles_updateCard table id fun _ => rfl
    exact .inr ⟨_, _, hcontrol, rfl, fun _ => rfl⟩

variable {operation : Operation} {table : Table}

theorem outcome_silently {α : Type} (change : Change α) (table : Table) :
    (silently change).outcome table =
      ((change.outcome table).1.map fun _ => none, (change.outcome table).2) :=
  outcome_map _ change table

theorem created_of_silently {α : Type} {change : Change α}
    (h : operation.perform = silently change) : operation.created table = [] := by
  have hresult : (operation.perform table).result =
      ((change.outcome table).1.map fun _ => none : Except Fault (Option CardId)) := by
    rw [h]
    exact congrArg Prod.fst (outcome_silently change table)
  unfold created
  rw [hresult]
  cases (change.outcome table).1 with
  | error fault => rfl
  | ok a => rfl

/-- What is placed is one card more in the piles, and a card that does not exist is not placed. -/
theorem step_place (h : table.Orderly) (id : CardId) (zone : Zone) :
    Step table ((place id zone).after table) [] ((place id zone).placed table) := by
  have houtcome := outcome_silently (Table.place id zone) table
  rcases place_cases h id zone with ⟨fault, hplace⟩ | ⟨after, hplace, hlacks, horderly⟩
  · rw [hplace] at houtcome
    have hafter : (place id zone).after table = table := congrArg Prod.snd houtcome
    have hresult : ((place id zone).perform table).result = .error fault :=
      congrArg Prod.fst houtcome
    have hplaced : (place id zone).placed table = [] := by
      unfold placed
      rw [hresult]
    rw [hafter, hplaced]
    exact .refl h
  · rw [hplace] at houtcome
    have hafter : (place id zone).after table = after := congrArg Prod.snd houtcome
    have hresult : ((place id zone).perform table).result = .ok none := congrArg Prod.fst houtcome
    have hplaced : (place id zone).placed table = [id] := by
      unfold placed
      rw [hresult]
    rw [hafter, hplaced]
    refine ⟨horderly, hlacks.seats.symm, rfl, by rw [hlacks.nextId]; rfl, ?_⟩
    exact hlacks.pool.trans (List.perm_append_singleton id table.pool).symm

/-- Every operation takes an orderly table to an orderly table, with the cards in the piles that
were there and those that are placed. -/
theorem step (operation : Operation) (h : table.Orderly)
    (howner : ∀ owner ∈ operation.owner?, owner ∈ table.seats)
    (hsmall : table.nextId.number.toNat + (operation.created table).length < UInt32.size) :
    Step table (operation.after table) (operation.created table) (operation.placed table) := by
  rcases operation.careful_or with
    (⟨name, owner, rfl⟩ | ⟨card, rfl⟩ | ⟨card, rfl⟩ | ⟨id, zone, rfl⟩) |
      ⟨_, change, hcareful, hperform, hplaced⟩
  · exact Step.insertCard h (howner _ rfl) hsmall
  · exact Step.insertCard h (howner _ rfl) hsmall
  · -- a new card, which is placed at once
    have hinserted := Step.insertCard h (howner _ rfl) hsmall
    have howned : (table.insertCard card).2.owner? table.nextId = some card.owner := by
      rw [owner?_insertCard, if_pos rfl]
    refine ⟨hinserted.orderly.addPermanent howned, rfl, rfl, hinserted.next, ?_⟩
    have hpool : (createPermanent card).placed table = [table.nextId] := rfl
    rw [hpool, pool_eq, pool_eq, List.append_assoc]
    show (table.battlefield.cards ++ [table.nextId] ++ table.zones.flatMap (·.2.cards)).Perm _
    rw [List.append_assoc]
    exact List.perm_append_comm.append_left _
  · rw [created_of_silently rfl]
    exact step_place h id zone
  · rw [hplaced, created_of_silently hperform]
    refine Step.of_shuffles h ?_
    have halong := hcareful.silently.shuffles table
    rw [← hperform] at halong
    exact halong

/-- An operation that fails has done nothing. -/
theorem atomic (operation : Operation) (h : table.Orderly) : operation.perform.Atomic table := by
  rcases operation.careful_or with
    (⟨name, owner, rfl⟩ | ⟨card, rfl⟩ | ⟨card, rfl⟩ | ⟨id, zone, rfl⟩) |
      ⟨_, change, hcareful, hperform, -⟩
  · exact Succeeds.atomic ⟨_, _, rfl⟩
  · exact Succeeds.atomic ⟨_, _, rfl⟩
  · exact Succeeds.atomic ⟨_, _, rfl⟩
  · have hplace : (Table.place id zone).Atomic table := by
      rcases place_cases h id zone with ⟨fault, hplace⟩ | ⟨after, hplace, -⟩
      · exact .of_unchanged (by rw [hplace])
      · exact Succeeds.atomic ⟨(), after, hplace⟩
    exact hplace.bind_succeeds fun _ after _ => ⟨none, after, rfl⟩
  · rw [hperform]
    exact hcareful.silently.atomic table h

end Operation

/-! ## Whole runs -/

theorem step_play {table : Table} (h : table.Orderly) {operations : List Operation}
    (howners : ∀ operation ∈ operations, ∀ owner ∈ operation.owner?, owner ∈ table.seats)
    (hsmall : table.nextId.number.toNat + (table.created operations).length < UInt32.size) :
    Step table (table.play operations) (table.created operations) (table.placements operations) := by
  induction operations generalizing table with
  | nil => exact .refl h
  | cons operation operations ih =>
    rw [created, List.length_append] at hsmall
    have hfirst := operation.step h (howners operation List.mem_cons_self) (by omega)
    refine hfirst.trans (ih hfirst.orderly (fun other hother => ?_) ?_)
    · rw [hfirst.seats]
      exact howners other (List.mem_cons_of_mem operation hother)
    · rw [hfirst.next]
      omega

theorem seats_seat (names : List String) (life : Int32) :
    (seat names life).seats = (List.range names.length).map fun i => ⟨UInt32.ofNat (i + 1)⟩ := by
  unfold seats seat
  dsimp only
  rw [List.map_map]
  exact List.map_fst_zip (by simp)

/-- The seats are the numbers from 1 on. -/
theorem numbers_seat {names : List String} (life : Int32) (h : names.length + 2 < UInt32.size) :
    (seat names life).seats.map (·.number.toNat) = List.range' 1 names.length := by
  have hsize : UInt32.size = 4294967296 := rfl
  rw [seats_seat, List.map_map, List.range'_eq_map_range]
  refine List.map_congr_left fun i hi => ?_
  have hi : i < names.length := List.mem_range.mp hi
  simp only [Function.comp, UInt32.toNat_ofNat']
  rw [Nat.mod_eq_of_lt (by omega), Nat.add_comm]

theorem orderly_seat {names : List String} (life : Int32) (h : names.length + 2 < UInt32.size) :
    (seat names life).Orderly where
  keys := by
    rw [seats_seat]
    unfold seat
    dsimp only
    rw [List.map_map]
    exact List.map_id _
  distinct := by
    refine List.Nodup.of_map (·.number.toNat) ?_
    rw [numbers_seat life h]
    exact List.nodup_range'
  owned entry hentry id hid := by
    obtain ⟨player, -, rfl⟩ := List.mem_map.mp hentry
    exact absurd hid List.not_mem_nil
  field id hid := absurd hid List.not_mem_nil
  seated id owner howner := by simp [owner?, seat, card?, Store.get?] at howner
  below id owner howner := by simp [owner?, seat, card?, Store.get?] at howner

theorem pool_seat (names : List String) (life : Int32) : (seat names life).pool = [] := by
  rw [pool_eq]
  refine List.flatMap_eq_nil_iff.mpr fun entry hentry => ?_
  obtain ⟨player, -, rfl⟩ := List.mem_map.mp hentry
  rfl

/-- A card that occurs once in some piles occurs in one of them. -/
theorem exists_pile {piles : List Pile} {id : CardId}
    (h : (piles.flatMap (·.cards)).count id = 1) :
    ∃ front pile back, piles = front ++ pile :: back ∧ pile.cards.count id = 1 ∧
      ∀ other ∈ front ++ back, id ∉ other.cards := by
  induction piles with
  | nil => simp at h
  | cons pile piles ih =>
    rw [List.flatMap_cons, List.count_append] at h
    by_cases hmem : id ∈ pile.cards
    · have hpos : 0 < pile.cards.count id := List.count_pos_iff.mpr hmem
      have hnone : (piles.flatMap (·.cards)).count id = 0 := by omega
      refine ⟨[], pile, piles, rfl, by omega, fun other hother hid => ?_⟩
      exact List.count_eq_zero.mp hnone (List.mem_flatMap.mpr ⟨other, hother, hid⟩)
    · rw [List.count_eq_zero.mpr hmem, Nat.zero_add] at h
      obtain ⟨front, only, back, rfl, hcount, hothers⟩ := ih h
      refine ⟨pile :: front, only, back, rfl, hcount, fun other hother => ?_⟩
      rcases List.mem_cons.mp hother with rfl | hother
      · exact hmem
      · exact hothers other hother

/-- Conservation of cards. Whatever is asked of a table, from its setup on, as long as cards are
created for seated owners and numbers do not overflow: players, battlefield and cards have different
numbers; the piles hold exactly the cards that were placed; a card that was placed once lies in
exactly one pile, exactly once; what lies in a player's piles is owned by that player; and the next
operation, if it fails, changes nothing. -/
theorem cards_conserved (names : List String) (life : Int32) (operations : List Operation)
    (howners : ∀ operation ∈ operations, ∀ owner ∈ operation.owner?,
      owner ∈ (seat names life).seats)
    (hsmall : names.length + 2 + ((seat names life).created operations).length < UInt32.size) :
    let start := seat names life
    let table := start.play operations
    (start.seats ++ start.battlefield.owner :: start.created operations).Nodup ∧
      table.pool.Perm (start.placements operations) ∧
      (∀ id, (start.placements operations).count id = 1 →
        ∃ front pile back, table.piles = front ++ pile :: back ∧ pile.cards.count id = 1 ∧
          ∀ other ∈ front ++ back, id ∉ other.cards) ∧
      (∀ player zones, table.zones? player = some zones → ∀ id ∈ zones.cards,
        ∃ card, table.card? id = some card ∧ card.owner = player) ∧
      ∀ (operation : Operation) (fault : Fault),
        (operation.perform table).result = .error fault → operation.after table = table := by
  intro start table
  have hnames : names.length + 2 < UInt32.size := by omega
  have hfield : start.battlefield.owner.number.toNat = names.length + 1 := by
    show (UInt32.ofNat (names.length + 1)).toNat = _
    have hsize : UInt32.size = 4294967296 := rfl
    rw [UInt32.toNat_ofNat', Nat.mod_eq_of_lt (by omega)]
  have hnext : start.nextId.number.toNat = names.length + 2 := by
    show start.battlefield.owner.next.number.toNat = _
    rw [toNat_next (by omega), hfield]
  have hstep : Step start table (start.created operations) (start.placements operations) :=
    step_play (orderly_seat life hnames) howners (by rw [hnext]; exact hsmall)
  have hpool : table.pool.Perm (start.placements operations) := by
    have hplaced := hstep.pool
    rwa [pool_seat names life, List.nil_append] at hplaced
  refine ⟨?_, hpool, fun id hid => ?_, ?_, ?_⟩
  · refine List.Nodup.of_map (·.number.toNat) ?_
    have hrange (k : Nat) : (names.length + 1) :: List.range' (names.length + 2) k =
        List.range' (1 + names.length) (k + 1) := by
      rw [List.range'_succ, Nat.add_comm 1]
    rw [List.map_append, List.map_cons, numbers_seat life hnames, hfield, hstep.numbers, hnext,
      hrange, List.range'_append_1]
    exact List.nodup_range'
  · exact exists_pile ((hpool.count_eq id).trans hid)
  · intro player zones hzones id hid
    have howner := hstep.orderly.owned_of_zones hzones id hid
    exact Option.map_eq_some_iff.mp howner
  · intro operation fault hfail
    exact operation.atomic hstep.orderly fault _ (Prod.ext hfail rfl)

/-- A card is drawn, another one is taken over and sacrificed, and a move from the wrong zone fails. -/
def takenOver : List Operation :=
  [.create "C" ⟨1⟩, .place ⟨4⟩ .library, .createPermanent (.blank ⟨0⟩ "D" ⟨2⟩), .control ⟨5⟩ ⟨1⟩,
    .draw ⟨1⟩ 3, .sacrifice ⟨5⟩, .move ⟨4⟩ .exile .graveyard]

/-- Each card lies in one pile, and the one that was taken over is back with its owner. -/
theorem cards_conserved_takenOver :
    (seat ["A", "B"] 20).created takenOver = [⟨4⟩, ⟨5⟩] ∧
      (seat ["A", "B"] 20).placements takenOver = [⟨4⟩, ⟨5⟩] ∧
      (((seat ["A", "B"] 20).play takenOver).zones?
        ⟨2⟩).map (·.graveyard.cards) = some [⟨5⟩] ∧
      ∃ front pile back, ((seat ["A", "B"] 20).play takenOver).piles = front ++ pile :: back ∧
        pile.cards.count ⟨5⟩ = 1 ∧ ∀ other ∈ front ++ back, ⟨5⟩ ∉ other.cards := by
  have howners : ∀ operation ∈ takenOver, ∀ owner ∈ operation.owner?,
      owner ∈ (seat ["A", "B"] 20).seats := by decide
  obtain ⟨-, -, hpile, -, -⟩ := cards_conserved ["A", "B"] 20 takenOver howners (by decide)
  exact ⟨by decide, by decide, by decide, hpile ⟨5⟩ (by decide)⟩

end CardRules.Table
