import CardRules.Proofs.Table.Keeps
import CardRules.Proofs.Table.Orderly

/-!
# The dead are buried

Who has to die is read off the table first, and then they are buried one after the other. A burial leaves
every other card as it is, so the whole of them comes to one change (`Table.Buried`): the dead leave the
battlefield, each for its owner's graveyard, in the order in which they lay there. What stays is as it was, so
nobody has to die after it (`buryDying_idempotent`).

Whoever has to die is called a creature, but it is the toughness that counts and not the type
(`Card.Doomed`). `buryDying_exact` says who dies and what becomes of the table, and when these are creatures
only.
-/

set_option autoImplicit false

namespace CardRules

/-- Toughness is gone, or damage reaches it and the card is not indestructible. -/
def Card.Doomed (card : Card) : Prop :=
  ∃ toughness, card.currentToughness = some toughness ∧
    (toughness ≤ 0 ∨ toughness ≤ card.damage.toInt ∧ Keyword.indestructible ∉ card.keywords)

/-- A player's piles with cards put into the graveyard one after the other. -/
def PlayerZones.entomb (zones : PlayerZones) (ids : List CardId) : PlayerZones :=
  { zones with graveyard := zones.graveyard.addAll ids }

theorem PlayerZones.entomb_nil (zones : PlayerZones) : zones.entomb [] = zones := by
  rw [entomb, Pile.addAll, List.append_nil]

theorem PlayerZones.entomb_append (zones : PlayerZones) (ids more : List CardId) :
    zones.entomb (ids ++ more) = (zones.entomb ids).entomb more := by
  simp only [entomb, Pile.addAll, List.append_assoc]

namespace Table

open Act

variable {table after : Table} {id : CardId}

theorem isDying_eq_true_iff {card : Card} : isDying card = true ↔ card.Doomed := by
  unfold isDying Card.Doomed
  cases card.currentToughness with
  | none => simp
  | some toughness => simp [Card.hasKeyword]

theorem mem_dying_iff :
    id ∈ table.dying ↔
      id ∈ table.battlefield.cards ∧ ∃ card, table.card? id = some card ∧ card.Doomed := by
  simp only [dying, List.mem_filter, Option.any_eq_true, isDying_eq_true_iff]

/-! ## One burial -/

/-- A permanent is buried, and the table hears of it. -/
def die (id : CardId) : Change Unit := do
  move id .battlefield .graveyard
  report (.normal ((← Act.get).cardName id ++ " died"))

theorem outcome_die (table : Table) (id : CardId) :
    (die id).outcome table = (move id .battlefield .graveyard).outcome table :=
  outcome_bind_report _ _ table

/-- Exactly what lies on the battlefield and has an owner with piles can be buried. -/
theorem outcome_die_eq_ok :
    (die id).outcome table = (.ok (), after) ↔
      ∃ card, table.permanent? id = some card ∧ (table.zones? card.owner).isSome = true ∧
        after = table.bury id card.owner := by
  rw [outcome_die]
  cases hcard : table.permanent? id with
  | none =>
    rw [outcome_bury_absent hcard]
    simp
  | some card =>
    obtain ⟨hfield, hthere⟩ := permanent?_eq_some_iff.mp hcard
    cases howner : table.zones? card.owner with
    | none =>
      rw [outcome_bury_none hfield hthere howner]
      simp [howner]
    | some zones =>
      have hzones : (table.zones? card.owner).isSome = true := Option.isSome_of_eq_some howner
      rw [outcome_bury hfield hthere hzones]
      constructor
      · intro h
        exact ⟨card, rfl, hzones, (Prod.mk.inj h).2.symm⟩
      · rintro ⟨other, hother, -, rfl⟩
        rw [Option.some.inj hother]

/-! ## Burials one after the other -/

/-- What burying cards one after the other comes to. -/
structure Buried (before after : Table) (ids : List CardId) : Prop where
  battlefield : after.battlefield =
    { before.battlefield with cards := before.battlefield.cards.diff ids }
  cards (id : CardId) : after.card? id =
    if id ∈ ids then (before.card? id).map Card.leaveBattlefield else before.card? id
  zones (player : PlayerId) : after.zones? player =
    (before.zones? player).map (·.entomb (ids.filter fun id => before.owner? id == some player))
  players : after.players = before.players
  turn : after.turn = before.turn
  nextId : after.nextId = before.nextId

namespace Buried

variable {before between : Table} {ids more : List CardId}

theorem owner?_eq (h : Buried before after ids) (id : CardId) : after.owner? id = before.owner? id := by
  rw [owner?, owner?, h.cards]
  split
  · rw [Option.map_map]
    rfl
  · rfl

protected theorem nil (table : Table) : Buried table table [] where
  battlefield := rfl
  cards _ := rfl
  zones player := by
    rw [List.filter_nil, funext PlayerZones.entomb_nil]
    exact Option.map_id'.symm
  players := rfl
  turn := rfl
  nextId := rfl

theorem bury {card : Card} (hcard : table.card? id = some card) :
    Buried table (table.bury id card.owner) [id] where
  battlefield := by rw [List.diff_cons, List.diff_nil]; rfl
  cards key := by
    rw [card?_bury]
    simp only [List.mem_singleton]
  zones player := by
    have howner : table.owner? id = some card.owner := by rw [owner?, hcard, Option.map_some]
    have hzones : (table.bury id card.owner).zones? player =
        if player = card.owner then (table.zones? player).map (·.add .graveyard id)
        else table.zones? player :=
      zones?_updateZones (table.lift id) card.owner player (·.add .graveyard id)
    rw [hzones]
    by_cases hplayer : player = card.owner
    · have hown : [id].filter (fun id => table.owner? id == some player) = [id] := by
        simp [howner, hplayer]
      rw [if_pos hplayer, hown]
      rfl
    · have hother : [id].filter (fun id => table.owner? id == some player) = [] := by
        simp [howner, Ne.symm hplayer]
      rw [if_neg hplayer, hother, funext PlayerZones.entomb_nil]
      exact Option.map_id'.symm
  players := rfl
  turn := rfl
  nextId := rfl

theorem append (h : Buried before between ids) (hmore : Buried between after more) :
    Buried before after (ids ++ more) where
  battlefield := by rw [hmore.battlefield, h.battlefield, List.diff_append]
  cards id := by
    rw [hmore.cards, h.cards]
    by_cases hid : id ∈ ids
    · rw [if_pos hid, if_pos (List.mem_append_left more hid), Option.map_map]
      split
      · rfl
      · rfl
    · rw [if_neg hid]
      simp only [List.mem_append, hid, false_or]
  zones player := by
    have howner : (fun id => between.owner? id == some player) =
        fun id => before.owner? id == some player := by
      funext id
      rw [h.owner?_eq]
    rw [hmore.zones, h.zones, howner, Option.map_map, List.filter_append]
    exact congrArg (fun f => (before.zones? player).map f)
      (funext fun zones => (PlayerZones.entomb_append zones _ _).symm)
  players := hmore.players.trans h.players
  turn := hmore.turn.trans h.turn
  nextId := hmore.nextId.trans h.nextId

end Buried

/-- A burial after others buries one card more. -/
theorem buried_of_outcome {ids : List CardId}
    (h : (ids.forM die).outcome table = (.ok (), after)) : Buried table after ids := by
  induction ids generalizing table with
  | nil =>
    obtain rfl : table = after := (Prod.mk.inj h).2
    exact .nil table
  | cons id ids ih =>
    rw [outcome_forM_cons] at h
    obtain ⟨_, between, hdie, hrest⟩ := outcome_bind_eq_ok.mp h
    obtain ⟨card, hcard, -, rfl⟩ := outcome_die_eq_ok.mp hdie
    exact (Buried.bury (permanent?_eq_some_iff.mp hcard).2).append (ih hrest)

theorem Orderly.sound (h : table.Orderly) : table.Sound := by
  intro id hid
  obtain ⟨card, hcard⟩ := h.card_of_mem_pool (by rw [pool_eq]; exact List.mem_append_left _ hid)
  exact ⟨card, hcard, h.owner_zones hcard⟩

/-- Cards that lie on the battlefield of a sound table can all be buried. -/
theorem succeeds_forM_die {ids : List CardId} (h : table.Sound)
    (hfield : ids.Subperm table.battlefield.cards) : (ids.forM die).Succeeds table := by
  induction ids generalizing table with
  | nil => exact ⟨(), table, rfl⟩
  | cons id ids ih =>
    have hmem : id ∈ table.battlefield.cards := hfield.subset List.mem_cons_self
    obtain ⟨card, hcard, howner⟩ := h.buriable (List.contains_iff_mem.mpr hmem)
    have hdie : (die id).outcome table = (.ok (), table.bury id card.owner) :=
      outcome_die_eq_ok.mpr ⟨card, hcard, howner, rfl⟩
    have hkeeps : Keeps table (table.bury id card.owner) := by
      have hmove := keeps_move id .battlefield (by decide : Zone.graveyard ≠ .battlefield) table
      rw [← outcome_die, hdie] at hmove
      exact hmove
    refine Succeeds.of_bind hdie (ih (h.of_keeps hkeeps) ?_)
    have hrest := hfield.erase id
    rwa [List.erase_cons_head] at hrest

/-! ## Everyone who has to die -/

/-- The answer is who had to die, and they were buried. -/
theorem outcome_buryDying_eq_ok {ids : List CardId} :
    buryDying.outcome table = (.ok ids, after) ↔
      ids = table.dying ∧ (table.dying.forM die).outcome table = (.ok (), after) := by
  show (table.dying.forM die >>= fun _ => pure table.dying : Change (List CardId)).outcome table =
    (.ok ids, after) ↔ _
  rw [outcome_bind_eq_ok]
  constructor
  · rintro ⟨_, between, hall, hpure⟩
    obtain ⟨hids, rfl⟩ := Prod.mk.inj hpure
    exact ⟨(Except.ok.inj hids).symm, hall⟩
  · rintro ⟨rfl, hall⟩
    exact ⟨(), after, hall, rfl⟩

/-- Without those that a test picks the others are left, in order, and however often they occur. -/
theorem diff_filter {α : Type} [DecidableEq α] (as : List α) (p : α → Bool) :
    as.diff (as.filter p) = as.filter fun a => !p a := by
  induction as with
  | nil => rfl
  | cons a as ih =>
    cases hp : p a with
    | true =>
      rw [List.filter_cons_of_pos hp, List.diff_cons, List.erase_cons_head, ih,
        List.filter_cons_of_neg (by simp [hp])]
    | false =>
      have hnot : a ∉ as.filter p := fun h => by simp [hp] at h
      rw [List.filter_cons_of_neg (by simp [hp]), List.cons_diff_of_not_mem hnot, ih,
        List.filter_cons_of_pos (by simp [hp])]

/-- Who is left does not have to die. -/
theorem Buried.dying_eq_nil (h : Buried table after table.dying) : after.dying = [] := by
  refine List.filter_eq_nil_iff.mpr fun id hid => ?_
  rw [h.battlefield, dying, diff_filter] at hid
  obtain ⟨hfield, hspared⟩ := List.mem_filter.mp hid
  rw [Bool.not_eq_true'] at hspared
  have halive : id ∉ table.dying := fun hdying => by
    rw [(List.mem_filter.mp hdying).2] at hspared
    exact Bool.false_ne_true hspared.symm
  rw [h.cards, if_neg halive, hspared]
  exact Bool.false_ne_true

/-- Once is enough. After everyone who had to die was buried, on whatever table, nobody has to: another
round buries nobody, changes nothing and reports nothing. -/
theorem buryDying_idempotent {ids : List CardId} (h : buryDying.outcome table = (.ok ids, after)) :
    buryDying after = { result := .ok [], state := after, events := [] } := by
  obtain ⟨-, hall⟩ := outcome_buryDying_eq_ok.mp h
  have hnobody : after.dying = [] := (buried_of_outcome hall).dying_eq_nil
  show (after.dying.forM die >>= fun _ => pure after.dying : Change (List CardId)) after = _
  rw [hnobody]
  rfl

/-- A creature that a change holds down, twice on the battlefield and under another player's control, and
one that is wounded to death and indestructible. -/
def sickbed : Table :=
  { Table.seat ["A", "B"] 20 with
    cards := { entries := [
      (⟨4⟩, { Card.blank ⟨4⟩ "Bear" ⟨2⟩ with
        controller := ⟨1⟩, types := [.creature], toughness := some 2, tapped := true
        modifiers := [⟨0, -2, .untilEndOfTurn⟩] }),
      (⟨5⟩, { Card.blank ⟨5⟩ "Colossus" ⟨1⟩ with
        types := [.creature], toughness := some 3, damage := 4, keywords := [.indestructible] })] }
    battlefield := { zone := .battlefield, owner := ⟨3⟩, cards := [⟨4⟩, ⟨5⟩, ⟨4⟩] } }

theorem buryDying_idempotent_sickbed :
    buryDying.outcome sickbed = (.ok [⟨4⟩, ⟨4⟩], (buryDying sickbed).state) ∧
      buryDying (buryDying sickbed).state =
        { result := .ok [], state := (buryDying sickbed).state, events := [] } := by
  have hout : buryDying.outcome sickbed = (.ok [⟨4⟩, ⟨4⟩], (buryDying sickbed).state) := by rfl
  exact ⟨hout, buryDying_idempotent hout⟩

/-- The creatures on the battlefield that have to die, in battlefield order. -/
def doomedCreatures (table : Table) : List CardId :=
  table.battlefield.cards.filter fun id =>
    (table.card? id).any fun card => card.isType .creature && isDying card

/-- Only creatures die exactly if nothing else has to. -/
theorem dying_eq_doomedCreatures_iff :
    table.dying = table.doomedCreatures ↔
      ∀ id ∈ table.battlefield.cards, ∀ card, table.card? id = some card → card.Doomed →
        card.isType .creature = true := by
  constructor
  · intro hsame id hid card hcard hdoomed
    have hmem : id ∈ table.dying := mem_dying_iff.mpr ⟨hid, card, hcard, hdoomed⟩
    rw [hsame] at hmem
    have hcreature := (List.mem_filter.mp hmem).2
    rw [hcard, Option.any_some, Bool.and_eq_true] at hcreature
    exact hcreature.1
  · intro hcreatures
    refine List.filter_congr fun id hid => ?_
    cases hcard : table.card? id with
    | none => rfl
    | some card =>
      rw [Option.any_some, Option.any_some]
      cases hdying : isDying card with
      | false => rw [Bool.and_false]
      | true =>
        rw [hcreatures id hid card hcard (isDying_eq_true_iff.mp hdying)]
        rfl

/-- Deaths, exactly. On every sound table the burial succeeds, and the dead are the doomed cards of the
battlefield, in the order in which they lie there and as often. Each of them is in its owner's graveyard
afterwards, untapped, undamaged, unchanged and under its owner's control. The others stay in their order. No
other card changes, no pile but the graveyards on which the dead are put in order, and nothing else at the
table. To be doomed takes a toughness and not the type: only creatures die exactly if every doomed permanent
is one. -/
theorem buryDying_exact (h : table.Sound) :
    ∃ (dies : CardId → Bool) (after : Table),
      (∀ id, dies id = true ↔ ∃ card, table.card? id = some card ∧ card.Doomed) ∧
      buryDying.outcome table = (.ok (table.battlefield.cards.filter dies), after) ∧
      after = { table with
        cards := after.cards
        zones := after.zones
        battlefield := { table.battlefield with
          cards := table.battlefield.cards.filter fun id => !dies id } } ∧
      (∀ id ∈ table.battlefield.cards, dies id = true → ∃ card zones,
        table.card? id = some card ∧
        after.card? id = some { card with
          tapped := false, damage := 0, modifiers := [], controller := card.owner } ∧
        after.zones? card.owner = some zones ∧ id ∈ zones.graveyard.cards) ∧
      (∀ id, id ∉ table.battlefield.cards ∨ dies id = false → after.card? id = table.card? id) ∧
      (∀ player, after.zones? player = (table.zones? player).map (·.entomb
        ((table.battlefield.cards.filter dies).filter fun id => table.owner? id == some player))) ∧
      (table.battlefield.cards.filter dies = table.doomedCreatures ↔
        ∀ id ∈ table.battlefield.cards, ∀ card, table.card? id = some card → card.Doomed →
          card.isType .creature = true) := by
  obtain ⟨_, after, hall⟩ := succeeds_forM_die h (List.filter_sublist.subperm : table.dying.Subperm _)
  have hout : buryDying.outcome table = (.ok table.dying, after) :=
    outcome_buryDying_eq_ok.mpr ⟨rfl, hall⟩
  have hburied : Buried table after table.dying := buried_of_outcome hall
  have hdies : ∀ id, (table.card? id).any isDying = true ↔
      ∃ card, table.card? id = some card ∧ card.Doomed := fun id => by
    simp only [Option.any_eq_true, isDying_eq_true_iff]
  refine ⟨fun id => (table.card? id).any isDying, after, hdies, hout, ?table, ?dead, ?others,
    hburied.zones, dying_eq_doomedCreatures_iff⟩
  case table =>
    have hfield := hburied.battlefield
    rw [dying, diff_filter] at hfield
    rw [← hfield, ← hburied.players, ← hburied.turn, ← hburied.nextId]
  case dead =>
    intro id hid hdying
    have hmem : id ∈ table.dying := List.mem_filter.mpr ⟨hid, hdying⟩
    obtain ⟨card, hcard, howner⟩ := h id hid
    obtain ⟨zones, hzones⟩ := Option.isSome_iff_exists.mp howner
    have hafter := hburied.cards id
    have hpiles := hburied.zones card.owner
    rw [if_pos hmem, hcard] at hafter
    rw [hzones] at hpiles
    refine ⟨card, _, hcard, hafter, hpiles, ?_⟩
    refine List.mem_append_right _ (List.mem_filter.mpr ⟨hmem, ?_⟩)
    rw [owner?, hcard]
    exact beq_self_eq_true _
  case others =>
    intro id hid
    rw [hburied.cards, if_neg]
    intro hmem
    obtain ⟨hfield, hdying⟩ := List.mem_filter.mp hmem
    rcases hid with hoff | hspared
    · exact hoff hfield
    · exact Bool.false_ne_true (hspared.symm.trans hdying)

theorem buryDying_exact_sickbed :
    sickbed.Sound ∧ ∃ after, buryDying.outcome sickbed = (.ok [⟨4⟩, ⟨4⟩], after) ∧
      after.battlefield.cards = [⟨5⟩] ∧ after.card? ⟨5⟩ = sickbed.card? ⟨5⟩ ∧
      (after.card? ⟨4⟩).map (fun card => (card.tapped, card.modifiers, card.controller)) =
        some (false, [], ⟨2⟩) ∧
      [⟨4⟩, ⟨4⟩] = sickbed.doomedCreatures := by
  have hsound : sickbed.Sound := by
    unfold Sound
    decide
  obtain ⟨dies, after, hdies, hout, htable, hdead, hothers, -, hcreatures⟩ := buryDying_exact hsound
  obtain rfl : dies = fun id => (sickbed.card? id).any isDying := by
    funext id
    rw [Bool.eq_iff_iff, hdies]
    simp only [Option.any_eq_true, isDying_eq_true_iff]
  have htypes : ∀ id ∈ sickbed.battlefield.cards,
      (sickbed.card? id).all (·.isType .creature) = true := by decide
  refine ⟨hsound, after, hout, ?_, hothers ⟨5⟩ (.inr (by decide)), ?_, ?_⟩
  · rw [htable]
    rfl
  · obtain ⟨card, zones, hcard, hafter, -⟩ := hdead ⟨4⟩ (by decide) (by decide)
    obtain rfl := Option.some.inj hcard
    rw [hafter]
    rfl
  · refine hcreatures.mpr fun id hid card hcard _ => ?_
    have hcreature := htypes id hid
    rwa [hcard, Option.all_some] at hcreature

/-- An artifact with a toughness, and damage that reaches it. -/
def wreck : Table :=
  { Table.seat ["A", "B"] 20 with
    cards := { entries := [(⟨4⟩, { Card.blank ⟨4⟩ "Skiff" ⟨1⟩ with
      types := [.artifact], toughness := some 2, damage := 2 })] }
    battlefield := { zone := .battlefield, owner := ⟨3⟩, cards := [⟨4⟩] } }

/-- It is no creature, and it dies. -/
theorem artifact_dies :
    wreck.Sound ∧ (wreck.card? ⟨4⟩).map (·.isType .creature) = some false ∧
      wreck.doomedCreatures = [] ∧ (buryDying wreck).result = .ok [⟨4⟩] ∧
      (buryDying wreck).state.battlefield.cards = [] ∧
      ((buryDying wreck).state.zones? ⟨1⟩).map (·.graveyard.cards) = some [⟨4⟩] := by
  refine ⟨?_, by decide, by decide, by rfl, by decide, by decide⟩
  unfold Sound
  decide

end Table

end CardRules
