import CardRules.Proofs.Table.Conservation
import CardRules.Proofs.Table.TurnEnd

/-!
# What the battlefield adds stays on the battlefield

A card that leaves the battlefield leaves behind that it was tapped, its damage, its changes and whoever had
taken control of it, but it does so as the last thing of a move, when it has been put down already. So this holds
only where nothing stops a move halfway, and a table is tidy if every owner of a card has piles besides
(`Table.Tidy`).

Whatever is done to a card, it is either on the battlefield afterwards, or it was not there before and is as it
was, or it is freshly cleaned (`Sweeps`). That keeps a tidy table tidy, so no run from the setup on leaves a
trace of the battlefield elsewhere (`off_battlefield_clean`).
-/

set_option autoImplicit false

namespace CardRules

theorem Card.leaveBattlefield_eq_self_iff (card : Card) :
    card.leaveBattlefield = card ↔
      card.tapped = false ∧ card.damage = 0 ∧ card.modifiers = [] ∧ card.controller = card.owner := by
  obtain ⟨id, name, manaCost, types, subtypes, colors, power, toughness, text, owner, controller,
    tapped, keywords, modifiers, damage⟩ := card
  simp only [leaveBattlefield, mk.injEq]
  grind

namespace Table

open Act

/-- Every player and every owner of a card has piles, and a card that is not on the battlefield has nothing of
what the battlefield adds. -/
structure Tidy (table : Table) : Prop where
  seated : table.Seated
  homes (id : CardId) (card : Card) (hcard : table.card? id = some card) :
    (table.zones? card.owner).isSome = true
  clean (id : CardId) (card : Card) (hcard : table.card? id = some card)
    (hoff : id ∉ table.battlefield.cards) : card.leaveBattlefield = card

/-- The same players with piles and the same owners; and a card that is off the battlefield is one that was
so before and is the same, or is cleaned. -/
structure Sweeps (before after : Table) : Prop where
  seats : after.seats = before.seats
  piles (player : PlayerId) : (after.zones? player).isSome = (before.zones? player).isSome
  owners (id : CardId) : after.owner? id = before.owner? id
  off (id : CardId) (hoff : id ∉ after.battlefield.cards) :
    (id ∉ before.battlefield.cards ∧ after.card? id = before.card? id) ∨
      after.card? id = (before.card? id).map Card.leaveBattlefield

/-- A tidy table stays tidy, with the same players. -/
def Tidies (before after : Table) : Prop := before.Tidy → after.Tidy ∧ after.seats = before.seats

instance : Std.Refl Tidies := ⟨fun _ h => ⟨h, rfl⟩⟩

instance : IsTrans Table Tidies where
  trans _ _ _ hab hbc ha := by
    obtain ⟨hb, hseats⟩ := hab ha
    obtain ⟨hc, hseats'⟩ := hbc hb
    exact ⟨hc, hseats'.trans hseats⟩

variable {table before after taken : Table} {id : CardId} {owner : PlayerId} {source target : Zone}

theorem Sweeps.tidies (h : Sweeps before after) : Tidies before after := by
  intro htidy
  refine ⟨⟨fun player hplayer => ?_, fun id card hcard => ?_, fun id card hcard hoff => ?_⟩, h.seats⟩
  · rw [h.piles]
    exact htidy.seated player (h.seats ▸ hplayer)
  · have howner : before.owner? id = some card.owner := by
      rw [← h.owners, owner?, hcard]
      rfl
    obtain ⟨former, hformer, hsame⟩ := Option.map_eq_some_iff.mp howner
    rw [h.piles, ← hsame]
    exact htidy.homes id former hformer
  · rcases h.off id hoff with ⟨hoff, hsame⟩ | hcleaned
    · exact htidy.clean id card (hsame.symm.trans hcard) hoff
    · rw [hcard] at hcleaned
      obtain ⟨former, -, rfl⟩ := Option.map_eq_some_iff.mp hcleaned.symm
      rfl

/-! ## Single changes -/

theorem sweeps_of_quiet (h : Quiet before after) : Sweeps before after where
  seats := h.seats
  piles := h.piles
  owners := h.keeps.owners
  off id hoff := by
    rw [h.battlefield] at hoff
    exact .inl ⟨hoff, h.off id (by simpa [onBattlefield, Pile.contains] using hoff)⟩

theorem sweeps_putDown (table : Table) (id : CardId) (owner : PlayerId) (zone : Zone) :
    Sweeps table (table.putDown id owner zone) where
  seats := seats_putDown table id owner zone
  piles := piles_putDown table id owner zone
  owners key := by rw [owner?, card?_putDown, owner?]
  off key hoff := .inl ⟨mt mem_battlefield_putDown hoff, card?_putDown table id key owner zone⟩

/-- A card that was taken up and put down is cleaned if it was on the battlefield. -/
theorem sweeps_moved (h : table.TakenUp id owner source taken) :
    Sweeps table ((taken.putDown id owner target).afterLeaving id source) := by
  have hput := sweeps_putDown taken id owner target
  cases h with
  | field hfield =>
    have hcard (key : CardId) :
        (((table.lift id).putDown id owner target).updateCard id Card.leaveBattlefield).card? key =
          if key = id then (table.card? key).map Card.leaveBattlefield else table.card? key := by
      rw [card?_updateCard, card?_putDown]
      rfl
    refine ⟨hput.seats, hput.piles, fun key => ?_, fun key hoff => ?_⟩
    · have hleave := owner?_updateCard ((table.lift id).putDown id owner target) id key
        (f := Card.leaveBattlefield) fun _ => rfl
      exact hleave.trans (hput.owners key)
    · by_cases hkey : key = id
      · exact .inr ((hcard key).trans (if_pos hkey))
      · refine .inl ⟨fun hmem => hoff ?_, (hcard key).trans (if_neg hkey)⟩
        exact mem_battlefield_putDown ((List.mem_erase_of_ne hkey).mpr hmem)
  | @pile _ _ rest hzone =>
    have hkeeps := keeps_updateZones table owner fun _ => rest
    rw [afterLeaving, if_neg hzone]
    exact ⟨hput.seats, fun player => (hput.piles player).trans (hkeeps.piles player), hput.owners,
      hput.off⟩

theorem sweeps_advanceStep (table : Table) : Sweeps table table.advanceStep.2 where
  seats := rfl
  piles _ := rfl
  owners id := by
    rw [owner?, card?_advanceStep]
    split
    · rw [Option.map_map]
      rfl
    · rfl
  off id hoff := .inl ⟨hoff, (card?_advanceStep table id).trans (if_neg hoff)⟩

theorem sweeps_setStep (table : Table) (step : CardRules.Step) : Sweeps table (table.setStep step) :=
  ⟨rfl, fun _ => rfl, fun _ => rfl, fun _ hoff => .inl ⟨hoff, rfl⟩⟩

theorem sweeps_nextTurn (table : Table) : Sweeps table table.nextTurn := by
  unfold nextTurn
  split
  · exact ⟨rfl, fun _ => rfl, fun _ => rfl, fun _ hoff => .inl ⟨hoff, rfl⟩⟩
  · exact ⟨seats_emptyPools table, fun _ => rfl, fun _ => rfl, fun _ hoff => .inl ⟨hoff, rfl⟩⟩

/-- A new card may come to the battlefield as it is, and elsewhere it has to be clean. -/
theorem Tidy.insertCard (h : table.Tidy) {card : Card} {battlefield : Pile}
    (howner : card.owner ∈ table.seats)
    (hfield : ∀ key ∈ table.battlefield.cards, key ∈ battlefield.cards)
    (hnew : table.nextId ∈ battlefield.cards ∨ card.leaveBattlefield = card) :
    Tidy { (table.insertCard card).2 with battlefield } := by
  have hcard (key : CardId) :
      ({ (table.insertCard card).2 with battlefield } : Table).card? key =
        if key = table.nextId then some { card with id := table.nextId } else table.card? key :=
    Store.get?_insert table.cards table.nextId key _
  refine ⟨h.seated, fun key found hfound => ?_, fun key found hfound hoff => ?_⟩
  · rw [hcard] at hfound
    split at hfound
    · obtain rfl := Option.some.inj hfound
      exact h.seated card.owner howner
    · exact h.homes key found hfound
  · rw [hcard] at hfound
    split at hfound
    · rename_i hkey
      obtain rfl := Option.some.inj hfound
      rw [hkey] at hoff
      have hclean := hnew.resolve_left hoff
      exact congrArg (fun card : Card => { card with id := table.nextId }) hclean
    · exact h.clean key found hfound fun hmem => hoff (hfield key hmem)

/-! ## Operations -/

theorem along_tidies_of_quiet {α : Type} {change : Change α} (h : Along Quiet change) :
    Along Tidies change :=
  fun table => (sweeps_of_quiet (h table)).tidies

/-- No move at a tidy table is stopped halfway. -/
theorem along_tidies_move (id : CardId) (source target : Zone) :
    Along Tidies (move id source target) := by
  intro table htidy
  rcases outcome_move_cases table id source target with
    ⟨fault, hfail⟩ | ⟨owner, hstrands⟩ | ⟨card, taken, -, htaken, hdone⟩
  · rw [hfail]
    exact ⟨htidy, rfl⟩
  · exact absurd hstrands (not_strands_of_piles htidy.homes)
  · rw [hdone]
    exact (sweeps_moved htaken).tidies htidy

theorem along_tidies_place (id : CardId) (zone : Zone) : Along Tidies (place id zone) := by
  intro table
  cases hcard : table.card? id with
  | none =>
    unfold place
    rw [outcome_bind_error (outcome_requireCard_none hcard)]
    exact Std.Refl.refl table
  | some card =>
    rw [outcome_place_eq hcard]
    split
    · exact (sweeps_putDown table id card.owner zone).tidies
    · exact Std.Refl.refl table

namespace Operation

/-- Whether the operation brings cards in clean or onto the battlefield, and lets nobody take a card over. -/
def entersClean : Operation → Bool
  | insert card => card.leaveBattlefield = card
  | control _ _ => false
  | _ => true

theorem tidies {operation : Operation} (hclean : operation.entersClean = true)
    (howner : ∀ owner ∈ operation.owner?, owner ∈ table.seats) :
    Tidies table (operation.after table) := by
  have hquiet {α : Type} {change : Change α} (h : Along Quiet change) :
      Along Tidies (silently change) := (along_tidies_of_quiet h).map _
  cases operation with
  | create name owner =>
    exact fun h => ⟨h.insertCard (howner _ rfl) (fun _ hkey => hkey) (.inr rfl), rfl⟩
  | insert card =>
    exact fun h =>
      ⟨h.insertCard (howner _ rfl) (fun _ hkey => hkey) (.inr (of_decide_eq_true hclean)), rfl⟩
  | createPermanent card =>
    refine fun h => ⟨h.insertCard (howner _ rfl) (fun key hkey => ?_) (.inl ?_), rfl⟩
    · exact List.mem_append_left _ hkey
    · exact List.mem_append_right _ List.mem_cons_self
  | place id zone => exact (along_tidies_place id zone).map _ table
  | move id source target => exact (along_tidies_move id source target).map _ table
  | sacrifice id => exact (along_sacrifice (along_tidies_move id _ _)).map _ table
  | destroy id => exact (along_destroy (along_tidies_move id _ _)).map _ table
  | buryDying => exact (along_buryDying fun id => along_tidies_move id _ _).map _ table
  | setStep step => exact (sweeps_setStep table step).tidies
  | advanceStep => exact (sweeps_advanceStep table).tidies
  | nextTurn => exact (sweeps_nextTurn table).tidies
  | draw player count => exact hquiet (quiet_frame.along_draw player count) table
  | mill player count => exact hquiet (quiet_frame.along_mill player count) table
  | discard player count => exact hquiet (quiet_frame.along_discard player count) table
  | pay player cost => exact hquiet (quiet_frame.along_pay player cost) table
  | tap id => exact hquiet (quiet_frame.along_tap id) table
  | untap id => exact hquiet (quiet_frame.along_untap id) table
  | addMana player color amount =>
    exact hquiet (quiet_frame.along_addMana player color amount) table
  | damage target amount source =>
    exact hquiet (quiet_frame.along_damage target amount source) table
  | gainLife player amount => exact hquiet (quiet_frame.along_gainLife player amount) table
  | loseLife player amount => exact hquiet (quiet_frame.along_loseLife player amount) table
  | pump id power toughness duration =>
    exact hquiet (quiet_frame.along_pump id power toughness duration) table
  | control id player => cases hclean

end Operation

/-! ## Whole runs -/

theorem tidy_seat (names : List String) (life : Int32) : (seat names life).Tidy where
  seated := seated_seat names life
  homes id card hcard := by simp [seat, card?, Store.get?] at hcard
  clean id card hcard := by simp [seat, card?, Store.get?] at hcard

theorem tidies_play {operations : List Operation}
    (hclean : ∀ operation ∈ operations, operation.entersClean = true)
    (howners : ∀ operation ∈ operations, ∀ owner ∈ operation.owner?, owner ∈ table.seats) :
    Tidies table (table.play operations) := by
  induction operations generalizing table with
  | nil => exact Std.Refl.refl table
  | cons operation operations ih =>
    intro h
    have hfirst := List.forall_mem_cons.mp hclean
    obtain ⟨hafter, hseats⟩ := Operation.tidies hfirst.1 (howners operation List.mem_cons_self) h
    obtain ⟨hrest, hseats'⟩ := ih hfirst.2 (fun other hother => by
      rw [hseats]
      exact howners other (List.mem_cons_of_mem operation hother)) hafter
    exact ⟨hrest, hseats'.trans hseats⟩

/-- What is no permanent cannot be changed. -/
theorem changePermanent_off (hoff : id ∉ table.battlefield.cards) (f : Card → Card) :
    changePermanent id f table = { result := .error (.unknownEntity id), state := table } := by
  have hfield : ¬table.onBattlefield id = true := mt List.contains_iff_mem.mp hoff
  have hrequire : requirePermanent id table = ⟨.error (.unknownEntity id), table, []⟩ := by
    unfold requirePermanent
    rw [get_bind_run, if_neg hfield]
    rfl
  exact bind_run_error hrequire _

/-- What the battlefield adds stays on the battlefield. Whatever is asked of a table, from its setup on, as long
as cards are created for seated owners, come in clean or onto the battlefield, and are taken over by nobody: a
card that is not on the battlefield is untapped, undamaged, unchanged and under its owner's control. And from
every table at all, tapping, untapping, changing or damaging what is not on the battlefield is refused, changes
nothing and reports nothing. -/
theorem off_battlefield_clean (names : List String) (life : Int32) (operations : List Operation)
    (howners : ∀ operation ∈ operations, ∀ owner ∈ operation.owner?,
      owner ∈ (seat names life).seats)
    (hclean : ∀ operation ∈ operations, operation.entersClean = true) :
    let table := (seat names life).play operations
    (∀ id card, table.card? id = some card → id ∉ table.battlefield.cards →
      card.tapped = false ∧ card.damage = 0 ∧ card.modifiers = [] ∧ card.controller = card.owner) ∧
      ∀ (other : Table) (id : CardId), id ∉ other.battlefield.cards →
        tap id other = { result := .error (.unknownEntity id), state := other } ∧
        untap id other = { result := .error (.unknownEntity id), state := other } ∧
        (∀ power toughness duration, pump id power toughness duration other =
          { result := .error (.unknownEntity id), state := other }) ∧
        ∀ amount source, damage (.permanent id) amount source other =
          { result := .error (.unknownEntity id), state := other } := by
  intro table
  obtain ⟨htidy, -⟩ := tidies_play hclean howners (tidy_seat names life)
  refine ⟨fun id card hcard hoff => ?_, fun other id hoff => ⟨?_, ?_, fun _ _ _ => ?_, fun _ _ => ?_⟩⟩
  · exact (Card.leaveBattlefield_eq_self_iff card).mp (htidy.clean id card hcard hoff)
  · exact changePermanent_off hoff _
  · exact changePermanent_off hoff _
  · exact changePermanent_off hoff _
  · exact bind_run_error (changePermanent_off hoff _) _

/-- A permanent comes in tapped and under another player's control, is damaged and changed, and is destroyed; a
second one stays; and a card is drawn and discarded. -/
def brawl : List Operation :=
  [.createPermanent { Card.blank ⟨0⟩ "Bear" ⟨2⟩ with controller := ⟨1⟩, tapped := true },
    .createPermanent (.blank ⟨0⟩ "Wall" ⟨1⟩), .create "Spell" ⟨1⟩, .place ⟨6⟩ .library,
    .damage (.permanent ⟨4⟩) 3 ⟨5⟩, .pump ⟨4⟩ 1 1 .permanent, .tap ⟨5⟩, .destroy ⟨4⟩, .draw ⟨1⟩ 2,
    .discard ⟨1⟩ 1, .pump ⟨4⟩ 1 1 .permanent, .advanceStep]

theorem off_battlefield_clean_brawl :
    let table := (seat ["A", "B"] 20).play brawl
    (table.card? ⟨5⟩).map (·.tapped) = some true ∧
      (∃ card, table.card? ⟨4⟩ = some card ∧ card.tapped = false ∧ card.damage = 0 ∧
        card.modifiers = [] ∧ card.controller = ⟨2⟩) ∧
      pump ⟨4⟩ 1 1 .permanent table = { result := .error (.unknownEntity ⟨4⟩), state := table } := by
  intro table
  obtain ⟨hclean, hrefused⟩ := off_battlefield_clean ["A", "B"] 20 brawl (by decide) (by decide)
  have hoff : ⟨4⟩ ∉ table.battlefield.cards := by decide
  obtain ⟨card, hcard⟩ : ∃ card, table.card? ⟨4⟩ = some card :=
    Option.isSome_iff_exists.mp (by decide)
  obtain ⟨htapped, hdamage, hmodifiers, hcontroller⟩ := hclean ⟨4⟩ card hcard hoff
  have howner : (table.card? ⟨4⟩).map (·.owner) = some ⟨2⟩ := by decide
  rw [hcard] at howner
  refine ⟨by decide, ⟨card, hcard, htapped, hdamage, hmodifiers, ?_⟩, ?_⟩
  · exact hcontroller.trans (Option.some.inj howner)
  · exact (hrefused table ⟨4⟩ hoff).2.2.1 1 1 .permanent

end Table

end CardRules
