import CardRules.Proofs.Table.Conservation
import CardRules.Proofs.Table.TurnEnd

/-!
# Cards under their own numbers

A card is looked up under a number and named by the number that it carries. The two are the same from
the setup on, whatever is done at a table (`filed_play`): a new card is given the number it is kept
under, and no change of a card touches it.
-/

set_option autoImplicit false

namespace CardRules.Table

open Act

/-- Every card is kept under its own number. -/
def Filed (table : Table) : Prop :=
  ∀ id card, table.card? id = some card → card.id = id

/-- A table where cards are filed stays one. -/
def Files (before after : Table) : Prop := before.Filed → after.Filed

instance : Std.Refl Files := ⟨fun _ h => h⟩

instance : IsTrans Table Files := ⟨fun _ _ _ hab hbc h => hbc (hab h)⟩

variable {table before after : Table}

theorem files_of_cards (h : ∀ id, after.card? id = before.card? id) : Files before after :=
  fun hfiled id card hcard => hfiled id card ((h id).symm.trans hcard)

theorem files_updateCard (table : Table) (id : CardId) {f : Card → Card}
    (hf : ∀ card, (f card).id = card.id) : Files table (table.updateCard id f) := by
  intro hfiled key card hcard
  rw [card?_updateCard] at hcard
  split at hcard
  · obtain ⟨former, hformer, rfl⟩ := Option.map_eq_some_iff.mp hcard
    rw [hf, hfiled key former hformer]
  · exact hfiled key card hcard

theorem Filed.insertCard (h : table.Filed) (card : Card) (battlefield : Pile) :
    Filed { (table.insertCard card).2 with battlefield } := by
  intro key found hfound
  have hcard : (table.cards.insert table.nextId { card with id := table.nextId }).get? key =
      some found := hfound
  rw [Store.get?_insert] at hcard
  split at hcard
  · rename_i hkey
    obtain rfl := Option.some.inj hcard
    exact hkey.symm
  · exact h key found hcard

theorem files_frame : Frame Files where
  player _ _ _ _ := files_of_cards fun _ => rfl
  permanent table id f _ hf := files_updateCard table id fun card => by rw [hf card]
  zones _ _ _ _ := files_of_cards fun _ => rfl

theorem files_advanceStep (table : Table) : Files table table.advanceStep.2 := by
  intro hfiled id card hcard
  rw [card?_advanceStep] at hcard
  split at hcard
  · obtain ⟨former, hformer, rfl⟩ := Option.map_eq_some_iff.mp hcard
    exact hfiled id former hformer
  · exact hfiled id card hcard

theorem files_nextTurn (table : Table) : Files table table.nextTurn := by
  unfold nextTurn
  split
  · exact files_of_cards fun _ => rfl
  · exact files_of_cards fun _ => rfl

theorem along_files_place (id : CardId) (zone : Zone) : Along Files (place id zone) := by
  intro table
  cases hcard : table.card? id with
  | none =>
    unfold place
    rw [outcome_bind_error (outcome_requireCard_none hcard)]
    exact Std.Refl.refl table
  | some card =>
    rw [outcome_place_eq hcard]
    split
    · exact files_of_cards fun key => card?_putDown table id key card.owner zone
    · exact Std.Refl.refl table

theorem along_files_move (id : CardId) (source target : Zone) :
    Along Files (move id source target) := by
  intro table
  rcases outcome_move_cases table id source target with
    ⟨fault, hfail⟩ | ⟨owner, hstrands⟩ | ⟨card, taken, -, htaken, hdone⟩
  · rw [hfail]
    exact Std.Refl.refl table
  · rw [hstrands.outcome_move]
    exact files_of_cards fun _ => rfl
  · rw [hdone]
    have hput : Files table (taken.putDown id card.owner target) :=
      files_of_cards fun key => (card?_putDown taken id key card.owner target).trans (htaken.card? key)
    unfold afterLeaving
    split
    · exact fun hfiled => files_updateCard _ id (fun _ => rfl) (hput hfiled)
    · exact hput

theorem Operation.files (operation : Operation) (table : Table) :
    Files table (operation.after table) := by
  have hquiet {α : Type} {change : Change α} (h : Along Files change) :
      Along Files (silently change) := h.map _
  cases operation with
  | create name owner => exact fun h => h.insertCard _ _
  | insert card => exact fun h => h.insertCard _ _
  | createPermanent card => exact fun h => h.insertCard _ _
  | place id zone => exact hquiet (along_files_place id zone) table
  | move id source target => exact hquiet (along_files_move id source target) table
  | sacrifice id => exact hquiet (along_sacrifice (along_files_move id _ _)) table
  | destroy id => exact hquiet (along_destroy (along_files_move id _ _)) table
  | buryDying => exact hquiet (along_buryDying fun id => along_files_move id _ _) table
  | setStep step => exact files_of_cards fun _ => rfl
  | advanceStep => exact files_advanceStep table
  | nextTurn => exact files_nextTurn table
  | draw player count => exact hquiet (files_frame.along_draw player count) table
  | mill player count => exact hquiet (files_frame.along_mill player count) table
  | discard player count => exact hquiet (files_frame.along_discard player count) table
  | pay player cost => exact hquiet (files_frame.along_pay player cost) table
  | tap id => exact hquiet (files_frame.along_tap id) table
  | untap id => exact hquiet (files_frame.along_untap id) table
  | addMana player color amount => exact hquiet (files_frame.along_addMana player color amount) table
  | damage target amount source => exact hquiet (files_frame.along_damage target amount source) table
  | gainLife player amount => exact hquiet (files_frame.along_gainLife player amount) table
  | loseLife player amount => exact hquiet (files_frame.along_loseLife player amount) table
  | pump id power toughness duration =>
    exact hquiet (files_frame.along_pump id power toughness duration) table
  | control id player => exact files_updateCard table id fun _ => rfl

/-- From the setup on, whatever is done, every card is kept under its own number. -/
theorem filed_play (names : List String) (life : Int32) (operations : List Operation) :
    ((seat names life).play operations).Filed := by
  have hplay (table : Table) : Files table (table.play operations) := by
    induction operations generalizing table with
    | nil => exact Std.Refl.refl table
    | cons operation operations ih =>
      exact fun hfiled => ih (operation.after table) (operation.files table hfiled)
  refine hplay _ fun id card hcard => ?_
  simp [seat, card?, Store.get?] at hcard

end CardRules.Table
