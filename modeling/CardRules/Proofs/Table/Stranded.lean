import CardRules.Proofs.Table.Conservation

/-!
# Moves that fail

A card is moved as such, or because a permanent is sacrificed or destroyed. If that fails, the table is as it
was, whatever the table is, unless the card is stranded between its two places (`failed_move_strands`). Then the
card has left the battlefield and has come to no other pile.

Nothing asks whether the owner of a new card has a seat, so a table that strands a card can be had from the setup
on with one card (`castaway_lost`).
-/

set_option autoImplicit false

namespace CardRules.Table

open Act

variable {table : Table} {id : CardId} {source target : Zone} {owner : PlayerId} {fault : Fault}

/-- The move that an operation makes: the card, where it is, and where it goes. -/
def Operation.relocation? : Operation → Option (CardId × Zone × Zone)
  | move id source target => some (id, source, target)
  | sacrifice id => some (id, .battlefield, .graveyard)
  | destroy id => some (id, .battlefield, .graveyard)
  | _ => none

/-- A permanent that could not be destroyed could not be moved. -/
theorem outcome_destroy_error {after : Table}
    (h : (destroy id).outcome table = (.error fault, after)) :
    (move id .battlefield .graveyard).outcome table = (.error fault, after) := by
  cases hcard : table.permanent? id with
  | none =>
    rw [outcome_destroy_none hcard] at h
    cases h
    exact outcome_bury_absent hcard
  | some card =>
    obtain ⟨hfield, hthere⟩ := permanent?_eq_some_iff.mp hcard
    rw [outcome_destroy hcard] at h
    split at h
    · cases h
    · split at h
      · cases h
      · rename_i howner
        cases h
        exact outcome_bury_none hfield hthere (by simpa using howner)

/-- An operation without a new card fails as the change it makes. -/
theorem Operation.outcome_of_fails {operation : Operation} {α : Type} {change : Change α}
    (hperform : operation.perform = silently change)
    (hfails : (operation.perform table).result = .error fault) :
    change.outcome table = (.error fault, operation.after table) := by
  have houtcome : (operation.perform).outcome table =
      ((change.outcome table).1.map fun _ => none, (change.outcome table).2) := by
    rw [hperform, outcome_silently]
  obtain ⟨hresult, hafter⟩ := Prod.mk.inj houtcome
  rw [hfails] at hresult
  rcases hchange : change.outcome table with ⟨fault' | a, changed⟩
  · rw [hchange] at hresult hafter
    exact Prod.ext (congrArg Except.error (Except.error.inj hresult).symm) hafter.symm
  · rw [hchange] at hresult
    cases hresult

/-- Whatever makes the move, it fails where the move does, and as it does. -/
theorem Operation.relocation_fails {operation : Operation}
    (hmoves : operation.relocation? = some (id, source, target))
    (hfails : (operation.perform table).result = .error fault) :
    (Table.move id source target).outcome table = (.error fault, operation.after table) := by
  cases operation with
  | move id' source' target' =>
    cases hmoves
    exact Operation.outcome_of_fails rfl hfails
  | sacrifice id' =>
    cases hmoves
    exact (outcome_sacrifice_eq id table).symm.trans (Operation.outcome_of_fails rfl hfails)
  | destroy id' =>
    cases hmoves
    exact outcome_destroy_error (Operation.outcome_of_fails rfl hfails)
  | _ => cases hmoves

/-! ## Stranded cards -/

theorem Strands.onBattlefield (h : table.Strands id source target owner) :
    table.onBattlefield id = true := by
  obtain ⟨card, hcard, -⟩ := h.card
  exact (permanent?_eq_some_iff.mp hcard).1

theorem lift_ne (h : table.onBattlefield id = true) : table.lift id ≠ table := by
  intro hsame
  have hlength := (pool_lift h).length_eq
  rw [hsame, List.length_cons] at hlength
  omega

/-- A failed move leaves the table as it was exactly if it does not strand the card. From every table, a move, a
sacrifice or a destruction that fails changes nothing, unless a permanent was to go to a pile of an owner who has
none. In that case the owner is what the error names, the card is off the battlefield, and the piles hold every
other card as often as they did, and this one once less. -/
theorem failed_move_strands (table : Table) (operation : Operation)
    (hmoves : operation.relocation? = some (id, source, target))
    (hfails : (operation.perform table).result = .error fault) :
    (operation.after table = table ↔ ∀ owner, ¬table.Strands id source target owner) ∧
      ∀ owner, table.Strands id source target owner →
        fault = .unknownEntity owner ∧ operation.after table = table.lift id ∧
          table.pool.Perm (id :: (operation.after table).pool) := by
  have hmove := operation.relocation_fails hmoves hfails
  have hstranded (owner : PlayerId) (h : table.Strands id source target owner) :
      fault = .unknownEntity owner ∧ operation.after table = table.lift id := by
    obtain ⟨hresult, hafter⟩ := Prod.mk.inj (hmove.symm.trans h.outcome_move)
    exact ⟨Except.error.inj hresult, hafter⟩
  refine ⟨⟨fun hsame owner h => ?_, fun hnone => ?_⟩, fun owner h => ?_⟩
  · exact lift_ne h.onBattlefield ((hstranded owner h).2.symm.trans hsame)
  · rcases outcome_move_cases table id source target with
      ⟨fault', hfail⟩ | ⟨owner, h⟩ | ⟨card, taken, -, -, hdone⟩
    · exact (Prod.mk.inj (hmove.symm.trans hfail)).2
    · exact absurd h (hnone owner)
    · cases hmove.symm.trans hdone
  · obtain ⟨hfault, hafter⟩ := hstranded owner h
    refine ⟨hfault, hafter, ?_⟩
    rw [hafter]
    exact pool_lift h.onBattlefield

/-- A permanent whose owner is not at the table. -/
def castaway : Table :=
  ((seat ["A", "B"] 20).createPermanent (.blank ⟨0⟩ "Castaway" ⟨99⟩)).2

/-- The card was in one pile, and after a sacrifice that failed it is in none. -/
theorem castaway_lost :
    ((Operation.sacrifice ⟨4⟩).perform castaway).result = .error (.unknownEntity ⟨99⟩) ∧
      (Operation.sacrifice ⟨4⟩).after castaway ≠ castaway ∧ castaway.pool = [⟨4⟩] ∧
      ((Operation.sacrifice ⟨4⟩).after castaway).pool = [] := by
  decide

/-- Both sides: the destruction strands the card, and a move from the wrong place does not. -/
theorem failed_move_strands_castaway :
    (Operation.destroy ⟨4⟩).after castaway = castaway.lift ⟨4⟩ ∧
      (Operation.move ⟨4⟩ .hand .exile).after castaway = castaway := by
  have hstrands : castaway.Strands ⟨4⟩ .battlefield .graveyard ⟨99⟩ :=
    ⟨rfl, by decide, ⟨_, rfl, rfl⟩, rfl⟩
  have hdestroy := failed_move_strands castaway (.destroy ⟨4⟩) rfl rfl
  have hwrong := failed_move_strands castaway (.move ⟨4⟩ .hand .exile) rfl rfl
  exact ⟨(hdestroy.2 ⟨99⟩ hstrands).2.1, hwrong.1.mpr fun _ h => absurd h.source (by decide)⟩

end CardRules.Table
