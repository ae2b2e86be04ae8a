import CardRules.Proofs.Engine.Leaving
import CardRules.Proofs.Engine.Spending

/-!
# The table once a cost is paid

A cost that was paid has changed the table in as many places as it has parts, and nowhere else
(`Table.CostPaid`): the source is tapped, the player has spent mana and life and discarded from the top
of the hand, and the source is in the graveyard. What the engine does when the source leaves, books and
triggers, is no part of the table (`costPaid_of_payCost`). Mana that is added only changes the player who
gets it (`Table.withMana`).
-/

set_option autoImplicit false

namespace CardRules

namespace Table

open Act

variable {table after : Table} {cost : Cost} {source : CardId} {player : PlayerId}

/-- The table with the source of a cost tapped, if the cost asks for it. -/
def tapFor (table : Table) (cost : Cost) (source : CardId) : Table :=
  if cost.tap then table.updateCard source fun card => { card with tapped := true } else table

/-- The table with the cards discarded that a cost asks for. -/
def discardFor (table : Table) (cost : Cost) (player : PlayerId) : Table :=
  if 0 < cost.discard then table.updateZones player (·.discard cost.discard.toNat) else table

/-- The table with the source of a cost in the graveyard of its owner, if the cost asks for it. -/
def buryFor (table : Table) (cost : Cost) (source : CardId) : Table :=
  match cost.sacrifice, table.card? source with
  | true, some card => table.bury source card.owner
  | _, _ => table

/-- After the payment of a cost the table is as before, but for what the cost asks for. -/
def CostPaid (before : Table) (cost : Cost) (source : CardId) (player : PlayerId) (after : Table) :
    Prop :=
  ∃ payer paid, before.player? player = some payer ∧ payer.pay cost = .ok paid ∧
    after = (((before.tapFor cost source).updatePlayer player fun _ => paid).discardFor cost
      player).buryFor cost source

/-- The table with mana added to the pool of a player, one color after the other. -/
def withMana (table : Table) (player : PlayerId) (mana : List (Color × UInt8)) : Table :=
  mana.foldl (fun table yield => table.updatePlayer player (·.addMana yield.1 yield.2)) table

theorem player?_tapFor (table : Table) (cost : Cost) (source : CardId) (player : PlayerId) :
    (table.tapFor cost source).player? player = table.player? player := by
  unfold tapFor
  split
  · rfl
  · rfl

theorem discard_eq_ok {count : Nat} (h : (discard player count).outcome table = (.ok (), after)) :
    after = table.updateZones player (·.discard count) := by
  unfold discard at h
  cases hzones : table.zones? player with
  | none =>
    rw [outcome_bind_error (outcome_requireZones_none hzones)] at h
    simp at h
  | some zones =>
    rw [outcome_bind_ok (outcome_requireZones hzones)] at h
    dsimp only at h
    split at h
    · simp at h
    · exact (Prod.mk.inj h).2.symm

theorem addMana_eq_ok {color : Color} {amount : UInt8}
    (h : (addMana player color amount).outcome table = (.ok (), after)) :
    after = table.updatePlayer player (·.addMana color amount) := by
  unfold addMana at h
  cases hplayer : table.player? player with
  | none =>
    rw [outcome_bind_error (outcome_changePlayer_none hplayer _)] at h
    simp at h
  | some payer =>
    rw [outcome_bind_ok (outcome_changePlayer hplayer _)] at h
    exact (Prod.mk.inj h).2.symm

end Table

namespace Arena

open Act

variable {arena after : Arena} {cost : Cost} {source : CardId} {controller : PlayerId}

theorem outcome_of_onTable {α : Type} {act : Act Table α} {a : α}
    (h : (onTable act).outcome arena = (.ok a, after)) :
    act.outcome arena.table = (.ok a, after.table) := by
  rw [outcome_onTable] at h
  obtain ⟨hresult, rfl⟩ := Prod.mk.inj h
  exact Prod.ext hresult rfl

/-! ## The parts of a cost, once they are paid -/

theorem table_of_payTap (h : (payTap cost source).outcome arena = (.ok (), after)) :
    after.table = arena.table.tapFor cost source := by
  unfold payTap at h
  unfold Table.tapFor
  split at h
  · rename_i htap
    have htapped := outcome_of_onTable h
    rw [Table.tap] at htapped
    rw [if_pos htap]
    cases hcard : arena.table.permanent? source with
    | none =>
      rw [Table.outcome_changePermanent_none hcard] at htapped
      simp at htapped
    | some card =>
      rw [Table.outcome_changePermanent hcard] at htapped
      exact (Prod.mk.inj htapped).2.symm
  · rename_i htap
    obtain ⟨-, rfl⟩ := Prod.mk.inj h
    rw [if_neg htap]
    rfl

theorem table_of_payDiscard (h : (payDiscard cost controller).outcome arena = (.ok (), after)) :
    after.table = arena.table.discardFor cost controller := by
  unfold payDiscard at h
  unfold Table.discardFor
  split at h
  · rename_i hdiscard
    rw [if_pos hdiscard]
    exact Table.discard_eq_ok (outcome_of_onTable h)
  · rename_i hdiscard
    obtain ⟨-, rfl⟩ := Prod.mk.inj h
    rw [if_neg hdiscard]
    rfl

theorem table_of_paySacrifice
    (h : (paySacrifice cost source controller).outcome arena = (.ok (), after)) :
    after.table = arena.table.buryFor cost source := by
  unfold paySacrifice at h
  unfold Table.buryFor
  split at h
  · rename_i hsacrifice
    obtain ⟨_, buried, hburied, hleave⟩ := outcome_bind_eq_ok.mp h
    have hburied := outcome_of_onTable hburied
    -- the books are closed and triggers go off, none of it at the table
    have hbooks : after.table = buried.table := by
      have hboard := congrArg Board.table (board_leave source controller buried)
      rw [← snd_outcome_discard, hleave] at hboard
      exact hboard
    rw [hbooks, hsacrifice]
    cases hcard : arena.table.permanent? source with
    | none =>
      rw [Table.outcome_sacrifice_none hcard] at hburied
      simp at hburied
    | some card =>
      obtain ⟨hfield, hthere⟩ := Table.permanent?_eq_some_iff.mp hcard
      rw [hthere]
      cases howner : arena.table.zones? card.owner with
      | none =>
        rw [Table.outcome_sacrifice_unowned hfield hthere howner] at hburied
        simp at hburied
      | some zones =>
        rw [Table.outcome_sacrifice hfield hthere (by rw [howner]; rfl)] at hburied
        exact (Prod.mk.inj hburied).2.symm
  · rename_i hsacrifice
    obtain ⟨-, rfl⟩ := Prod.mk.inj h
    rw [Bool.not_eq_true] at hsacrifice
    rw [hsacrifice]
    rfl

/-- A cost that was paid has changed nothing at the table but what it asks for. -/
theorem costPaid_of_payCost
    (h : (payCost cost source controller).outcome arena = (.ok (), after)) :
    arena.table.CostPaid cost source controller after.table := by
  unfold payCost at h
  rw [outcome_bind_ok (outcome_get arena)] at h
  obtain ⟨_, -, h⟩ := outcome_ofExcept_bind_eq_ok.mp h
  obtain ⟨_, tapped, htap, h⟩ := outcome_bind_eq_ok.mp h
  obtain ⟨_, paid, hpay, h⟩ := outcome_bind_eq_ok.mp h
  obtain ⟨_, discarded, hdiscard, hsacrifice⟩ := outcome_bind_eq_ok.mp h
  obtain ⟨payer, left, hpayer, hleft, htable⟩ := Table.outcome_pay_eq_ok.mp (pay_of_payPlayer hpay)
  -- mana and life are looked up after the tap, which leaves every player alone
  rw [table_of_payTap htap] at hpayer htable
  rw [Table.player?_tapFor] at hpayer
  refine ⟨payer, left, hpayer, hleft, ?_⟩
  rw [table_of_paySacrifice hsacrifice, table_of_payDiscard hdiscard, htable]

/-! ## Mana that is added -/

theorem table_of_forM_addMana {mana : List (Color × UInt8)}
    (h : (mana.forM fun yield => onTable (Table.addMana controller yield.1 yield.2)).outcome arena =
      (.ok (), after)) : after.table = arena.table.withMana controller mana := by
  induction mana generalizing arena with
  | nil =>
    obtain ⟨-, rfl⟩ := Prod.mk.inj h
    rfl
  | cons yield mana ih =>
    rw [outcome_forM_cons] at h
    obtain ⟨_, added, hadd, hrest⟩ := outcome_bind_eq_ok.mp h
    rw [ih hrest, Table.addMana_eq_ok (outcome_of_onTable hadd)]
    rfl

/-- A lone effect that adds mana adds what the text of the ability says. -/
theorem table_of_resolveAbility {ability : Ability} {effect : Effect}
    (heffects : ability.effects = [effect]) (hkind : effect.kind = .addMana) {targets : List Choice}
    {decision : Decision}
    (h : (resolveAbility ability controller targets decision).outcome arena = (.ok (), after)) :
    after.table = arena.table.withMana controller
      (Mana.produced ability.oracleText (effect.amount decision.x) decision.color) := by
  unfold resolveAbility at h
  rw [heffects] at h
  unfold applyEffects applyEffect change at h
  rw [hkind] at h
  obtain ⟨_, applied, happlied, hrest⟩ := outcome_bind_eq_ok.mp h
  obtain ⟨_, added, hadded, hreport⟩ := outcome_bind_eq_ok.mp happlied
  obtain ⟨-, rfl⟩ := Prod.mk.inj hreport
  obtain ⟨-, rfl⟩ := Prod.mk.inj hrest
  exact table_of_forM_addMana hadded

end Arena

end CardRules
