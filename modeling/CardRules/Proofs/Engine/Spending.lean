import CardRules.Proofs.Engine.Payment
import CardRules.Proofs.Mana.Payment

/-!
# What a payment takes

Of the parts of a cost only one has to do with the players, the payment of mana and life; the others
are made with cards (`SamePlayers`). So the pool of whoever pays is down by just what the cost asks for
in mana, and everybody else has what he had (`Table.Spends`).
-/

set_option autoImplicit false

namespace CardRules

open Act

namespace Table

/-- A player has spent an amount of mana, and nothing else is different about any other player. -/
def Spends (before after : Table) (player : PlayerId) (amount : Nat) : Prop :=
  (∃ payer paid, before.player? player = some payer ∧ after.player? player = some paid ∧
    payer.manaPool.size = paid.manaPool.size + amount) ∧
  ∀ other, other ≠ player → after.player? other = before.player? other

theorem spends_of_paid {table : Table} {player : PlayerId} {payer paid : Player} {mana : ManaCost}
    (hpayer : table.player? player = some payer) (hid : paid.id = payer.id)
    (hpaid : payer.manaPool.pay? mana = some paid.manaPool)
    (hsmall : mana.generic.toNat + mana.colored ≤ 255) :
    table.Spends (table.updatePlayer player fun _ => paid) player
      (mana.generic.toNat + mana.colored) := by
  have hseat : payer.id = player := Table.id_of_player? hpayer
  have hplayers (other : PlayerId) := player?_updatePlayer table player other (f := fun _ => paid)
    fun _ _ => hid.trans hseat
  constructor
  · refine ⟨payer, paid, hpayer, ?_, ManaPool.size_of_pay hpaid hsmall⟩
    rw [hplayers, if_pos rfl, hpayer, Option.map_some]
  · intro other hother
    rw [hplayers, if_neg hother]

/-- The players have what they had. -/
def SamePlayers (before after : Table) : Prop := after.players = before.players

instance : Std.Refl SamePlayers := ⟨fun _ => rfl⟩

instance : IsTrans Table SamePlayers := ⟨fun _ _ _ hab hbc => hbc.trans hab⟩

theorem SamePlayers.player?_eq {before after : Table} (h : SamePlayers before after) (id : PlayerId) :
    after.player? id = before.player? id := by
  rw [player?, h, player?]

theorem samePlayers_changePermanent (id : CardId) (f : Card → Card) :
    Along SamePlayers (changePermanent id f) :=
  (along_requirePermanent id).bind fun _ => .modify fun _ => rfl

theorem samePlayers_discard (player : PlayerId) (count : Nat) :
    Along SamePlayers (discard player count) := by
  refine (along_requireZones player).bind fun zones => ?_
  dsimp only
  split
  · exact .fail _
  · exact .modify fun _ => rfl

theorem samePlayers_takeFrom (id : CardId) (zone : Zone) :
    Along SamePlayers (takeFrom id zone) := by
  refine (along_requireCard id).bind fun card => ?_
  split
  · refine Along.get.bind fun table => ?_
    split
    · exact .modify fun _ => rfl
    · exact .fail _
  · refine (along_requireZones _).bind fun zones => ?_
    split
    · exact .modify fun _ => rfl
    · exact .fail _

theorem samePlayers_place (id : CardId) (zone : Zone) : Along SamePlayers (place id zone) := by
  refine (along_requireCard id).bind fun card => ?_
  split
  · exact .modify fun _ => rfl
  · exact (along_requireZones _).bind fun _ => .modify fun _ => rfl

theorem samePlayers_move (id : CardId) (source target : Zone) :
    Along SamePlayers (move id source target) :=
  along_move (samePlayers_takeFrom id source) (samePlayers_place id target) fun _ => rfl

theorem samePlayers_sacrifice (id : CardId) : Along SamePlayers (sacrifice id) :=
  along_sacrifice (samePlayers_move id _ _)

end Table

namespace Arena

/-- The players at the table have what they had. -/
def SamePlayers (before after : Arena) : Prop := Table.SamePlayers before.table after.table

instance : Std.Refl SamePlayers := ⟨fun _ => rfl⟩

instance : IsTrans Arena SamePlayers := ⟨fun _ _ _ hab hbc => hbc.trans hab⟩

theorem samePlayers_onTable {α : Type} {act : Act Table α} (h : Along Table.SamePlayers act) :
    Along SamePlayers (onTable act) :=
  h.within fun _ _ h => h

theorem samePlayers_payTap (cost : Cost) (source : CardId) :
    Along SamePlayers (payTap cost source) := by
  unfold payTap
  split
  · exact samePlayers_onTable (Table.samePlayers_changePermanent source _)
  · exact .pure ()

theorem samePlayers_payDiscard (cost : Cost) (controller : PlayerId) :
    Along SamePlayers (payDiscard cost controller) := by
  unfold payDiscard
  split
  · exact samePlayers_onTable (Table.samePlayers_discard controller _)
  · exact .pure ()

theorem samePlayers_paySacrifice (cost : Cost) (source : CardId) (controller : PlayerId) :
    Along SamePlayers (paySacrifice cost source controller) := by
  unfold paySacrifice
  split
  · exact (samePlayers_onTable (Table.samePlayers_sacrifice source)).bind fun _ =>
      (along_leave (fun _ _ => rfl) (fun _ _ => rfl) source controller).discard
  · exact .pure ()

variable {arena after : Arena} {cost : Cost} {source : CardId} {controller : PlayerId}

theorem pay_of_payPlayer
    (h : (payPlayer cost source controller).outcome arena = (.ok (), after)) :
    (Table.pay controller cost).outcome arena.table = (.ok (), after.table) := by
  have hattempt := outcome_attempt (onTable (Table.pay controller cost)) arena
  rw [outcome_onTable] at hattempt
  unfold payPlayer at h
  rw [outcome_bind_ok hattempt] at h
  rcases hpay : (Table.pay controller cost).outcome arena.table with ⟨fault | _, table⟩
  · -- what is not paid is given back and fails
    rw [hpay] at h
    dsimp only at h
    split at h
    · obtain ⟨_, _, -, h⟩ := outcome_bind_eq_ok.mp h
      simp at h
    · simp at h
  · rw [hpay] at h
    obtain ⟨-, rfl⟩ := Prod.mk.inj h
    rfl

/-- Who pays a cost is out of just the mana that it asks for. -/
theorem spends_of_payCost
    (h : (payCost cost source controller).outcome arena = (.ok (), after))
    (hsmall : cost.mana.generic.toNat + cost.mana.colored ≤ 255) :
    arena.table.Spends after.table controller (cost.mana.generic.toNat + cost.mana.colored) := by
  unfold payCost at h
  rw [outcome_bind_ok (outcome_get arena)] at h
  obtain ⟨_, -, h⟩ := outcome_ofExcept_bind_eq_ok.mp h
  obtain ⟨_, tapped, htap, h⟩ := outcome_bind_eq_ok.mp h
  obtain ⟨_, paid, hpay, h⟩ := outcome_bind_eq_ok.mp h
  -- before and after this part the players have the same
  have hbefore := samePlayers_payTap cost source arena
  have hafter := ((samePlayers_payDiscard cost controller).bind fun _ =>
    samePlayers_paySacrifice cost source controller) paid
  rw [htap] at hbefore
  rw [h] at hafter
  obtain ⟨payer, player, hpayer, hpaid, htable⟩ :=
    Table.outcome_pay_eq_ok.mp (pay_of_payPlayer hpay)
  obtain ⟨⟨payer, left, hpayer, hleft, hsize⟩, hothers⟩ :=
    Table.spends_of_paid hpayer (Player.id_of_pay hpaid) (Player.manaPool_of_pay hpaid) hsmall
  rw [← htable] at hleft hothers
  constructor
  · refine ⟨payer, left, ?_, ?_, hsize⟩
    · rw [← hbefore.player?_eq]
      exact hpayer
    · rw [hafter.player?_eq]
      exact hleft
  · intro other hother
    rw [hafter.player?_eq, hothers other hother, hbefore.player?_eq]

end Arena

end CardRules
