import CardRules.Proofs.Engine.Frame
import CardRules.Proofs.Table.Payment

/-!
# Payment

A cost has five parts, paid one after the other by actions that can fail. What is checked before
the first of them is enough for most: apart from the tapping, which comes first and fails without
changing anything, and the sacrifice, which needs an owner with piles, no part can fail any more,
because each leaves alone what the check of the later ones has looked at. So at a sound table a cost
is paid as a whole or not at all (`atomic_payCost`), and at any table it is known which payments go
through (`succeeds_payCost`).
-/

set_option autoImplicit false

namespace CardRules

theorem demand_eq_ok_iff {condition : Bool} {fault : Fault} :
    demand condition fault = .ok () ↔ condition = true := by
  unfold demand
  cases condition with
  | true => exact ⟨fun _ => rfl, fun _ => rfl⟩
  | false => exact ⟨fun h => by simp at h, fun h => by simp at h⟩

/-- One check after another is passed if both are. -/
theorem bind_eq_ok_iff {α : Type} {first : Except Fault Unit} {second : Except Fault α} {a : α} :
    (first >>= fun _ => second) = .ok a ↔ first = .ok () ∧ second = .ok a := by
  cases first with
  | error fault => exact ⟨fun h => by simp [bind, Except.bind] at h, fun h => by simp at h⟩
  | ok _ => exact ⟨fun h => ⟨rfl, h⟩, fun h => h.2⟩

theorem demand_eq_error_iff {condition : Bool} {fault fault' : Fault} :
    demand condition fault = .error fault' ↔ condition = false ∧ fault = fault' := by
  unfold demand
  cases condition with
  | true => simp
  | false => simp

/-- Of two checks the first one that fails is the answer. -/
theorem bind_eq_error_iff {α : Type} {first : Except Fault Unit} {second : Except Fault α}
    {fault : Fault} :
    (first >>= fun _ => second) = .error fault ↔
      first = .error fault ∨ first = .ok () ∧ second = .error fault := by
  cases first with
  | error fault' => simp [bind, Except.bind]
  | ok _ => simp [bind, Except.bind]

/-- The source is where the tapping and the sacrifice of a cost need it: to be tapped it has to be on
the battlefield, and to be sacrificed it needs an owner with piles besides. -/
structure Table.Serves (table : Table) (cost : Cost) (source : CardId) : Prop where
  tap (h : cost.tap = true) : (table.permanent? source).isSome = true
  sacrifice (h : cost.sacrifice = true) : table.Buriable source

namespace Arena

open Act

theorem outcome_onTable {α : Type} (act : Act Table α) (arena : Arena) :
    (onTable act).outcome arena =
      ((act.outcome arena.table).1, { arena with table := (act.outcome arena.table).2 }) := rfl

/-! ## The parts of a cost -/

/-- Nothing but cards changes when the source is tapped, and nothing at all if that fails. -/
theorem payTap_cases (cost : Cost) (source : CardId) (arena : Arena) :
    (∃ fault, (payTap cost source).outcome arena = (.error fault, arena)) ∨
      ∃ cards, (payTap cost source).outcome arena =
        (.ok (), { arena with table := { arena.table with cards } }) := by
  unfold payTap
  split
  · rw [outcome_onTable, Table.tap]
    cases hcard : arena.table.permanent? source with
    | none =>
      rw [Table.outcome_changePermanent_none hcard]
      exact .inl ⟨_, rfl⟩
    | some card =>
      rw [Table.outcome_changePermanent hcard]
      exact .inr ⟨_, rfl⟩
  · exact .inr ⟨arena.table.cards, rfl⟩

theorem outcome_payPlayer {cost : Cost} {controller : PlayerId} {arena : Arena} (source : CardId)
    (h : arena.table.canPay controller cost = true) :
    ∃ players, (payPlayer cost source controller).outcome arena =
      (.ok (), { arena with table := { arena.table with players } }) := by
  obtain ⟨paid, -, hpay⟩ := Table.outcome_pay h
  have hattempt := outcome_attempt (onTable (Table.pay controller cost)) arena
  rw [outcome_onTable, hpay] at hattempt
  unfold payPlayer
  rw [outcome_bind_ok hattempt]
  exact ⟨_, rfl⟩

theorem outcome_payDiscard {cost : Cost} {controller : PlayerId} {arena : Arena}
    (h : cost.discard.toNat ≤ arena.table.handSize controller) :
    ∃ zones, (payDiscard cost controller).outcome arena =
      (.ok (), { arena with table := { arena.table with zones } }) := by
  unfold payDiscard
  split
  · rename_i hpositive
    have hout := Table.outcome_discard (UInt8.lt_iff_toNat_lt.mp hpositive) h
    rw [outcome_onTable, hout]
    exact ⟨_, rfl⟩
  · exact ⟨arena.table.zones, rfl⟩

theorem safe_leave (card : CardId) (controller : PlayerId) :
    Safe (fun _ => True) (leave card controller) := by
  unfold leave
  have hqueue : ∀ triggered rest : List Ability, Safe (fun _ => True)
      (triggered.forM (fun ability => Arena.queue { ability, controller }) >>=
        fun _ => (pure rest : Move (List Ability))) := fun triggered rest =>
    (Safe.forM fun ability _ => (Safe.report _ _).bind fun _ => .modify fun _ _ => trivial).bind
      fun _ => .pure rest
  refine Safe.get.bind fun arena => (Safe.modify fun _ _ => trivial).bind fun _ => ?_
  dsimp only
  split
  · exact hqueue _ _
  · exact (Safe.report _ _).bind fun _ => hqueue _ _

theorem succeeds_payTap (cost : Cost) (source : CardId) (arena : Arena) :
    (payTap cost source).Succeeds arena ↔
      (cost.tap = true → (arena.table.permanent? source).isSome = true) := by
  unfold payTap
  split
  · rename_i htap
    have hout := outcome_onTable (Table.tap source) arena
    rw [Table.tap] at hout ⊢
    cases hcard : arena.table.permanent? source with
    | none =>
      rw [Table.outcome_changePermanent_none hcard] at hout
      exact ⟨fun h => absurd h (not_succeeds hout), fun h => absurd (h htap) (by decide)⟩
    | some card =>
      rw [Table.outcome_changePermanent hcard] at hout
      exact ⟨fun _ _ => rfl, fun _ => ⟨(), _, hout⟩⟩
  · rename_i htap
    exact ⟨fun _ h => absurd h htap, fun _ => ⟨(), arena, rfl⟩⟩

theorem succeeds_paySacrifice {cost : Cost} {source controller : EntityId} {arena : Arena} :
    (paySacrifice cost source controller).Succeeds arena ↔
      (cost.sacrifice = true → arena.table.Buriable source) := by
  unfold paySacrifice
  split
  · rename_i hsacrifice
    have hout := outcome_onTable (Table.sacrifice source) arena
    cases hcard : arena.table.permanent? source with
    | none =>
      rw [Table.outcome_sacrifice_none hcard] at hout
      refine ⟨fun h => ?_, fun h => ?_⟩
      · exact absurd h (not_succeeds (outcome_bind_error hout _))
      · obtain ⟨card, hthere, -⟩ := h hsacrifice
        rw [hcard] at hthere
        simp at hthere
    | some card =>
      obtain ⟨hfield, hthere⟩ := Table.permanent?_eq_some_iff.mp hcard
      cases howner : arena.table.zones? card.owner with
      | none =>
        rw [Table.outcome_sacrifice_unowned hfield hthere howner] at hout
        refine ⟨fun h => ?_, fun h => ?_⟩
        · exact absurd h (not_succeeds (outcome_bind_error hout _))
        · obtain ⟨card', hcard', howner'⟩ := h hsacrifice
          obtain rfl : card = card' := Option.some.inj (hcard.symm.trans hcard')
          rw [howner] at howner'
          simp at howner'
      | some zones =>
        have hzones : (arena.table.zones? card.owner).isSome = true := by rw [howner]; rfl
        rw [Table.outcome_sacrifice hfield hthere hzones] at hout
        refine ⟨fun _ _ => ⟨card, hcard, hzones⟩, fun _ => ?_⟩
        exact Succeeds.of_bind hout ((safe_leave source controller).discard.succeeds trivial)
  · rename_i hsacrifice
    exact ⟨fun _ h => absurd h hsacrifice, fun _ => ⟨(), arena, rfl⟩⟩

/-! ## The cost as a whole -/

/-- Every part of a cost but the tapping can be paid. -/
structure Payable (cost : Cost) (source : CardId) (controller : PlayerId) (table : Table) :
    Prop where
  pool : table.canPay controller cost = true
  hand : cost.discard.toNat ≤ table.handSize controller
  field (h : cost.sacrifice = true) : table.onBattlefield source = true

variable {arena : Arena} {cost : Cost} {source : CardId} {controller : PlayerId}

/-- The check before the payment sees to all of that. -/
theorem payable_of_affords (hstrict : arena.lenient = false)
    (h : arena.affords cost source controller = true) :
    Payable cost source controller arena.table := by
  rw [View.affords, hstrict, Bool.false_or, Bool.and_eq_true, Bool.and_eq_true, decide_eq_true_iff,
    Bool.or_eq_true] at h
  obtain ⟨⟨hpool, hhand⟩, hfield⟩ := h
  refine ⟨hpool, hhand, fun hsacrifice => ?_⟩
  rw [hsacrifice] at hfield
  exact hfield.resolve_left (by decide)

/-- Once the source is tapped, only the sacrifice can still fail. -/
theorem succeeds_payment (hpayable : Payable cost source controller arena.table) :
    Succeeds (payPlayer cost source controller >>= fun _ => payDiscard cost controller >>= fun _ =>
      paySacrifice cost source controller) arena ↔
      (cost.sacrifice = true → arena.table.Buriable source) := by
  obtain ⟨players, hpaid⟩ := outcome_payPlayer source hpayable.pool
  have hquiet := quietTable_quietly.along_payPlayer cost source controller arena
  rw [hpaid] at hquiet
  rw [succeeds_bind_ok hpaid]
  -- neither the hand nor the battlefield have changed so far
  obtain ⟨zones, hdiscarded⟩ : ∃ zones, (payDiscard cost controller).outcome
      { arena with table := { arena.table with players } } =
      (.ok (), { arena with table := { arena.table with players, zones } }) :=
    outcome_payDiscard hpayable.hand
  have hquiet' := quietTable_quietly.along_payDiscard cost controller
    { arena with table := { arena.table with players } }
  rw [hdiscarded] at hquiet'
  rw [succeeds_bind_ok hdiscarded, succeeds_paySacrifice]
  have hboth : Table.Quiet arena.table { arena.table with players, zones } :=
    IsTrans.trans _ _ _ hquiet hquiet'
  exact imp_congr_right fun _ => hboth.buriable_iff source

/-- A cost is paid as a whole or not at all. -/
theorem atomic_payCost (hstrict : arena.lenient = false) (hsound : arena.table.Sound) (cost : Cost)
    (source : CardId) (controller : PlayerId) :
    (payCost cost source controller).Atomic arena := by
  unfold payCost
  refine Atomic.bind_of_unchanged rfl fun arena' hget => ?_
  obtain rfl : arena = arena' := by simpa using hget
  refine Atomic.bind_of_unchanged rfl fun _ hdemand => ?_
  have hpayable := payable_of_affords hstrict (demand_eq_ok_iff.mp (Prod.mk.inj hdemand).1)
  have hkeeps := keepsTable_frame.course.table.along_payTap cost source arena
  rcases payTap_cases cost source arena with ⟨fault, htap⟩ | ⟨cards, htap⟩
  · intro fault' arena' hout
    rw [outcome_bind_error htap] at hout
    exact (Prod.mk.inj hout).2.symm
  · rw [htap] at hkeeps
    refine Atomic.bind_succeeds (Succeeds.atomic ⟨(), _, htap⟩) fun _ tapped hout => ?_
    rw [htap] at hout
    obtain ⟨-, rfl⟩ := Prod.mk.inj hout
    refine Iff.mpr (succeeds_payment ⟨hpayable.pool, hpayable.hand, hpayable.field⟩)
      fun hsacrifice => ?_
    exact (hsound.of_keeps hkeeps).buriable (hpayable.field hsacrifice)

/-- Whoever has paid a cost sits at the table. -/
theorem seated_of_payCost (hstrict : arena.lenient = false) {arena' : Arena}
    (h : (payCost cost source controller).outcome arena = (.ok (), arena')) :
    controller ∈ arena'.table.seats := by
  have hkeeps := keepsTable_frame.along_payCost cost source controller arena
  rw [h] at hkeeps
  unfold payCost at h
  rw [outcome_bind_ok (outcome_get arena), outcome_bind_eq_ok] at h
  obtain ⟨_, _, hdemand, -⟩ := h
  have hpool := (payable_of_affords hstrict (demand_eq_ok_iff.mp (Prod.mk.inj hdemand).1)).pool
  rw [Table.canPay, Option.any_eq_true] at hpool
  obtain ⟨payer, hpayer, -⟩ := hpool
  rw [hkeeps.seats, ← Table.player?_isSome, hpayer]
  rfl

/-- Which payments go through. -/
theorem succeeds_payCost {cost : Cost} {source : CardId} (hstrict : arena.lenient = false) :
    (payCost cost source controller).Succeeds arena ↔
      arena.affords cost source controller = true ∧ arena.table.Serves cost source := by
  unfold payCost
  rw [succeeds_bind_ok (outcome_get arena)]
  by_cases haffords : arena.affords cost source controller = true
  · have hpayable := payable_of_affords hstrict haffords
    have htapped := succeeds_payTap cost source arena
    rw [demand_eq_ok_iff.mpr haffords, succeeds_bind_ok (outcome_ofExcept _ _)]
    rcases payTap_cases cost source arena with ⟨fault, htap⟩ | ⟨cards, htap⟩
    · constructor
      · intro h
        exact absurd h (not_succeeds (outcome_bind_error htap _))
      · intro h
        exact absurd (htapped.mpr h.2.tap) (not_succeeds htap)
    · have hquiet := quietTable_quietly.along_payTap cost source arena
      rw [htap] at hquiet
      rw [succeeds_bind_ok htap]
      refine Iff.trans (succeeds_payment ⟨hpayable.pool, hpayable.hand, hpayable.field⟩) ?_
      -- the tapped source is buried from the same place
      have hburied : Table.Buriable { arena.table with cards } source ↔
          arena.table.Buriable source := hquiet.buriable_iff source
      rw [hburied]
      constructor
      · intro h
        exact ⟨haffords, htapped.mp ⟨(), _, htap⟩, h⟩
      · intro h
        exact h.2.sacrifice
  · have hrefused : demand (arena.affords cost source controller) (.denied .cannotPayCost) =
        .error (.denied .cannotPayCost) := if_neg haffords
    constructor
    · intro h
      rw [hrefused] at h
      exact absurd h (not_succeeds (outcome_bind_error (outcome_ofExcept _ _) _))
    · intro h
      exact absurd h.1 haffords

end Arena

end CardRules
