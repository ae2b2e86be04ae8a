import CardRules.Proofs.Act
import CardRules.Engine.Effects

/-!
# Validated targets and the targets handed out

Chosen targets are looked at twice. They are validated slot by slot against all requirements in a
row; later the effects take them in order, each as many as its requirements count. Here the second
reading is brought down to single requirements (`Target.shares`), where it can be compared with the
first: a choice is handed out for the requirement it was validated against (`zip_slots`).

What can differ is the number. Validation counts the choices against the required slots wherever
these stand, so a list that is accepted may end before a required slot (`served_iff`).
-/

set_option autoImplicit false

namespace CardRules

/-! ## Single requirements -/

namespace Target

/-- The chosen targets that fall to each requirement. -/
def shares : List Target → List Choice → List (Target × List Choice)
  | [], _ => []
  | target :: targets, choices =>
    (target, choices.take target.count.toNat) :: shares targets (choices.drop target.count.toNat)

theorem totalCount_cons (target : Target) (targets : List Target) :
    totalCount (target :: targets) = target.count.toNat + totalCount targets := rfl

theorem slots_cons (target : Target) (targets : List Target) :
    slots (target :: targets) = List.replicate target.count.toNat target ++ slots targets := rfl

theorem shares_append (targets more : List Target) (choices : List Choice) :
    shares (targets ++ more) choices =
      shares targets choices ++ shares more (choices.drop (totalCount targets)) := by
  induction targets generalizing choices with
  | nil => rfl
  | cons target targets ih =>
    rw [List.cons_append, shares, shares, ih, List.drop_drop, totalCount_cons, List.cons_append]

/-- Choices beyond the slots fall to no requirement. -/
theorem shares_take {targets : List Target} {choices : List Choice} {n : Nat}
    (h : totalCount targets ≤ n) : shares targets (choices.take n) = shares targets choices := by
  induction targets generalizing choices n with
  | nil => rfl
  | cons target targets ih =>
    rw [totalCount_cons] at h
    have hrest : totalCount targets ≤ n - target.count.toNat := by omega
    rw [shares, shares, List.take_take, List.drop_take, ih hrest, Nat.min_eq_left (by omega)]

theorem zip_replicate_append (choices : List Choice) (n : Nat) (target : Target)
    (rest : List Target) :
    choices.zip (List.replicate n target ++ rest) =
      (choices.take n).map (fun choice => (choice, target)) ++ (choices.drop n).zip rest := by
  induction n generalizing choices with
  | zero => rfl
  | succ n ih =>
    cases choices with
    | nil => rfl
    | cons choice choices =>
      rw [List.replicate_succ, List.cons_append, List.zip_cons_cons, ih]
      rfl

/-- A choice falls to the requirement of the slot at its position. -/
theorem zip_slots (targets : List Target) (choices : List Choice) :
    choices.zip (slots targets) =
      (shares targets choices).flatMap fun share => share.2.map fun choice => (choice, share.1) := by
  induction targets generalizing choices with
  | nil => exact List.zip_nil_right
  | cons target targets ih =>
    rw [shares, List.flatMap_cons, ← ih, slots_cons, zip_replicate_append]

/-- A requirement that is the first of some gets less than it counts exactly if a slot of it lies
beyond the choices. -/
theorem take_length_eq_iff (target : Target) (choices : List Choice) :
    (target.required = true → (choices.take target.count.toNat).length = target.count.toNat) ↔
      ∀ slot ∈ List.replicate (target.count.toNat - choices.length) target,
        slot.required = false := by
  rw [List.length_take]
  constructor
  · intro hfull slot hslot
    obtain ⟨hbeyond, rfl⟩ := List.mem_replicate.mp hslot
    rw [← Bool.not_eq_true]
    intro hrequired
    have := hfull hrequired
    omega
  · intro hbeyond hrequired
    rcases Nat.lt_or_ge choices.length target.count.toNat with hshort | hlong
    · have hslot : target ∈ List.replicate (target.count.toNat - choices.length) target :=
        List.mem_replicate.mpr ⟨Nat.sub_ne_zero_of_lt hshort, rfl⟩
      rw [hbeyond target hslot] at hrequired
      exact absurd hrequired (by decide)
    · exact Nat.min_eq_left hlong

/-- Every required requirement gets as many targets as it counts exactly if no slot beyond the
choices is required. -/
theorem served_iff (targets : List Target) (choices : List Choice) :
    (∀ share ∈ shares targets choices, share.1.required = true →
        share.2.length = share.1.count.toNat) ↔
      ∀ slot ∈ (slots targets).drop choices.length, slot.required = false := by
  induction targets generalizing choices with
  | nil => simp [shares, slots]
  | cons target targets ih =>
    rw [shares, List.forall_mem_cons, ih, slots_cons, List.drop_append, List.forall_mem_append,
      List.length_drop, List.length_replicate, List.drop_replicate, take_length_eq_iff]

end Target

/-! ## Effects -/

namespace Arena

/-- The chosen targets that each effect is handed. -/
def portions : List Effect → List Choice → List (Effect × List Choice)
  | [], _ => []
  | effect :: effects, choices =>
    (effect, choices.take (share effect)) :: portions effects (choices.drop (share effect))

/-- Applying effects is applying each of them with its portion. -/
theorem applyEffects_eq_forM (effects : List Effect) (context : EffectContext) :
    applyEffects effects context =
      (portions effects context.targets).forM fun portion =>
        applyEffect portion.1 { context with targets := portion.2 } := by
  induction effects generalizing context with
  | nil => rfl
  | cons effect effects ih =>
    rw [applyEffects, ih]
    rfl

/-- An effect's requirements share its portion as they share the whole list. -/
theorem shares_portions (effects : List Effect) (choices : List Choice) :
    (portions effects choices).flatMap (fun portion => Target.shares portion.1.targets portion.2) =
      Target.shares (Effect.targetsOf effects) choices := by
  induction effects generalizing choices with
  | nil => rfl
  | cons effect effects ih =>
    have hshare : Target.shares effect.targets (choices.take (share effect)) =
        Target.shares effect.targets choices := Target.shares_take (Nat.le_refl _)
    have htargets : Effect.targetsOf (effect :: effects) =
        effect.targets ++ Effect.targetsOf effects := List.flatMap_cons
    rw [portions, List.flatMap_cons, ih, hshare, htargets, Target.shares_append]
    rfl

/-- Every effect is handed, for each of its required requirements, as many targets as that
requirement counts. -/
def Served (effects : List Effect) (choices : List Choice) : Prop :=
  ∀ portion ∈ portions effects choices, ∀ share ∈ Target.shares portion.1.targets portion.2,
    share.1.required = true → share.2.length = share.1.count.toNat

theorem served_iff (effects : List Effect) (choices : List Choice) :
    Served effects choices ↔
      ∀ slot ∈ (Target.slots (Effect.targetsOf effects)).drop choices.length,
        slot.required = false := by
  rw [← Target.served_iff, ← shares_portions]
  constructor
  · intro h share hshare
    obtain ⟨portion, hportion, hmem⟩ := List.mem_flatMap.mp hshare
    exact h portion hportion share hmem
  · intro h portion hportion share hmem
    exact h share (List.mem_flatMap.mpr ⟨portion, hportion, hmem⟩)

end Arena

/-! ## Validation -/

namespace View

variable {view : View} {rules : Untargetability} {player : Player} {colors : List Color}

/-- The choices that pass are those that name a candidate that is legal for its slot. -/
theorem checkSlots_eq_ok_iff (index : Nat) (pairs : List (Choice × Target)) :
    view.checkSlots rules player colors index pairs = .ok () ↔
      ∀ pair ∈ pairs, ∃ candidate, view.candidate? pair.1 = some candidate ∧
        pair.2.accepts rules candidate player colors = true := by
  induction pairs generalizing index with
  | nil => simp [checkSlots]
  | cons pair pairs ih =>
    obtain ⟨choice, slot⟩ := pair
    rw [List.forall_mem_cons, checkSlots]
    cases hcandidate : view.candidate? choice with
    | none => simp
    | some candidate =>
      dsimp only
      cases hobjection : slot.objection? rules candidate player colors with
      | some objection => simp [Target.accepts, hobjection]
      | none => simp [Target.accepts, hobjection, ih]

/-- What validation accepts: enough choices, not too many, made by a player, each legal for its
slot. -/
theorem validateTargets_eq_ok_iff (targets : List Target) (choices : List Choice)
    (controller : PlayerId) :
    view.validateTargets rules targets choices controller colors = .ok () ↔
      ((Target.slots targets).filter (·.required)).length ≤ choices.length ∧
        choices.length ≤ (Target.slots targets).length ∧
        ∃ player, view.table.player? controller = some player ∧
          ∀ pair ∈ choices.zip (Target.slots targets), ∃ candidate,
            view.candidate? pair.1 = some candidate ∧
              pair.2.accepts rules candidate player colors = true := by
  unfold validateTargets
  dsimp only
  by_cases hfew : choices.length < ((Target.slots targets).filter (·.required)).length
  · rw [if_pos hfew]
    exact ⟨fun h => by simp at h, fun h => absurd h.1 (Nat.not_le.mpr hfew)⟩
  rw [if_neg hfew]
  by_cases hmany : (Target.slots targets).length < choices.length
  · rw [if_pos hmany]
    exact ⟨fun h => by simp at h, fun h => absurd h.2.1 (Nat.not_le.mpr hmany)⟩
  rw [if_neg hmany]
  cases hplayer : view.table.player? controller with
  | none => exact ⟨fun h => by simp at h, fun ⟨_, _, _, h, _⟩ => by simp at h⟩
  | some player =>
    dsimp only
    rw [checkSlots_eq_ok_iff]
    constructor
    · intro hlegal
      exact ⟨Nat.not_lt.mp hfew, Nat.not_lt.mp hmany, player, rfl, hlegal⟩
    · rintro ⟨-, -, other, hother, hlegal⟩
      rw [Option.some.inj hother]
      exact hlegal

/-- Where no target is required, none need be chosen. -/
theorem validateTargets_nil {targets : List Target} {controller : PlayerId}
    (h : ∀ target ∈ targets, target.required = false)
    (hplayer : (view.table.player? controller).isSome = true) :
    view.validateTargets rules targets [] controller colors = .ok () := by
  have hrequired : (Target.slots targets).filter (·.required) = [] := by
    refine List.filter_eq_nil_iff.mpr fun slot hslot => ?_
    obtain ⟨target, htarget, hcopy⟩ := List.mem_flatMap.mp hslot
    obtain ⟨-, rfl⟩ := List.mem_replicate.mp hcopy
    exact Bool.eq_false_iff.mp (h slot htarget)
  obtain ⟨player, hplayer⟩ := Option.isSome_iff_exists.mp hplayer
  rw [validateTargets_eq_ok_iff, hrequired]
  exact ⟨Nat.le_refl 0, Nat.zero_le _, player, hplayer, fun pair hpair => by simp at hpair⟩

end View

/-! ## The two readings together -/

namespace Arena

/-- Accepted targets as they are handed out. Effects are applied to their portions, and within these
every requirement, required or not, gets choices that were validated against it, at the positions at
which they were validated, each legal for it. Every required requirement gets as many as it counts
exactly if no required slot stands beyond the choices made; acceptance alone does not ensure that. -/
theorem targets_handed_out {view : View} {rules : Untargetability} {effects : List Effect}
    {choices : List Choice} {controller : PlayerId} {colors : List Color}
    (hvalid : view.validateTargets rules (Effect.targetsOf effects) choices controller colors =
      .ok ()) :
    (∀ context : EffectContext, context.targets = choices →
      applyEffects effects context = (portions effects choices).forM (fun portion =>
        applyEffect portion.1 { context with targets := portion.2 })) ∧
      choices.zip (Target.slots (Effect.targetsOf effects)) =
        ((portions effects choices).flatMap fun portion =>
          Target.shares portion.1.targets portion.2).flatMap (fun share =>
            share.2.map fun choice => (choice, share.1)) ∧
      (∃ player, view.table.player? controller = some player ∧
        ∀ portion ∈ portions effects choices,
          ∀ share ∈ Target.shares portion.1.targets portion.2, ∀ choice ∈ share.2,
            ∃ candidate, view.candidate? choice = some candidate ∧
              share.1.accepts rules candidate player colors = true) ∧
      (Served effects choices ↔
        ∀ slot ∈ (Target.slots (Effect.targetsOf effects)).drop choices.length,
          slot.required = false) := by
  obtain ⟨-, -, player, hplayer, hlegal⟩ := (View.validateTargets_eq_ok_iff _ _ _).mp hvalid
  refine ⟨?_, ?_, ⟨player, hplayer, ?_⟩, served_iff effects choices⟩
  · rintro context rfl
    exact applyEffects_eq_forM effects context
  · rw [shares_portions, Target.zip_slots]
  · intro portion hportion share hshare choice hchoice
    refine hlegal (choice, share.1) ?_
    rw [Target.zip_slots, ← shares_portions]
    exact List.mem_flatMap.mpr ⟨share, List.mem_flatMap.mpr ⟨portion, hportion, hshare⟩,
      List.mem_map_of_mem hchoice⟩

/-- Gaining life with an optional creature as target, then destroying a creature. -/
def lateRequirement : List Effect :=
  [{ kind := .gainLife, magnitude := 1, targets := [{ kind := .creature, required := false }] },
    { kind := .destroy, magnitude := 0, targets := [{ kind := .creature }] }]

/-- Two players and a creature of the second one. -/
def loneCreature : Arena where
  table := { Table.seat ["A", "B"] 20 with
    cards := { entries := [(⟨4⟩, { Card.blank ⟨4⟩ "C" ⟨2⟩ with types := [.creature] })] }
    battlefield := { zone := .battlefield, owner := ⟨3⟩, cards := [⟨4⟩] } }
  engine := {}

/-- With a choice for each slot both requirements are served. -/
theorem targets_handed_out_late_requirement :
    loneCreature.validateTargets .ignored (Effect.targetsOf lateRequirement)
        [.permanent ⟨4⟩, .permanent ⟨4⟩] ⟨1⟩ [] = .ok () ∧
      Served lateRequirement [.permanent ⟨4⟩, .permanent ⟨4⟩] := by
  have hvalid : loneCreature.validateTargets .ignored (Effect.targetsOf lateRequirement)
      [.permanent ⟨4⟩, .permanent ⟨4⟩] ⟨1⟩ [] = .ok () := by rfl
  exact ⟨hvalid, (targets_handed_out hvalid).2.2.2.mpr (by decide)⟩

/-- One choice is enough to be accepted, as one slot is required. It goes to the optional slot, and
the destruction, which needs a target, fails for want of one after life has been gained. -/
theorem late_requirement_not_served :
    loneCreature.validateTargets .ignored (Effect.targetsOf lateRequirement) [.permanent ⟨4⟩] ⟨1⟩ []
        = .ok () ∧
      ¬ Served lateRequirement [.permanent ⟨4⟩] ∧
      (applyEffects lateRequirement
        { controller := ⟨1⟩, source := ⟨4⟩, targets := [.permanent ⟨4⟩] } loneCreature).result =
          .error lacksTarget := by
  refine ⟨by rfl, ?_, by rfl⟩
  rw [served_iff]
  decide

/-- Accepted targets serve every required requirement if no optional slot stands before a required
one. -/
theorem served_of_required_first {view : View} {rules : Untargetability} {effects : List Effect}
    {choices : List Choice} {controller : PlayerId} {colors : List Color}
    (hvalid : view.validateTargets rules (Effect.targetsOf effects) choices controller colors =
      .ok ())
    (hfirst : (Target.slots (Effect.targetsOf effects)).Pairwise fun earlier later =>
      later.required = true → earlier.required = true) :
    Served effects choices := by
  obtain ⟨henough, hfit, -⟩ := (View.validateTargets_eq_ok_iff _ _ _).mp hvalid
  rw [served_iff]
  generalize Target.slots (Effect.targetsOf effects) = slots at henough hfit hfirst
  intro slot hslot
  rw [← Bool.not_eq_true]
  intro hrequired
  -- then all slots with a choice are required, and this one is one too many
  rw [← List.take_append_drop choices.length slots, List.pairwise_append] at hfirst
  have htaken : (slots.take choices.length).filter (·.required) = slots.take choices.length :=
    List.filter_eq_self.mpr fun taken htaken => hfirst.2.2 taken htaken slot hslot hrequired
  have hmore : 0 < ((slots.drop choices.length).filter (·.required)).length :=
    List.length_pos_of_mem (List.mem_filter.mpr ⟨hslot, hrequired⟩)
  rw [← List.take_append_drop choices.length slots, List.filter_append, List.length_append, htaken,
    List.length_take, Nat.min_eq_left hfit] at henough
  omega

end Arena

end CardRules
