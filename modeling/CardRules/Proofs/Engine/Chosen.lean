import CardRules.Proofs.Engine.Declined

/-!
# The targets of one effect

An effect that taps, untaps, pumps, damages or destroys is applied to the first permanent that was chosen
for it, however many it asks for and however many were chosen (`chosen_targets`). The others are left as
they are, so they are only treated as the effect says where it would have made no difference to them.
-/

set_option autoImplicit false

namespace CardRules

open Act

/-- What an effect does to a permanent that was chosen for it. -/
inductive Treatment where
  /-- The permanent is changed and stays. -/
  | mark (f : Card → Card)
  /-- The permanent leaves the battlefield, unless it is indestructible. -/
  | destroy

/-- The treatment of permanents by an effect, if its kind has one. -/
def Effect.treatment? (effect : Effect) (x : Option UInt32) : Option Treatment :=
  match effect.kind with
  | .tap => some (.mark fun card => { card with tapped := true })
  | .untap => some (.mark fun card => { card with tapped := false })
  | .pump => some (.mark (·.addModifier effect.pumpValues.1 effect.pumpValues.2 effect.duration))
  | .dealDamage =>
    some (.mark fun card => { card with damage := Capped.addWord card.damage (effect.amount x) })
  | .destroy => some .destroy
  | _ => none

/-- Whether an effect makes no difference to a permanent, as it is: it is tapped, untapped, without
room for the damage, or indestructible. -/
def Effect.Spares (effect : Effect) (x : Option UInt32) (card : Card) : Prop :=
  match effect.kind with
  | .tap => card.tapped = true
  | .untap => card.tapped = false
  | .dealDamage => Capped.addWord card.damage (effect.amount x) = card.damage
  | .destroy => card.hasKeyword .indestructible = true
  | _ => False

namespace Treatment

/-- A card was treated, from one state of the table to another. -/
def Done (treatment : Treatment) (before after : Table) (id : CardId) (card : Card) : Prop :=
  match treatment with
  | mark f => after.card? id = some (f card)
  | destroy => card.hasKeyword .indestructible = true ∨
      before.battlefield.cards.count id = after.battlefield.cards.count id + 1

/-- The card is the same and as often on the battlefield as before. -/
def LeftAlone (before after : Table) (id : CardId) : Prop :=
  after.card? id = before.card? id ∧
    after.battlefield.cards.count id = before.battlefield.cards.count id

/-- The treatment makes no difference to the card. -/
def Keeps (treatment : Treatment) (card : Card) : Prop :=
  match treatment with
  | mark f => f card = card
  | destroy => card.hasKeyword .indestructible = true

theorem keeps_iff_spares {effect : Effect} {x : Option UInt32} {treatment : Treatment}
    (h : effect.treatment? x = some treatment) (card : Card) :
    treatment.Keeps card ↔ effect.Spares x card := by
  unfold Effect.treatment? at h
  unfold Effect.Spares
  cases hkind : effect.kind with
  | tap | untap =>
    rw [hkind] at h
    obtain rfl := Option.some.inj h
    show ({ card with tapped := _ } : Card) = card ↔ _
    exact ⟨fun hsame => (congrArg Card.tapped hsame).symm,
      fun hsame => congrArg (fun tapped => { card with tapped }) hsame.symm⟩
  | pump =>
    rw [hkind] at h
    obtain rfl := Option.some.inj h
    exact iff_false_intro (card.addModifier_ne_self _ _ _)
  | dealDamage =>
    rw [hkind] at h
    obtain rfl := Option.some.inj h
    show ({ card with damage := _ } : Card) = card ↔ _
    exact ⟨congrArg Card.damage, fun hsame => congrArg (fun damage => { card with damage }) hsame⟩
  | destroy =>
    rw [hkind] at h
    obtain rfl := Option.some.inj h
    exact Iff.rfl
  | _ =>
    rw [hkind] at h
    simp at h

/-- A card that is left alone was treated only if the treatment makes no difference to it. -/
theorem done_iff_keeps {treatment : Treatment} {before after : Table} {id : CardId} {card : Card}
    (halone : LeftAlone before after id) (hcard : before.card? id = some card) :
    treatment.Done before after id card ↔ treatment.Keeps card := by
  cases treatment with
  | mark f =>
    show after.card? id = some (f card) ↔ f card = card
    rw [halone.1, hcard, Option.some.injEq, eq_comm]
  | destroy =>
    show card.hasKeyword .indestructible = true ∨ _ ↔ card.hasKeyword .indestructible = true
    rw [halone.2]
    exact ⟨fun h => h.resolve_right (by omega), .inl⟩

end Treatment

namespace Arena

variable {arena : Arena} {effect : Effect} {context : EffectContext} {treatment : Treatment}
  {first : CardId} {card : Card}

/-! ## The first target -/

/-- What comes of treating a permanent. -/
def treated (arena : Arena) (first : CardId) : Treatment → Except Fault Unit × Arena
  | .mark f => (onTable (Table.changePermanent first f)).outcome arena
  | .destroy => (destroy first).outcome arena

theorem outcome_damage (id : CardId) (amount : Int32) (source : CardId) (table : Table) :
    (Table.damage (.permanent id) amount source).outcome table =
      (Table.changePermanent id fun card =>
        { card with damage := Capped.addWord card.damage amount }).outcome table := by
  unfold Table.damage
  dsimp only
  rcases hmark : (Table.changePermanent id fun card =>
    { card with damage := Capped.addWord card.damage amount }).outcome table with ⟨fault | _, after⟩
  · rw [outcome_bind_error hmark]
  · rw [outcome_bind_ok hmark]
    rfl

/-- An effect looks at its first target only. -/
theorem outcome_applyEffect_first (htreatment : effect.treatment? context.x = some treatment)
    {others : List Choice} (hfirst : context.targets = .permanent first :: others) (arena : Arena) :
    (applyEffect effect context).outcome arena = arena.treated first treatment := by
  have hpermanent : context.permanent = first := by
    unfold EffectContext.permanent
    rw [hfirst]
  rw [outcome_applyEffect]
  unfold Effect.treatment? at htreatment
  unfold change
  dsimp only
  rw [hpermanent, hfirst]
  cases hkind : effect.kind with
  | tap | untap | pump | destroy =>
    rw [hkind] at htreatment
    obtain rfl := Option.some.inj htreatment
    rfl
  | dealDamage =>
    rw [hkind] at htreatment
    obtain rfl := Option.some.inj htreatment
    show (onTable _).outcome arena = (onTable _).outcome arena
    rw [outcome_onTable, outcome_onTable, outcome_damage]
  | _ =>
    rw [hkind] at htreatment
    simp at htreatment

/-- Destroying a permanent does at the table what the rules say, and nothing more. -/
theorem table_of_destroy (hcard : arena.table.permanent? first = some card) :
    (((destroy first).outcome arena).1, ((destroy first).outcome arena).2.table) =
      if card.hasKeyword .indestructible then (.ok (), arena.table)
      else if (arena.table.zones? card.owner).isSome then (.ok (), arena.table.bury first card.owner)
      else (.error (.unknownEntity card.owner), arena.table.lift first) := by
  have htable := outcome_onTable (Table.destroy first) arena
  have hthere := (Table.permanent?_eq_some_iff.mp hcard).2
  rw [Table.outcome_destroy hcard] at htable
  unfold destroy
  rw [outcome_bind_ok (outcome_get arena), hthere]
  dsimp only [Option.map_some]
  by_cases hlasting : card.hasKeyword .indestructible = true
  · rw [if_pos hlasting] at htable
    rw [if_pos hlasting, outcome_bind_ok htable]
    rfl
  rw [if_neg hlasting] at htable ⊢
  by_cases howner : (arena.table.zones? card.owner).isSome = true
  · rw [if_pos howner] at htable
    rw [if_pos howner, outcome_bind_ok htable, if_pos rfl]
    -- closing the books cannot fail, and does nothing at the table
    obtain ⟨_, left, hleft⟩ := (safe_leave first card.controller).discard.succeeds
      (s := { arena with table := arena.table.bury first card.owner }) trivial
    have hboard := congrArg Board.table (board_leave first card.controller
      { arena with table := arena.table.bury first card.owner })
    rw [← snd_outcome_discard, hleft] at hboard
    rw [hleft]
    exact Prod.ext rfl hboard
  · rw [if_neg howner] at htable
    rw [if_neg howner, outcome_bind_error htable]

theorem treated_mark (hcard : arena.table.permanent? first = some card) (f : Card → Card) :
    arena.treated first (.mark f) = (.ok (), { arena with table := arena.table.updateCard first f }) := by
  show (onTable (Table.changePermanent first f)).outcome arena = _
  rw [outcome_onTable, Table.outcome_changePermanent hcard]

/-- The treatment of a permanent fails only where it is to be destroyed and has no place to go. -/
theorem treated_ok_iff (hcard : arena.table.permanent? first = some card) :
    (arena.treated first treatment).1 = .ok () ↔
      treatment = .destroy → card.hasKeyword .indestructible = true ∨
          (arena.table.zones? card.owner).isSome = true := by
  cases treatment with
  | mark f =>
    rw [treated_mark hcard]
    exact ⟨fun _ h => by simp at h, fun _ => rfl⟩
  | destroy =>
    have hresult := congrArg Prod.fst (table_of_destroy hcard)
    dsimp only at hresult
    show ((destroy first).outcome arena).1 = .ok () ↔ _
    rw [hresult]
    split
    · rename_i hlasting
      exact ⟨fun _ _ => .inl hlasting, fun _ => rfl⟩
    · rename_i hlasting
      split
      · rename_i howner
        exact ⟨fun _ _ => .inr howner, fun _ => rfl⟩
      · rename_i howner
        exact ⟨fun h => by simp at h, fun h => absurd (h rfl) (not_or.mpr ⟨hlasting, howner⟩)⟩

/-- A treatment that succeeds is done, and all but the one permanent is left alone. -/
theorem done_of_treated (hcard : arena.table.permanent? first = some card)
    (hok : (arena.treated first treatment).1 = .ok ()) :
    treatment.Done arena.table (arena.treated first treatment).2.table first card ∧
      ∀ id, id ≠ first → Treatment.LeftAlone arena.table (arena.treated first treatment).2.table id := by
  obtain ⟨hfield, hthere⟩ := Table.permanent?_eq_some_iff.mp hcard
  cases treatment with
  | mark f =>
    rw [treated_mark hcard]
    refine ⟨?_, fun id hid => ⟨?_, rfl⟩⟩
    · show (arena.table.updateCard first f).card? first = some (f card)
      rw [Table.card?_updateCard, if_pos rfl, hthere]
      rfl
    · exact (Table.card?_updateCard arena.table first id f).trans (if_neg hid)
  | destroy =>
    have hboth := table_of_destroy hcard
    have hresult := congrArg Prod.fst hboth
    have htable := congrArg Prod.snd hboth
    dsimp only at hresult htable
    show Treatment.destroy.Done arena.table ((destroy first).outcome arena).2.table first card ∧
      ∀ id, id ≠ first → Treatment.LeftAlone arena.table ((destroy first).outcome arena).2.table id
    rw [htable]
    have hok : ((destroy first).outcome arena).1 = .ok () := hok
    rw [hresult] at hok
    by_cases hlasting : card.hasKeyword .indestructible = true
    · rw [if_pos hlasting]
      exact ⟨.inl hlasting, fun id _ => ⟨rfl, rfl⟩⟩
    rw [if_neg hlasting] at hok ⊢
    by_cases howner : (arena.table.zones? card.owner).isSome = true
    · rw [if_pos howner]
      refine ⟨.inr ?_, fun id hid => ⟨?_, ?_⟩⟩
      · have hpresent : 0 < arena.table.battlefield.cards.count first :=
          List.count_pos_iff.mpr (List.contains_iff_mem.mp hfield)
        show _ = (arena.table.battlefield.cards.erase first).count first + 1
        rw [List.count_erase_self]
        omega
      · exact (Table.card?_bury _ _ _ _).trans (if_neg hid)
      · exact List.count_erase_of_ne hid
    · rw [if_neg howner] at hok
      simp at hok

/-! ## All the targets -/

/-- Whatever was accepted as a target is there. -/
theorem permanent_of_legal {rules : Untargetability} {targets : List Target} {chosen : List CardId}
    {controller : PlayerId} {colors : List Color}
    (h : arena.validateTargets rules targets (chosen.map .permanent) controller colors = .ok ()) :
    ∀ id ∈ chosen, ∃ card, arena.table.permanent? id = some card := by
  obtain ⟨-, hfit, player, -, hlegal⟩ := (View.validateTargets_eq_ok_iff _ _ _).mp h
  intro id hid
  have hfirsts : ((chosen.map Choice.permanent).zip (Target.slots targets)).map Prod.fst =
      chosen.map Choice.permanent := List.map_fst_zip hfit
  have hmem : Choice.permanent id ∈
      ((chosen.map Choice.permanent).zip (Target.slots targets)).map Prod.fst := by
    rw [hfirsts]
    exact List.mem_map_of_mem hid
  obtain ⟨pair, hpair, hchoice⟩ := List.mem_map.mp hmem
  obtain ⟨candidate, hcandidate, -⟩ := hlegal pair hpair
  rw [hchoice, View.candidate?] at hcandidate
  split at hcandidate
  · rename_i hfield
    obtain ⟨card, hcard, -⟩ := Option.map_eq_some_iff.mp hcandidate
    exact ⟨card, Table.permanent?_eq_some_iff.mpr ⟨hfield, hcard⟩⟩
  · simp at hcandidate

/-- Only the first target is affected. Let some distinct permanents be chosen and accepted as the targets
of an effect that taps, untaps, pumps, damages or destroys. Then the effect does what it would do if the
first of them had been the only one. It succeeds, unless this one is to be destroyed and neither is
indestructible nor has an owner with piles. If so, the first permanent is treated as the effect says, and
every other card is left alone. So all that were chosen are treated exactly if the effect makes no
difference to any but the first. -/
theorem chosen_targets {rules : Untargetability} {rest : List CardId} {colors : List Color}
    (htreatment : effect.treatment? context.x = some treatment)
    (hchosen : context.targets = (first :: rest).map .permanent) (hdistinct : (first :: rest).Nodup)
    (hlegal : arena.validateTargets rules effect.targets context.targets context.controller colors =
      .ok ()) :
    ∃ card, arena.table.permanent? first = some card ∧
    let outcome := (applyEffect effect context).outcome arena
    outcome = (applyEffect effect { context with targets := [.permanent first] }).outcome arena ∧
    (outcome.1 = .ok () ↔ (treatment = .destroy → card.hasKeyword .indestructible = true ∨
      (arena.table.zones? card.owner).isSome = true)) ∧
    (outcome.1 = .ok () →
      treatment.Done arena.table outcome.2.table first card ∧
      (∀ id, id ≠ first → Treatment.LeftAlone arena.table outcome.2.table id) ∧
      ((∀ id ∈ first :: rest, ∀ card, arena.table.permanent? id = some card →
          treatment.Done arena.table outcome.2.table id card) ↔
        ∀ id ∈ rest, ∀ card, arena.table.permanent? id = some card → effect.Spares context.x card)) := by
  have hthere := permanent_of_legal (hchosen ▸ hlegal)
  obtain ⟨card, hcard⟩ := hthere first List.mem_cons_self
  have hfirst : (applyEffect effect context).outcome arena = arena.treated first treatment :=
    outcome_applyEffect_first htreatment hchosen arena
  have hlone : (applyEffect effect { context with targets := [.permanent first] }).outcome arena =
      arena.treated first treatment := by
    apply outcome_applyEffect_first
    · exact htreatment
    · rfl
  refine ⟨card, hcard, ?_⟩
  dsimp only
  rw [hfirst, hlone]
  refine ⟨rfl, treated_ok_iff hcard, fun hok => ?_⟩
  obtain ⟨hdone, halone⟩ := done_of_treated hcard hok
  refine ⟨hdone, halone, ?_⟩
  rw [List.forall_mem_cons]
  have hrest : ∀ id ∈ rest, ∀ card, arena.table.permanent? id = some card →
      (treatment.Done arena.table (arena.treated first treatment).2.table id card ↔
        effect.Spares context.x card) := by
    intro id hid other hother
    have hne : id ≠ first := by
      rintro rfl
      exact (List.nodup_cons.mp hdistinct).1 hid
    rw [Treatment.done_iff_keeps (halone id hne) (Table.permanent?_eq_some_iff.mp hother).2]
    exact Treatment.keeps_iff_spares htreatment other
  constructor
  · intro hall id hid other hother
    exact (hrest id hid other hother).mp (hall.2 id hid other hother)
  · intro hspared
    refine ⟨fun other hother => ?_, fun id hid other hother => ?_⟩
    · obtain rfl := Option.some.inj (hcard.symm.trans hother)
      exact hdone
    · exact (hrest id hid other hother).mpr (hspared id hid other hother)

/-- Two players and two creatures of the second one. -/
def twoCreatures : Arena where
  table := { Table.seat ["A", "B"] 20 with
    cards := { entries := [(⟨4⟩, { Card.blank ⟨4⟩ "C" ⟨2⟩ with types := [.creature] }),
      (⟨5⟩, { Card.blank ⟨5⟩ "D" ⟨2⟩ with types := [.creature] })] }
    battlefield := { zone := .battlefield, owner := ⟨3⟩, cards := [⟨4⟩, ⟨5⟩] } }
  engine := {}

/-- Tapping up to two creatures. -/
def hush : Effect :=
  { kind := .tap, magnitude := 1, targets := [{ kind := .creature, required := false, count := 2 }] }

/-- The first player has chosen both creatures. -/
def bothChosen : EffectContext :=
  { controller := ⟨1⟩, source := ⟨1⟩, targets := [⟨4⟩, ⟨5⟩].map .permanent }

/-- The second of two creatures stays as it is. -/
theorem chosen_targets_hush :
    Treatment.LeftAlone twoCreatures.table
      ((applyEffect hush bothChosen).outcome twoCreatures).2.table ⟨5⟩ := by
  have htreatment : hush.treatment? bothChosen.x =
      some (.mark fun card => { card with tapped := true }) := rfl
  have hchosen : bothChosen.targets = [⟨4⟩, ⟨5⟩].map .permanent := rfl
  have hlegal : twoCreatures.validateTargets .ignored hush.targets bothChosen.targets
      bothChosen.controller [] = .ok () := rfl
  obtain ⟨card, -, -, hok, hafter⟩ := chosen_targets htreatment hchosen (by decide) hlegal
  have hdone : ((applyEffect hush bothChosen).outcome twoCreatures).1 = .ok () := hok.mpr nofun
  exact (hafter hdone).2.1 ⟨5⟩ (by decide)

/-- Two creatures are accepted, and only the first is tapped. -/
theorem hush_taps_one :
    twoCreatures.validateTargets .ignored hush.targets bothChosen.targets ⟨1⟩ [] = .ok () ∧
      ((applyEffect hush bothChosen).outcome twoCreatures).1 = .ok () ∧
      [⟨4⟩, ⟨5⟩].map (fun id =>
        (((applyEffect hush bothChosen).outcome twoCreatures).2.table.card? id).map
          fun card => card.tapped) = [some true, some false] := by
  exact ⟨rfl, rfl, rfl⟩

end Arena

end CardRules
