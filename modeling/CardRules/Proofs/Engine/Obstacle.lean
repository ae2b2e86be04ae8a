import CardRules.Proofs.Engine.Attempt
import CardRules.Proofs.Table.Obstacle

/-!
# What stands in the way of an effect

An effect looks for what it acts on: the permanent or the player that it targets first, or else its
source or its controller, the spell on the stack, the piles that cards are moved between.
`Arena.obstacle?` names what is missing, as the fault that the effect then fails with. It asks whether
things are there, and not whether they are legal targets: an effect fails exactly if there is an
obstacle, and at a sound table it has then changed nothing (`stoppedBy_change`).
-/

set_option autoImplicit false

namespace CardRules

open Act

/-- The permanent is missing, or would go to a graveyard that is missing. -/
def Table.lacksBurial? (table : Table) (id : CardId) : Option Fault :=
  match table.permanent? id with
  | none => some (.unknownEntity id)
  | some card =>
    if card.hasKeyword .indestructible then none else table.lacksPiles? card.owner

namespace Arena

/-- What an effect does not find as it is applied. -/
def obstacle? (arena : Arena) (effect : Effect) (context : EffectContext) : Option Fault :=
  match effect.kind with
  | .drawCards | .mill => arena.table.lacksPiles? context.player
  | .gainLife | .addMana => arena.table.lacksPlayer? context.controller
  | .loseLife => arena.table.lacksPlayer? context.player
  | .pump | .tap | .untap => arena.table.lacksPermanent? context.permanent
  | .dealDamage => match context.targets with
    | target :: _ => arena.table.lacksVictim? target
    | [] => some lacksTarget
  | .destroy => match context.targets with
    | .permanent id :: _ => arena.table.lacksBurial? id
    | _ => some lacksTarget
  | .counterSpell => match context.targets with
    | .spell item :: _ => match StackItem.counter arena.items item with
      | .ok _ => none
      | .error fault => some fault
    | other :: _ => some (.invalidTarget 0 (.notSpell other))
    | [] => some lacksTarget
  | .exile | .returnToHand | .createToken | .grantKeyword | .entersTapped | .modal =>
    some (.unimplemented effect.kind)

end Arena

/-! ## Effects -/

namespace Arena

variable {arena : Arena} {condition : Prop}

theorem stoppedBy_onTable {act : Act Table Unit} {obstacle? : Option Fault}
    (h : StoppedBy obstacle? condition act arena.table) :
    StoppedBy obstacle? condition (onTable act) arena where
  result := h.result
  atomic hcondition := Atomic.within (t := arena) (h.atomic hcondition) rfl

theorem stoppedBy_addMana {yields : List (Color × UInt8)} (h : yields ≠ []) (player : PlayerId) :
    StoppedBy (arena.table.lacksPlayer? player) condition
      (yields.forM fun (color, n) => onTable (Table.addMana player color n)) arena := by
  unfold Table.lacksPlayer?
  cases hplayer : arena.table.player? player with
  | some payer =>
    have hsafe : Safe (fun arena => player ∈ arena.table.seats)
        (yields.forM fun (color, n) => onTable (Table.addMana player color n)) :=
      Safe.forM fun yield _ => safe_addMana player yield.1 yield.2
    have hseated : player ∈ arena.table.seats :=
      (arena.table.player?_isSome player).mp (Option.isSome_of_eq_some hplayer)
    obtain ⟨_, after, hout, -⟩ := hsafe arena hseated
    exact .of_ok hout
  | none =>
    -- the first of the yields is already refused
    obtain ⟨⟨color, n⟩, rest, rfl⟩ := List.exists_cons_of_ne_nil h
    have hfirst : (onTable (Table.addMana player color n)).outcome arena =
        (.error (.unknownEntity player), arena) := by
      rw [outcome_onTable, Table.addMana,
        outcome_bind_error (Table.outcome_changePlayer_none hplayer _)]
    exact .of_error ((outcome_forM_cons _ _ _ _).trans (outcome_bind_error hfirst _))

theorem stoppedBy_destroy (id : CardId) :
    StoppedBy (arena.table.lacksBurial? id) arena.table.Sound (Arena.destroy id) arena := by
  have htable := outcome_onTable (Table.destroy id) arena
  have hdestroy : (Arena.destroy id).outcome arena = _ := outcome_bind_ok (outcome_get arena) _
  unfold Table.lacksBurial?
  cases hcard : arena.table.permanent? id with
  | none =>
    rw [Table.outcome_destroy_none hcard] at htable
    exact .of_error (hdestroy.trans (outcome_bind_error htable _))
  | some card =>
    obtain ⟨hfield, hthere⟩ := Table.permanent?_eq_some_iff.mp hcard
    rw [Table.outcome_destroy hcard] at htable
    dsimp only
    by_cases hlasting : card.hasKeyword .indestructible = true
    · rw [if_pos hlasting] at htable ⊢
      exact .of_ok (hdestroy.trans (outcome_bind_ok htable _))
    rw [if_neg hlasting] at htable ⊢
    unfold Table.lacksPiles?
    by_cases howner : (arena.table.zones? card.owner).isSome = true
    · rw [if_pos howner] at htable ⊢
      rw [outcome_bind_ok htable, hthere] at hdestroy
      obtain ⟨_, after, hleave, -⟩ := (safe_leave id card.controller).discard
        { arena with table := arena.table.bury id card.owner } trivial
      exact .of_ok (hdestroy.trans hleave)
    · rw [if_neg howner] at htable ⊢
      refine ⟨congrArg Prod.fst (hdestroy.trans (outcome_bind_error htable _)), fun hsound => ?_⟩
      obtain ⟨known, hknown, hpiles⟩ := hsound id (List.contains_iff_mem.mp hfield)
      obtain rfl : card = known := Option.some.inj (hthere.symm.trans hknown)
      exact absurd hpiles howner

theorem stoppedBy_counter (item : ItemId) :
    StoppedBy (match StackItem.counter arena.items item with
      | .ok _ => none
      | .error fault => some fault) condition (Arena.counter item) arena := by
  have hcounter : (Arena.counter item).outcome arena = _ := outcome_bind_ok (outcome_get arena) _
  cases hitems : StackItem.counter arena.items item with
  | error fault =>
    rw [hitems] at hcounter
    exact .of_error hcounter
  | ok items =>
    rw [hitems] at hcounter
    exact .of_ok hcounter

/-- An effect fails exactly if something stands in its way, and with the fault that this is. -/
theorem stoppedBy_change (effect : Effect) (context : EffectContext) :
    StoppedBy (arena.obstacle? effect context) arena.table.Sound (change effect context) arena := by
  unfold change obstacle?
  dsimp only
  cases effect.kind with
  | drawCards => exact stoppedBy_onTable (Table.stoppedBy_draw _ _)
  | mill => exact stoppedBy_onTable (Table.stoppedBy_mill _ _)
  | gainLife => exact stoppedBy_onTable (Table.stoppedBy_changePlayer _ _)
  | loseLife => exact stoppedBy_onTable (Table.stoppedBy_changePlayer _ _)
  | addMana => exact stoppedBy_addMana (Mana.produced_ne_nil _ _ _) _
  | pump => exact stoppedBy_onTable (Table.stoppedBy_changePermanent _ _)
  | tap => exact stoppedBy_onTable (Table.stoppedBy_changePermanent _ _)
  | untap => exact stoppedBy_onTable (Table.stoppedBy_changePermanent _ _)
  -- the kinds that take their first target fail without one, or with one of another sort
  | dealDamage =>
    cases context.targets with
    | nil => exact .of_error rfl
    | cons target rest => exact stoppedBy_onTable (Table.stoppedBy_damage _ _ _)
  | destroy =>
    cases context.targets with
    | nil => exact .of_error rfl
    | cons target rest =>
      cases target with
      | permanent id => exact stoppedBy_destroy id
      | player id => exact .of_error rfl
      | spell id => exact .of_error rfl
  | counterSpell =>
    cases context.targets with
    | nil => exact .of_error rfl
    | cons target rest =>
      cases target with
      | spell item => exact stoppedBy_counter item
      | player id => exact .of_error rfl
      | permanent id => exact .of_error rfl
  | exile | returnToHand | createToken | grantKeyword | entersTapped | modal => exact .of_error rfl

theorem stoppedBy_applyEffect (effect : Effect) (context : EffectContext) :
    StoppedBy (arena.obstacle? effect context) arena.table.Sound (applyEffect effect context)
      arena :=
  (stoppedBy_change effect context).bind fun _ => ⟨_, _, rfl⟩

end Arena

end CardRules
