import CardRules.Proofs.Engine.CostPaid
import CardRules.Proofs.Engine.Obstacle
import CardRules.Proofs.Target.Shares

/-!
# Targets that are declined

Where all that an effect asks to be targeted is optional, nothing need be chosen. The effect is
then applied without targets, in the same way as an effect that asks for none: what is done to a
player falls back to the controller, what is done to a permanent to the source, and an effect that
takes its first target fails (`Effect.fallback`). So to decline a target is not to decline the effect
(`declined_target`): nothing is changed exactly where the fallback happens to find nothing to do
(`Arena.Idle`).
-/

set_option autoImplicit false

namespace CardRules

open Act

/-- All that the effect asks to be targeted is optional, and nothing was chosen for it. -/
structure Effect.Declined (effect : Effect) (context : EffectContext) : Prop where
  asks : effect.targets ≠ []
  optional : ∀ target ∈ effect.targets, target.required = false
  untargeted : context.targets = []

/-- The player with mana added to the pool, one color after the other. -/
def Player.withMana (player : Player) (mana : List (Color × UInt8)) : Player :=
  { player with
    manaPool := mana.foldl (fun pool yield => pool.add yield.1 yield.2) player.manaPool }

/-- What an effect does without targets: it changes the controller's piles, the controller or the
source, or it is refused. -/
inductive Fallback where
  | piles (f : PlayerZones → PlayerZones)
  | player (f : Player → Player)
  | permanent (f : Card → Card)
  | refused (fault : Fault)

/-- The fallback of an effect. -/
def Effect.fallback (effect : Effect) (context : EffectContext) : Fallback :=
  let amount := effect.amount context.x
  match effect.kind with
  | .drawCards => .piles fun zones => (zones.draw amount.toInt.toNat).2
  | .mill => .piles fun zones => (zones.mill amount.toInt.toNat).2
  | .gainLife => .player (·.gainLife amount)
  | .loseLife => .player (·.loseLife amount)
  | .addMana => .player (·.withMana (Mana.produced context.oracleText amount context.color))
  | .pump => .permanent (·.addModifier effect.pumpValues.1 effect.pumpValues.2 effect.duration)
  | .tap => .permanent fun card => { card with tapped := true }
  | .untap => .permanent fun card => { card with tapped := false }
  | .dealDamage | .destroy | .counterSpell => .refused Arena.lacksTarget
  | .exile | .returnToHand | .createToken | .grantKeyword | .entersTapped | .modal =>
    .refused (.unimplemented effect.kind)

/-! ## Fallbacks at a table -/

namespace Table

/-- What comes of a fallback: whoever is changed has to be there. -/
def fallBack (table : Table) (controller : PlayerId) (source : CardId) :
    Fallback → Except Fault Unit × Table
  | .piles f => match table.zones? controller with
    | some zones => (.ok (), table.updateZones controller fun _ => f zones)
    | none => (.error (.unknownEntity controller), table)
  | .player f => match table.player? controller with
    | some _ => (.ok (), table.updatePlayer controller f)
    | none => (.error (.unknownEntity controller), table)
  | .permanent f => match table.permanent? source with
    | some _ => (.ok (), table.updateCard source f)
    | none => (.error (.unknownEntity source), table)
  | .refused fault => (.error fault, table)

variable (table : Table) (controller : PlayerId) (source : CardId)

theorem outcome_changePlayer_eq_fallBack (f : Player → Player) :
    (changePlayer controller f).outcome table = table.fallBack controller source (.player f) := by
  unfold fallBack
  cases hplayer : table.player? controller with
  | none => exact outcome_changePlayer_none hplayer f
  | some player => exact outcome_changePlayer hplayer f

theorem outcome_changePermanent_eq_fallBack (f : Card → Card) :
    (changePermanent source f).outcome table = table.fallBack controller source (.permanent f) := by
  unfold fallBack
  cases hcard : table.permanent? source with
  | none => exact outcome_changePermanent_none hcard f
  | some card => exact outcome_changePermanent hcard f

theorem outcome_draw_eq_fallBack (count : Nat) :
    (draw controller count).outcome table =
      table.fallBack controller source (.piles fun zones => (zones.draw count).2) := by
  unfold fallBack draw
  cases hzones : table.zones? controller with
  | none => exact outcome_bind_error (outcome_requireZones_none hzones) _
  | some zones =>
    rw [outcome_bind_ok (outcome_requireZones hzones)]
    dsimp only
    rw [outcome_bind_ok (outcome_modify _ _)]
    split
    · rfl
    · rfl

theorem outcome_mill_eq_fallBack (count : Nat) :
    (mill controller count).outcome table =
      table.fallBack controller source (.piles fun zones => (zones.mill count).2) := by
  unfold fallBack mill
  cases hzones : table.zones? controller with
  | none => exact outcome_bind_error (outcome_requireZones_none hzones) _
  | some zones =>
    rw [outcome_bind_ok (outcome_requireZones hzones)]
    rfl

theorem updatePlayer_self (id : PlayerId) :
    (table.updatePlayer id fun player => player) = table := by
  have hplayers : table.players.map (fun player => if player.id == id then player else player) =
      table.players := by simp
  exact congrArg (fun players => { table with players }) hplayers

theorem updatePlayer_updatePlayer (id : PlayerId) {f : Player → Player}
    (hf : ∀ player, (f player).id = player.id) (g : Player → Player) :
    (table.updatePlayer id f).updatePlayer id g =
      table.updatePlayer id fun player => g (f player) := by
  refine congrArg (fun players => { table with players }) ?_
  show (table.players.map _).map _ = table.players.map _
  rw [List.map_map]
  refine List.map_congr_left fun player _ => ?_
  rw [Function.comp]
  by_cases hid : (player.id == id) = true
  · rw [if_pos hid, if_pos hid, hf, if_pos hid]
  · rw [if_neg hid, if_neg hid, if_neg hid]

/-- Mana added one color after the other is one change of the player. -/
theorem withMana_eq_updatePlayer (id : PlayerId) (mana : List (Color × UInt8)) :
    table.withMana id mana = table.updatePlayer id (·.withMana mana) := by
  induction mana generalizing table with
  | nil => exact (updatePlayer_self table id).symm
  | cons yield mana ih =>
    show (table.updatePlayer id (·.addMana yield.1 yield.2)).withMana id mana = _
    have hid (player : Player) : (player.addMana yield.1 yield.2).id = player.id := rfl
    rw [ih, updatePlayer_updatePlayer table id hid]
    rfl

end Table

/-! ## Effects without targets -/

namespace Arena

variable {arena : Arena} {effect : Effect} {context : EffectContext}

/-- What comes of the fallback of an effect. -/
def fallBack (arena : Arena) (effect : Effect) (context : EffectContext) :
    Except Fault Unit × Arena :=
  let (result, table) := arena.table.fallBack context.controller context.source
    (effect.fallback context)
  (result, { arena with table })

/-- A player who is there gets all the mana. -/
theorem outcome_forM_addMana {controller : PlayerId} (mana : List (Color × UInt8))
    (h : controller ∈ arena.table.seats) :
    (mana.forM fun yield => onTable (Table.addMana controller yield.1 yield.2)).outcome arena =
      (.ok (), { arena with table := arena.table.withMana controller mana }) := by
  induction mana generalizing arena with
  | nil => rfl
  | cons yield mana ih =>
    have hfirst := outcome_onTable (Table.addMana controller yield.1 yield.2) arena
    rw [Table.outcome_addMana h] at hfirst
    have hseats : (arena.table.updatePlayer controller (·.addMana yield.1 yield.2)).seats =
        arena.table.seats := Table.seats_updatePlayer arena.table fun _ hid => hid
    rw [outcome_forM_cons, outcome_bind_ok hfirst, ih (hseats ▸ h)]
    rfl

theorem outcome_addMana_eq_fallBack {mana : List (Color × UInt8)} (h : mana ≠ []) (arena : Arena)
    (controller : PlayerId) (source : CardId) :
    (mana.forM fun yield => onTable (Table.addMana controller yield.1 yield.2)).outcome arena =
      let (result, table) := arena.table.fallBack controller source (.player (·.withMana mana))
      (result, { arena with table }) := by
  unfold Table.fallBack
  cases hplayer : arena.table.player? controller with
  | none =>
    have hstopped : StoppedBy (arena.table.lacksPlayer? controller) True
        (mana.forM fun yield => onTable (Table.addMana controller yield.1 yield.2)) arena :=
      stoppedBy_addMana h controller
    unfold Table.lacksPlayer? at hstopped
    rw [hplayer] at hstopped
    exact hstopped.outcome_eq trivial
  | some player =>
    have hseated : controller ∈ arena.table.seats :=
      (arena.table.player?_isSome controller).mp (Option.isSome_of_eq_some hplayer)
    rw [outcome_forM_addMana mana hseated, Table.withMana_eq_updatePlayer]

/-- Without targets an effect is its fallback. -/
theorem outcome_change_untargeted (h : context.targets = []) (arena : Arena) :
    (change effect context).outcome arena = arena.fallBack effect context := by
  have hplayer : context.player = context.controller := by
    unfold EffectContext.player
    rw [h]
  have hpermanent : context.permanent = context.source := by
    unfold EffectContext.permanent
    rw [h]
  unfold change fallBack Effect.fallback
  dsimp only
  rw [hplayer, hpermanent, h]
  cases effect.kind with
  | drawCards => rw [outcome_onTable, Table.outcome_draw_eq_fallBack _ _ context.source]
  | mill => rw [outcome_onTable, Table.outcome_mill_eq_fallBack _ _ context.source]
  | gainLife =>
    rw [outcome_onTable, Table.gainLife, Table.outcome_changePlayer_eq_fallBack _ _ context.source]
  | loseLife =>
    rw [outcome_onTable, Table.loseLife, Table.outcome_changePlayer_eq_fallBack _ _ context.source]
  | addMana =>
    exact outcome_addMana_eq_fallBack (Mana.produced_ne_nil _ _ _) arena context.controller
      context.source
  | pump =>
    rw [outcome_onTable, Table.pump,
      Table.outcome_changePermanent_eq_fallBack _ context.controller]
  | tap =>
    rw [outcome_onTable, Table.tap,
      Table.outcome_changePermanent_eq_fallBack _ context.controller]
  | untap =>
    rw [outcome_onTable, Table.untap,
      Table.outcome_changePermanent_eq_fallBack _ context.controller]
  | dealDamage | destroy | counterSpell => rfl
  | exile | returnToHand | createToken | grantKeyword | entersTapped | modal => rfl

/-- The report behind the change makes no difference. -/
theorem outcome_applyEffect (effect : Effect) (context : EffectContext) (arena : Arena) :
    (applyEffect effect context).outcome arena = (change effect context).outcome arena := by
  unfold applyEffect
  rcases hchange : (change effect context).outcome arena with ⟨fault | _, after⟩
  · rw [outcome_bind_error hchange]
  · rw [outcome_bind_ok hchange]
    rfl

theorem outcome_applyEffect_untargeted (h : context.targets = []) (arena : Arena) :
    (applyEffect effect context).outcome arena = arena.fallBack effect context := by
  rw [outcome_applyEffect, outcome_change_untargeted h]

/-! ## Doing nothing -/

/-- Nothing that can be looked up is different. -/
structure Same (before after : Arena) : Prop where
  players (id : PlayerId) : after.table.player? id = before.table.player? id
  cards (id : CardId) : after.table.card? id = before.table.card? id
  zones (id : PlayerId) : after.table.zones? id = before.table.zones? id
  battlefield : after.table.battlefield = before.table.battlefield
  turn : after.table.turn = before.table.turn
  items : after.items = before.items
  engine : after.engine = before.engine

/-- The controller, his piles or the source are there and are what a fallback makes of them. -/
def Keeps (arena : Arena) (controller : PlayerId) (source : CardId) : Fallback → Prop
  | .piles f => ∃ zones, arena.table.zones? controller = some zones ∧ f zones = zones
  | .player f => ∃ player, arena.table.player? controller = some player ∧ f player = player
  | .permanent f => ∃ card, arena.table.permanent? source = some card ∧ f card = card
  | .refused _ => False

/-- An effect without targets finds nothing to do: there is nothing to draw or to mill, no life or
mana that would make a difference, or the source is already tapped or untapped. -/
def Idle (arena : Arena) (effect : Effect) (context : EffectContext) : Prop :=
  let amount := effect.amount context.x
  match effect.kind with
  | .drawCards | .mill => ∃ zones, arena.table.zones? context.controller = some zones ∧
      (amount ≤ 0 ∨ zones.library.cards = [])
  | .gainLife => ∃ player, arena.table.player? context.controller = some player ∧
      Capped.addWord player.life amount = player.life
  | .loseLife => ∃ player, arena.table.player? context.controller = some player ∧
      Capped.subWord player.life amount = player.life
  | .addMana => ∃ player, arena.table.player? context.controller = some player ∧
      (player.withMana (Mana.produced context.oracleText amount context.color)).manaPool =
        player.manaPool
  | .tap => ∃ card, arena.table.permanent? context.source = some card ∧ card.tapped = true
  | .untap => ∃ card, arena.table.permanent? context.source = some card ∧ card.tapped = false
  | .pump | .dealDamage | .destroy | .counterSpell | .exile | .returnToHand | .createToken
  | .grantKeyword | .entersTapped | .modal => False

end Arena

/-! What each fallback leaves as it is. -/

theorem Pile.top_eq_nil_iff {pile : Pile} {count : Nat} :
    pile.top count = [] ↔ count = 0 ∨ pile.cards = [] := by
  rw [top, List.take_eq_nil_iff, List.reverse_eq_nil_iff]

theorem Pile.dropTop_eq_self_iff {pile : Pile} {count : Nat} :
    pile.dropTop count = pile ↔ count = 0 ∨ pile.cards = [] := by
  rw [dropTop, ← List.length_eq_zero_iff]
  constructor
  · intro h
    have hcards : pile.cards.take (pile.cards.length - count) = pile.cards := congrArg Pile.cards h
    rw [List.take_eq_self_iff] at hcards
    omega
  · intro h
    have hcards : pile.cards.take (pile.cards.length - count) = pile.cards := by
      rw [List.take_eq_self_iff]
      omega
    rw [hcards]

theorem PlayerZones.draw_eq_self_iff {zones : PlayerZones} {count : Nat} :
    (zones.draw count).2 = zones ↔ count = 0 ∨ zones.library.cards = [] := by
  rw [← Pile.dropTop_eq_self_iff]
  constructor
  · exact fun h => congrArg PlayerZones.library h
  · intro h
    have hnone : zones.library.top count = [] :=
      Pile.top_eq_nil_iff.mpr (Pile.dropTop_eq_self_iff.mp h)
    rw [draw, h, hnone, Pile.addAll, List.append_nil]

theorem PlayerZones.mill_eq_self_iff {zones : PlayerZones} {count : Nat} :
    (zones.mill count).2 = zones ↔ count = 0 ∨ zones.library.cards = [] := by
  rw [← Pile.dropTop_eq_self_iff]
  constructor
  · exact fun h => congrArg PlayerZones.library h
  · intro h
    have hnone : zones.library.top count = [] :=
      Pile.top_eq_nil_iff.mpr (Pile.dropTop_eq_self_iff.mp h)
    rw [mill, h, hnone, Pile.addAll, List.append_nil]

theorem Card.addModifier_ne_self (card : Card) (power toughness : Int32) (duration : Duration) :
    card.addModifier power toughness duration ≠ card := by
  intro h
  have hmodifiers : card.modifiers ++ [⟨power, toughness, duration⟩] = card.modifiers :=
    congrArg Card.modifiers h
  simp at hmodifiers

/-- A number of cards is the amount, or none if that is negative. -/
theorem count_eq_zero_iff (amount : Int32) : amount.toInt.toNat = 0 ↔ amount ≤ 0 := by
  rw [Int.toNat_eq_zero, Int32.le_iff_toInt_le, Int32.toInt_zero]

namespace Arena

variable {arena : Arena} {effect : Effect} {context : EffectContext}

theorem keeps_fallback_iff_idle :
    arena.Keeps context.controller context.source (effect.fallback context) ↔
      arena.Idle effect context := by
  unfold Effect.fallback Idle
  dsimp only
  cases effect.kind with
  | drawCards =>
    refine exists_congr fun zones => and_congr_right fun _ => ?_
    rw [PlayerZones.draw_eq_self_iff, count_eq_zero_iff]
  | mill =>
    refine exists_congr fun zones => and_congr_right fun _ => ?_
    rw [PlayerZones.mill_eq_self_iff, count_eq_zero_iff]
  | gainLife | loseLife =>
    refine exists_congr fun player => and_congr_right fun _ => ?_
    exact ⟨congrArg Player.life, fun h => congrArg (fun life => { player with life }) h⟩
  | addMana =>
    refine exists_congr fun player => and_congr_right fun _ => ?_
    exact ⟨congrArg Player.manaPool, fun h => congrArg (fun manaPool => { player with manaPool }) h⟩
  | pump =>
    refine iff_false_intro ?_
    rintro ⟨card, -, hcard⟩
    exact card.addModifier_ne_self _ _ _ hcard
  | tap | untap =>
    refine exists_congr fun card => and_congr_right fun _ => ?_
    exact ⟨fun h => (congrArg Card.tapped h).symm,
      fun h => congrArg (fun tapped => { card with tapped }) h.symm⟩
  | dealDamage | destroy | counterSpell | exile | returnToHand | createToken | grantKeyword
  | entersTapped | modal => exact Iff.rfl

/-- A fallback makes no other player out of one. -/
theorem id_of_fallback {f : Player → Player} (h : effect.fallback context = .player f)
    (player : Player) : (f player).id = player.id := by
  unfold Effect.fallback at h
  dsimp only at h
  cases hkind : effect.kind <;> rw [hkind] at h <;> cases h <;> rfl

/-- A change in one place makes no difference to look-up exactly if it keeps what is there. -/
theorem lookup_same_iff {α : Type} {before after : EntityId → Option α} {id : EntityId} {f : α → α}
    {a : α} (hafter : ∀ key, after key = if key = id then (before key).map f else before key)
    (ha : before id = some a) : (∀ key, after key = before key) ↔ f a = a := by
  constructor
  · intro hsame
    have hown := (hafter id).symm.trans (hsame id)
    rw [if_pos rfl, ha] at hown
    exact Option.some.inj hown
  · intro hkept key
    rw [hafter]
    split
    · rename_i hkey
      rw [hkey, ha, Option.map_some, hkept]
    · rfl

/-- A fallback is without effect if what it changes is there and stays the same. -/
theorem same_fallBack_iff :
    ((arena.fallBack effect context).1 = .ok () ∧ arena.Same (arena.fallBack effect context).2) ↔
      arena.Keeps context.controller context.source (effect.fallback context) := by
  unfold fallBack Table.fallBack Keeps
  cases hfallback : effect.fallback context with
  | piles f =>
    cases hzones : arena.table.zones? context.controller with
    | none => simp
    | some zones =>
      have hsame := lookup_same_iff
        (arena.table.zones?_updateZones context.controller · fun _ => f zones) hzones
      constructor
      · exact fun h => ⟨zones, rfl, hsame.mp h.2.zones⟩
      · rintro ⟨_, hfound, hkept⟩
        obtain rfl := Option.some.inj hfound
        exact ⟨rfl, fun _ => rfl, fun _ => rfl, hsame.mpr hkept, rfl, rfl, rfl, rfl⟩
  | player f =>
    cases hplayer : arena.table.player? context.controller with
    | none => simp
    | some player =>
      have hids : ∀ player, player.id = context.controller → (f player).id = context.controller :=
        fun player hid => (id_of_fallback hfallback player).trans hid
      have hsame := lookup_same_iff
        (arena.table.player?_updatePlayer context.controller · hids) hplayer
      constructor
      · exact fun h => ⟨player, rfl, hsame.mp h.2.players⟩
      · rintro ⟨_, hfound, hkept⟩
        obtain rfl := Option.some.inj hfound
        exact ⟨rfl, hsame.mpr hkept, fun _ => rfl, fun _ => rfl, rfl, rfl, rfl, rfl⟩
  | permanent f =>
    cases hcard : arena.table.permanent? context.source with
    | none => simp
    | some card =>
      have hthere := (Table.permanent?_eq_some_iff.mp hcard).2
      have hsame := lookup_same_iff (arena.table.card?_updateCard context.source · f) hthere
      constructor
      · exact fun h => ⟨card, rfl, hsame.mp h.2.cards⟩
      · rintro ⟨_, hfound, hkept⟩
        obtain rfl := Option.some.inj hfound
        exact ⟨rfl, fun _ => rfl, hsame.mpr hkept, fun _ => rfl, rfl, rfl, rfl, rfl⟩
  | refused fault => simp

/-- An effect that asks for nothing but optional targets may be used without any. It is then applied
to the controller or the source in place of what was declined, or refused for want of a target that
was not required, and it comes to nothing exactly if it is idle there. -/
theorem declined_target (h : effect.Declined context) (arena : Arena) :
    (∀ rules colors, (arena.table.player? context.controller).isSome = true →
      arena.validateTargets rules effect.targets context.targets context.controller colors =
        .ok ()) ∧
    (applyEffect effect context).outcome arena = arena.fallBack effect context ∧
    ((((applyEffect effect context).outcome arena).1 = .ok () ∧
      arena.Same ((applyEffect effect context).outcome arena).2) ↔ arena.Idle effect context) := by
  have hout : (applyEffect effect context).outcome arena = arena.fallBack effect context :=
    outcome_applyEffect_untargeted h.untargeted arena
  refine ⟨fun rules colors hplayer => ?_, hout, ?_⟩
  · rw [h.untargeted]
    exact View.validateTargets_nil h.optional hplayer
  · rw [hout, same_fallBack_iff, keeps_fallback_iff_idle]

/-- Tapping up to one creature. -/
def lull : Effect :=
  { kind := .tap, magnitude := 1, targets := [{ kind := .creature, required := false }] }

/-- Declined by an untapped creature, the effect is applied to it, and so it does something. -/
theorem declined_target_lull :
    lull.Declined { controller := ⟨2⟩, source := ⟨4⟩, targets := [] } ∧
      (applyEffect lull { controller := ⟨2⟩, source := ⟨4⟩, targets := [] }).outcome loneCreature =
        (.ok (), { loneCreature with
          table := loneCreature.table.updateCard ⟨4⟩ fun card => { card with tapped := true } }) ∧
      ¬loneCreature.Idle lull { controller := ⟨2⟩, source := ⟨4⟩, targets := [] } := by
  have hdeclined : lull.Declined { controller := ⟨2⟩, source := ⟨4⟩, targets := [] } :=
    ⟨by decide, by decide, rfl⟩
  obtain ⟨-, hout, hidle⟩ := declined_target hdeclined loneCreature
  refine ⟨hdeclined, hout, fun hnothing => ?_⟩
  have hsame := (hidle.mpr hnothing).2.cards ⟨4⟩
  rw [hout] at hsame
  exact absurd hsame (by decide)

/-- A creature that declines to tap a creature is tapped itself. -/
theorem declined_tap_taps_source :
    loneCreature.validateTargets .ignored lull.targets [] ⟨2⟩ [] = .ok () ∧
      ((loneCreature.table.card? ⟨4⟩).map fun card => card.tapped) = some false ∧
      ((((applyEffect lull { controller := ⟨2⟩, source := ⟨4⟩, targets := [] }).outcome
        loneCreature).2.table.card? ⟨4⟩).map fun card => card.tapped) = some true := by
  exact ⟨by rfl, by rfl, by rfl⟩

end Arena

end CardRules
