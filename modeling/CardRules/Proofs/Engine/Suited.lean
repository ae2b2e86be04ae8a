import CardRules.Proofs.Engine.Obstacle
import CardRules.Proofs.Stack.Marks
import CardRules.Proofs.Target.Legal
import CardRules.Proofs.Target.Shares

/-!
# Legal targets are found

A target that is legal is still there: a player at the table, a permanent on the battlefield, a spell
on the stack that is not countered. So an effect meets no obstacle if its requirements ask for what its
kind acts on (`Effect.isSuited`) and the targets chosen for it are legal as it is applied
(`obstacle?_eq_none`). The table must be one on which cards have somewhere to go, and the items must be
known by their numbers (`Regular`).
-/

set_option autoImplicit false

namespace CardRules

/-! ## Requirements that suit an effect -/

/-- Whether everything of a category is a permanent. -/
def TargetKind.isPermanent : TargetKind → Bool
  | creature | permanent | artifact | enchantment | land | planeswalker => true
  | any | player | opponent | spell | creatureOrPlayer => false

namespace Effect

/-- Whether the effect needs a target of a fitting category first of all. -/
def asksFor (effect : Effect) (fits : TargetKind → Bool) : Bool :=
  effect.targets.head?.any fun target => target.required && 0 < target.count && fits target.kind

/-- Whether the requirements of an effect ask for what its kind acts on. -/
def isSuited (effect : Effect) : Bool :=
  match effect.kind with
  | .drawCards | .mill | .gainLife | .loseLife | .addMana => true
  | .dealDamage => effect.asksFor (· != .spell)
  | .pump | .tap | .untap | .destroy => effect.asksFor (·.isPermanent)
  | .counterSpell => effect.asksFor (· == .spell)
  | .exile | .returnToHand | .createToken | .grantKeyword | .entersTapped | .modal => false

end Effect

/-- No optional slot stands before a required one. -/
def Target.RequiredFirst (targets : List Target) : Prop :=
  (slots targets).Pairwise fun earlier later => later.required = true → earlier.required = true

theorem Target.length_slots (targets : List Target) :
    (slots targets).length = totalCount targets := by
  induction targets with
  | nil => rfl
  | cons target targets ih =>
    rw [slots_cons, List.length_append, List.length_replicate, ih, totalCount_cons]

/-- The target that an effect needs first has been chosen, if no slot without a choice is required. -/
theorem Effect.exists_first_choice {effect : Effect} {fits : TargetKind → Bool}
    {choices : List Choice} (h : effect.asksFor fits = true)
    (hserved : ∀ slot ∈ (Target.slots effect.targets).drop choices.length, slot.required = false) :
    ∃ choice rest slot, choices = choice :: rest ∧ fits slot.kind = true ∧
      (choice, slot) ∈ choices.zip (Target.slots effect.targets) := by
  rw [asksFor, Option.any_eq_true] at h
  obtain ⟨target, hhead, hasks⟩ := h
  obtain ⟨rest, htargets⟩ := List.head?_eq_some_iff.mp hhead
  rw [Bool.and_eq_true, Bool.and_eq_true, decide_eq_true_iff, UInt8.lt_iff_toNat_lt] at hasks
  obtain ⟨⟨hrequired, hcount⟩, hfits⟩ := hasks
  obtain ⟨n, hn⟩ := Nat.exists_eq_succ_of_ne_zero (Nat.pos_iff_ne_zero.mp hcount)
  have hslots : Target.slots effect.targets =
      target :: (List.replicate n target ++ Target.slots rest) := by
    rw [htargets, Target.slots_cons, hn]
    rfl
  rw [hslots] at hserved ⊢
  cases choices with
  | nil =>
    have hfree := hserved target List.mem_cons_self
    rw [hrequired] at hfree
    exact absurd hfree (by decide)
  | cons choice choices => exact ⟨choice, choices, target, rfl, hfits, List.mem_cons_self⟩

theorem Arena.length_portion_le {effects : List Effect} {choices : List Choice} :
    ∀ portion ∈ portions effects choices,
      portion.2.length ≤ (Target.slots portion.1.targets).length := by
  induction effects generalizing choices with
  | nil => intro portion hportion; exact absurd hportion List.not_mem_nil
  | cons effect effects ih =>
    intro portion hportion
    rcases List.mem_cons.mp hportion with rfl | hportion
    · rw [Target.length_slots]
      exact List.length_take_le _ _
    · exact ih portion hportion

/-! ## Legal choices -/

theorem Target.matches_of_accepts {rules : Untargetability} {target : Target}
    {candidate : Candidate} {player : Player} {colors : List Color}
    (h : target.accepts rules candidate player colors = true) :
    target.kind.matches candidate player.id = true :=
  TargetKind.matches_eq_true_iff.mpr (accepts_eq_true_iff.mp h).1

/-- A spell that can still be targeted can be countered, if items are known by their numbers. -/
theorem StackItem.counter_of_findSpell? {items : List StackItem} {id : ItemId}
    (hdistinct : (items.map (·.id)).Nodup) (h : (findSpell? items id).isSome = true) :
    ∃ marked, counter items id = .ok marked := by
  obtain ⟨found, hfound⟩ := Option.isSome_iff_exists.mp h
  unfold findSpell? at hfound
  obtain ⟨item, hitem, hspell⟩ := Option.bind_eq_some_iff.mp hfound
  obtain ⟨spell, hspell, -⟩ := Option.bind_eq_some_iff.mp hspell
  have hmem := List.mem_of_find?_eq_some hitem
  have hid : item.id = id ∧ item.countered = false := by simpa using List.find?_some hitem
  have hisSpell : item.object.isSpell = true := by
    rw [StackObject.isSpell, hspell]
    rfl
  unfold counter
  rw [(find?_id_eq_some_iff hdistinct).mpr ⟨hmem, hid.1⟩]
  exact ⟨_, if_pos hisSpell⟩

namespace Arena

/-- Whether a choice made for an item is legal now for the slot that it was made for. -/
def legal (arena : Arena) (item : StackItem) (pair : Choice × Target) : Bool :=
  (arena.table.player? item.controller).any fun player =>
    (arena.candidate? pair.1).any fun candidate =>
      pair.2.accepts arena.engine.rules candidate player
        (Scene.objectColors arena.table item.object)

section Legal

variable {arena : Arena} {item : StackItem} {slot : Target}

theorem legal_eq_true_iff {pair : Choice × Target} : arena.legal item pair = true ↔
    ∃ player, arena.table.player? item.controller = some player ∧
      ∃ candidate, arena.candidate? pair.1 = some candidate ∧
        pair.2.accepts arena.engine.rules candidate player
          (Scene.objectColors arena.table item.object) = true := by
  simp only [legal, Option.any_eq_true]

/-- A choice that is legal names a candidate of the category that is asked for. -/
theorem matches_of_legal {choice : Choice} (h : arena.legal item (choice, slot) = true) :
    ∃ candidate, arena.candidate? choice = some candidate ∧
      ∃ player, slot.kind.matches candidate player = true := by
  obtain ⟨player, -, candidate, hcandidate, haccepts⟩ := legal_eq_true_iff.mp h
  exact ⟨candidate, hcandidate, player.id, Target.matches_of_accepts haccepts⟩

theorem legal_player {id : PlayerId} (h : arena.legal item (.player id, slot) = true) :
    (arena.table.player? id).isSome = true ∧ slot.kind ≠ .spell ∧
      slot.kind.isPermanent = false := by
  obtain ⟨candidate, hcandidate, player, hmatches⟩ := matches_of_legal h
  obtain ⟨chosen, hchosen, rfl⟩ := Option.map_eq_some_iff.mp hcandidate
  refine ⟨Option.isSome_of_eq_some hchosen, ?_⟩
  cases hkind : slot.kind with
  | any | player | opponent | creatureOrPlayer => exact ⟨nofun, rfl⟩
  | spell | creature | permanent | artifact | enchantment | land | planeswalker =>
    rw [hkind] at hmatches
    simp [TargetKind.matches, Candidate.ofPlayer] at hmatches

theorem legal_permanent {id : CardId} (h : arena.legal item (.permanent id, slot) = true) :
    (arena.table.permanent? id).isSome = true ∧ slot.kind ≠ .spell := by
  obtain ⟨candidate, hcandidate, player, hmatches⟩ := matches_of_legal h
  unfold View.candidate? at hcandidate
  dsimp only at hcandidate
  split at hcandidate
  · rename_i hfield
    obtain ⟨card, hcard, rfl⟩ := Option.map_eq_some_iff.mp hcandidate
    refine ⟨Option.isSome_of_eq_some (Table.permanent?_eq_some_iff.mpr ⟨hfield, hcard⟩), ?_⟩
    intro hkind
    rw [hkind] at hmatches
    simp [TargetKind.matches, Candidate.ofCard] at hmatches
  · simp at hcandidate

theorem legal_spell {id : ItemId} (h : arena.legal item (.spell id, slot) = true) :
    (StackItem.findSpell? arena.items id).isSome = true ∧ slot.kind = .spell := by
  obtain ⟨candidate, hcandidate, player, hmatches⟩ := matches_of_legal h
  obtain ⟨⟨spell, controller⟩, hfound, rfl⟩ := Option.map_eq_some_iff.mp hcandidate
  refine ⟨Option.isSome_of_eq_some hfound, ?_⟩
  cases hkind : slot.kind with
  | spell => rfl
  | any | player | opponent | creatureOrPlayer | creature | permanent | artifact | enchantment
  | land | planeswalker =>
    rw [hkind] at hmatches
    simp [TargetKind.matches, Candidate.ofSpell] at hmatches

end Legal

/-! ## Effects without an obstacle -/

/-- Players have piles, permanents have somewhere to go, and no two items share a number. -/
structure Regular (arena : Arena) : Prop where
  seated : arena.table.Seated
  sound : arena.table.Sound
  distinct : (arena.items.map (·.id)).Nodup

/-- The choices of an effect are legal: each for its slot, and no required slot is without one. -/
structure Ready (arena : Arena) (item : StackItem) (effect : Effect) (choices : List Choice) :
    Prop where
  controller : (arena.table.player? item.controller).isSome = true
  served : ∀ slot ∈ (Target.slots effect.targets).drop choices.length, slot.required = false
  fit : choices.length ≤ (Target.slots effect.targets).length
  legal : ∀ pair ∈ choices.zip (Target.slots effect.targets), arena.legal item pair = true

namespace Ready

variable {arena : Arena} {item : StackItem} {effect : Effect} {choices : List Choice}

/-- A first choice has a slot, for which it is legal. -/
theorem exists_slot {choice : Choice} {rest : List Choice}
    (h : Ready arena item effect (choice :: rest)) :
    ∃ slot, arena.legal item (choice, slot) = true := by
  have hfit := h.fit
  cases hslots : Target.slots effect.targets with
  | nil =>
    rw [hslots] at hfit
    exact absurd hfit (by simp)
  | cons slot slots =>
    have hlegal := h.legal
    rw [hslots] at hlegal
    exact ⟨slot, hlegal (choice, slot) List.mem_cons_self⟩

/-- A target that the effect needs first is chosen, and legal. -/
theorem exists_first (h : Ready arena item effect choices) {fits : TargetKind → Bool}
    (hasks : effect.asksFor fits = true) :
    ∃ choice rest slot, choices = choice :: rest ∧ fits slot.kind = true ∧
      arena.legal item (choice, slot) = true := by
  obtain ⟨choice, rest, slot, hchoices, hfits, hmem⟩ := Effect.exists_first_choice hasks h.served
  exact ⟨choice, rest, slot, hchoices, hfits, h.legal _ hmem⟩

/-- The permanent that the effect needs first is chosen, and there. -/
theorem exists_permanent (h : Ready arena item effect choices)
    (hasks : effect.asksFor (·.isPermanent) = true) :
    ∃ id rest card, choices = .permanent id :: rest ∧ arena.table.permanent? id = some card := by
  obtain ⟨choice, rest, slot, rfl, hkind, hlegal⟩ := h.exists_first hasks
  cases choice with
  | permanent id =>
    obtain ⟨card, hcard⟩ := Option.isSome_iff_exists.mp (legal_permanent hlegal).1
    exact ⟨id, rest, card, rfl, hcard⟩
  | player id =>
    rw [(legal_player hlegal).2.2] at hkind
    exact absurd hkind (by decide)
  | spell id =>
    rw [(legal_spell hlegal).2] at hkind
    exact absurd hkind (by decide)

/-- The player whom the effect is about is there. -/
theorem isSome_player (h : Ready arena item effect choices) {context : EffectContext}
    (hcontroller : context.controller = item.controller) (hchoices : context.targets = choices) :
    (arena.table.player? context.player).isSome = true := by
  unfold EffectContext.player
  split
  · rename_i id rest htargets
    obtain rfl := hchoices.symm.trans htargets
    obtain ⟨slot, hlegal⟩ := h.exists_slot
    exact (legal_player hlegal).1
  · rw [hcontroller]
    exact h.controller

end Ready

variable {arena : Arena} {item : StackItem} {effect : Effect} {context : EffectContext}

theorem lacksPiles?_eq_none {table : Table} (hseated : table.Seated) {player : PlayerId}
    (h : (table.player? player).isSome = true) : table.lacksPiles? player = none :=
  if_pos (hseated player ((table.player?_isSome player).mp h))

/-- Nothing stands in the way of a suited effect whose targets are legal. -/
theorem obstacle?_eq_none (hregular : arena.Regular) (hsuited : effect.isSuited = true)
    (hcontroller : context.controller = item.controller)
    (hready : Ready arena item effect context.targets) :
    arena.obstacle? effect context = none := by
  have hplayer := hready.isSome_player hcontroller rfl
  have hpiles := lacksPiles?_eq_none hregular.seated hplayer
  have hmaster : arena.table.lacksPlayer? context.controller = none :=
    if_pos (hcontroller ▸ hready.controller)
  have hpermanent (hasks : effect.asksFor (·.isPermanent) = true) :
      arena.table.lacksPermanent? context.permanent = none := by
    obtain ⟨id, rest, card, htargets, hcard⟩ := hready.exists_permanent hasks
    rw [EffectContext.permanent, htargets]
    exact if_pos (Option.isSome_of_eq_some hcard)
  unfold Effect.isSuited at hsuited
  unfold obstacle?
  cases hkind : effect.kind with
  | drawCards | mill => exact hpiles
  | gainLife | addMana => exact hmaster
  | loseLife => exact if_pos hplayer
  | pump | tap | untap =>
    rw [hkind] at hsuited
    exact hpermanent hsuited
  | dealDamage =>
    rw [hkind] at hsuited
    obtain ⟨choice, rest, slot, htargets, hnotSpell, hlegal⟩ := hready.exists_first hsuited
    rw [htargets]
    cases choice with
    | player id => exact if_pos (legal_player hlegal).1
    | permanent id => exact if_pos (legal_permanent hlegal).1
    | spell id =>
      rw [(legal_spell hlegal).2] at hnotSpell
      exact absurd hnotSpell (by decide)
  | destroy =>
    rw [hkind] at hsuited
    obtain ⟨id, rest, card, htargets, hcard⟩ := hready.exists_permanent hsuited
    rw [htargets]
    dsimp only [Table.lacksBurial?]
    rw [hcard]
    -- an indestructible card stays where it is, any other needs a pile of its owner
    dsimp only
    split
    · rfl
    · obtain ⟨hfield, hthere⟩ := Table.permanent?_eq_some_iff.mp hcard
      obtain ⟨known, hknown, howner⟩ := hregular.sound id (List.contains_iff_mem.mp hfield)
      obtain rfl : card = known := Option.some.inj (hthere.symm.trans hknown)
      exact if_pos howner
  | counterSpell =>
    rw [hkind] at hsuited
    obtain ⟨choice, rest, slot, htargets, hspell, hlegal⟩ := hready.exists_first hsuited
    rw [beq_iff_eq] at hspell
    rw [htargets]
    cases choice with
    | spell id =>
      obtain ⟨marked, hmarked⟩ :=
        StackItem.counter_of_findSpell? hregular.distinct (legal_spell hlegal).1
      dsimp only
      rw [hmarked]
    | player id => exact absurd hspell (legal_player hlegal).2.1
    | permanent id => exact absurd hspell (legal_permanent hlegal).2
  | exile | returnToHand | createToken | grantKeyword | entersTapped | modal =>
    -- kinds that no effect carries out are not suited
    rw [hkind] at hsuited
    exact absurd hsuited Bool.false_ne_true

end Arena

end CardRules
