import CardRules.Proofs.Engine.Suited
import CardRules.Proofs.Stack.Moves

/-!
# Items whose targets are partly illegal

An item does nothing if all of its targets are illegal as it resolves. If one of them is legal, its
effects are applied in order, each to the targets that were chosen for it, and nobody asks any more
whether these are legal. What ends the resolution early is an effect that does not find what it acts
on; what the effects before it did stays done (`resolves_up_to_obstacle`).

So an illegal target is left alone if it is gone, as no effect reaches a card off the battlefield or
a countered spell (`Untouched`). One that is illegal for another reason is acted on all the same.
-/

set_option autoImplicit false

namespace CardRules

open Act

/-! ## What is out of reach -/

namespace Table

/-- No card has come onto the battlefield, and those that were off it are as they were. -/
structure KeepsOff (before after : Table) : Prop where
  keeps : Keeps before after
  off (id : CardId) (h : before.onBattlefield id = false) : after.card? id = before.card? id

theorem Keeps.off {before after : Table} (h : Keeps before after) {id : CardId}
    (hid : before.onBattlefield id = false) : after.onBattlefield id = false := by
  rw [← Bool.not_eq_true] at hid ⊢
  intro hafter
  exact hid (List.contains_iff_mem.mpr (h.battlefield id (List.contains_iff_mem.mp hafter)))

instance : Std.Refl KeepsOff := ⟨fun table => ⟨Std.Refl.refl table, fun _ _ => rfl⟩⟩

instance : IsTrans Table KeepsOff where
  trans _ _ _ hab hbc := {
    keeps := IsTrans.trans _ _ _ hab.keeps hbc.keeps
    off := fun id hid => (hbc.off id (hab.keeps.off hid)).trans (hab.off id hid) }

theorem keepsOff_destroy (id : CardId) : Along KeepsOff (destroy id) := by
  intro table
  refine ⟨keeps_destroy id table, fun key hkey => ?_⟩
  cases hcard : table.permanent? id with
  | none => rw [outcome_destroy_none hcard]
  | some card =>
    have hne : key ≠ id := by
      rintro rfl
      rw [(permanent?_eq_some_iff.mp hcard).1] at hkey
      exact Bool.noConfusion hkey
    rw [outcome_destroy hcard]
    split
    · rfl
    · split
      · rw [card?_bury, if_neg hne]
      · rfl

end Table

namespace Arena

/-- Cards off the battlefield and countered items are as they were. -/
structure Untouched (before after : Arena) : Prop where
  table : Table.KeepsOff before.table after.table
  countered (item : StackItem) (hitem : item ∈ before.items) (h : item.countered = true) :
    item ∈ after.items

instance : Std.Refl Untouched := ⟨fun arena => ⟨Std.Refl.refl arena.table, fun _ h _ => h⟩⟩

instance : IsTrans Arena Untouched where
  trans _ _ _ hab hbc := {
    table := IsTrans.trans _ _ _ hab.table hbc.table
    countered := fun item hitem h => hbc.countered item (hab.countered item hitem h) h }

theorem untouched_destroy (id : CardId) : Along Untouched (Arena.destroy id) := by
  apply along_destroy
  · exact (Table.keepsOff_destroy id).within fun arena table h => ⟨h, fun _ hitem _ => hitem⟩
  · apply along_leave
    · exact fun arena _ => ⟨Std.Refl.refl arena.table, fun _ hitem _ => hitem⟩
    · exact fun arena _ => ⟨Std.Refl.refl arena.table, fun _ hitem _ => hitem⟩

/-- No effect reaches a card off the battlefield or a countered item. -/
theorem untouched_course : Course Untouched where
  table _ _ h := ⟨⟨h.keeps, h.off⟩, fun _ hitem _ => hitem⟩
  destroy := untouched_destroy
  counter arena _ _ h := ⟨Std.Refl.refl arena.table, fun _ hitem => StackItem.mem_of_counter h hitem⟩

theorem Regular.of_frames {before after : Arena} (h : before.Regular)
    (hkeeps : KeepsTable before after) (hmarks : OnlyMarks before after) : after.Regular where
  seated := h.seated.of_keeps hkeeps
  sound := h.sound.of_keeps hkeeps
  distinct := by
    rw [hmarks.ids]
    exact h.distinct

end Arena

/-! ## Resolution -/

namespace StackItem

/-- An effect of an item is applied to its portion of the chosen targets. -/
def applyPortion (item : StackItem) (portion : Effect × List Choice) : Arena.Move Unit :=
  Arena.applyEffect portion.1 { item.context with targets := portion.2 }

theorem along_forM_applyPortion {R : Arena → Arena → Prop} [Std.Refl R] [IsTrans Arena R]
    (course : Arena.Course R) (item : StackItem) (portions : List (Effect × List Choice)) :
    Along R (portions.forM item.applyPortion) :=
  Along.forM fun portion _ => course.along_applyEffect portion.1 _

end StackItem

namespace Scene

/-- The arena in which the top item resolves; the item is off the stack. -/
def resolving (scene : Scene) : Arena := arena { scene with stack := scene.stack.pop }

/-- The scene after its top item has resolved. -/
def resolvedTo (scene : Scene) (arena : Arena) : Scene where
  table := arena.table
  engine := arena.engine
  stack := Stack.reset { scene.stack with items := arena.items }

variable {scene : Scene} {item : StackItem}

/-- An item fizzles if there are choices and each that has a slot is illegal for it. -/
theorem fizzles_eq_true_iff :
    scene.fizzles item = true ↔
      item.targets ≠ [] ∧ ∀ pair ∈ item.targets.zip (Target.slots item.object.targets),
        scene.arena.legal item pair = false := by
  have hlegal (pair : Choice × Target) : scene.arena.legal item pair =
      (scene.arena.table.player? item.controller).any fun player =>
        (scene.arena.candidate? pair.1).any fun candidate =>
          pair.2.accepts scene.engine.rules candidate player
            (objectColors scene.table item.object) := rfl
  unfold fizzles View.allIllegal
  rw [Bool.and_eq_true, Bool.not_eq_true', List.isEmpty_eq_false_iff]
  refine and_congr_right fun _ => ?_
  simp only [hlegal]
  cases scene.arena.table.player? item.controller with
  | none => simp
  | some player =>
    simp only [List.all_eq_true, Option.any_some]
    refine forall₂_congr fun pair _ => ?_
    cases scene.arena.candidate? pair.1 with
    | none => simp
    | some candidate => simp

/-- An item with a legal target does not fizzle. -/
theorem fizzles_eq_false {pair : Choice × Target}
    (hpair : pair ∈ item.targets.zip (Target.slots item.object.targets))
    (h : scene.arena.legal item pair = true) : scene.fizzles item = false := by
  rw [← Bool.not_eq_true, fizzles_eq_true_iff]
  rintro ⟨-, hillegal⟩
  exact Bool.false_ne_true ((hillegal pair hpair).symm.trans h)

/-- The effects of an item have been applied up to one that meets an obstacle. -/
structure StopsAt (scene : Scene) (item : StackItem) (portion : Effect × List Choice)
    (arena : Arena) (fault : Fault) : Prop where
  applied : ∃ done rest,
    Arena.portions item.object.effects item.targets = done ++ portion :: rest ∧
      (done.forM item.applyPortion).outcome scene.resolving = (.ok (), arena)
  obstacle : arena.obstacle? portion.1 { item.context with targets := portion.2 } = some fault

namespace StopsAt

variable {portion : Effect × List Choice} {arena : Arena} {fault : Fault}

theorem along {R : Arena → Arena → Prop} [Std.Refl R] [IsTrans Arena R] (course : Arena.Course R)
    (h : StopsAt scene item portion arena fault) : R scene.resolving arena := by
  obtain ⟨done, -, -, hdone⟩ := h.applied
  have halong := StackItem.along_forM_applyPortion course item done scene.resolving
  rw [hdone] at halong
  exact halong

theorem mem_portions (h : StopsAt scene item portion arena fault) :
    portion ∈ Arena.portions item.object.effects item.targets := by
  obtain ⟨done, rest, hportions, -⟩ := h.applied
  rw [hportions]
  exact List.mem_append_right _ List.mem_cons_self

theorem regular (h : StopsAt scene item portion arena fault)
    (hregular : scene.resolving.Regular) : arena.Regular :=
  hregular.of_frames (h.along Arena.keepsTable_frame.course) (h.along Arena.onlyMarks_frame.course)

/-- The effect that stops changes nothing. -/
theorem outcome_applyPortion (h : StopsAt scene item portion arena fault)
    (hregular : scene.resolving.Regular) :
    (item.applyPortion portion).outcome arena = (.error fault, arena) := by
  have hstopped : StoppedBy (some fault) arena.table.Sound (item.applyPortion portion) arena := by
    rw [← h.obstacle]
    exact Arena.stoppedBy_applyEffect portion.1 _
  exact hstopped.outcome_eq (h.regular hregular).sound

/-- At the effect that stops, something is amiss with a target of its own. -/
theorem exists_illegal (h : StopsAt scene item portion arena fault)
    (hregular : scene.resolving.Regular) (hserved : Arena.Served item.object.effects item.targets)
    (hcontroller : (scene.table.player? item.controller).isSome = true)
    (hsuited : portion.1.isSuited = true) :
    ∃ pair ∈ portion.2.zip (Target.slots portion.1.targets), arena.legal item pair = false := by
  by_contra hnone
  have hkeeps : Table.Keeps scene.table arena.table := h.along Arena.keepsTable_frame.course
  have hready : Arena.Ready arena item portion.1 portion.2 := {
    controller := by
      rw [Table.player?_isSome] at hcontroller ⊢
      rw [hkeeps.seats]
      exact hcontroller
    served := (Target.served_iff _ _).mp (hserved portion h.mem_portions)
    fit := Arena.length_portion_le portion h.mem_portions
    legal := by
      intro pair hpair
      by_contra hillegal
      exact hnone ⟨pair, hpair, Bool.not_eq_true _ ▸ hillegal⟩ }
  have hclear : arena.obstacle? portion.1 { item.context with targets := portion.2 } = none :=
    Arena.obstacle?_eq_none (h.regular hregular) hsuited rfl hready
  rw [h.obstacle] at hclear
  exact Option.some_ne_none fault hclear

end StopsAt

section Live

variable (htop : scene.stack.top? = some item) (hlive : item.countered = false)
  (hlegal : ∃ pair ∈ item.targets.zip (Target.slots item.object.targets),
    scene.resolving.legal item pair = true)

include htop hlive hlegal

/-- The resolution of an item that has a legal target is the application of its effects. -/
theorem outcome_resolveTop_legal :
    resolveTop.outcome scene =
      let applied := ((Arena.portions item.object.effects item.targets).forM
        item.applyPortion).outcome scene.resolving
      (applied.1.map fun _ => .resolved item.id, scene.resolvedTo applied.2) := by
  obtain ⟨pair, hpair, hlegal⟩ := hlegal
  have hfizzles : fizzles { scene with stack := scene.stack.pop } item = false :=
    fizzles_eq_false hpair hlegal
  have happly : Arena.applyEffects item.object.effects item.context =
      (Arena.portions item.object.effects item.targets).forM item.applyPortion :=
    Arena.applyEffects_eq_forM item.object.effects item.context
  rw [outcome_resolveTop_some htop, outcome_resolveItem, hlive, hfizzles, happly]
  rfl

/-- What the resolution of an item with a legal target leaves alone. -/
theorem untouched_resolveTop :
    Arena.Untouched scene.resolving (resolveTop.outcome scene).2.arena := by
  have huntouched := StackItem.along_forM_applyPortion Arena.untouched_course item
    (Arena.portions item.object.effects item.targets) scene.resolving
  rw [outcome_resolveTop_legal htop hlive hlegal]
  exact ⟨huntouched.table, huntouched.countered⟩

/-- A resolution with a legal target comes to an end, or to an obstacle. -/
theorem resolveTop_stops :
    (∃ arena, ((Arena.portions item.object.effects item.targets).forM
        item.applyPortion).outcome scene.resolving = (.ok (), arena) ∧
      resolveTop.outcome scene = (.ok (.resolved item.id), scene.resolvedTo arena)) ∨
      ∃ portion arena fault, StopsAt scene item portion arena fault ∧
        resolveTop.outcome scene =
          (.error fault, scene.resolvedTo ((item.applyPortion portion).outcome arena).2) := by
  rw [outcome_resolveTop_legal htop hlive hlegal]
  rcases outcome_forM_cases item.applyPortion
    (Arena.portions item.object.effects item.targets) scene.resolving with
    ⟨arena, hall⟩ | ⟨done, portion, rest, arena, fault, hportions, hdone, hfails, hstops⟩
  · rw [hall]
    exact .inl ⟨arena, rfl, rfl⟩
  · rw [hstops]
    refine .inr ⟨portion, arena, fault, ⟨⟨done, rest, hportions, hdone⟩, ?_⟩, rfl⟩
    exact (Arena.stoppedBy_applyEffect _ _).eq_some hfails

end Live

/-- An item with accepted targets of which one is still legal is neither countered nor fizzles. Its
effects are applied in order, each to the targets that were chosen for it, until one of them meets an
obstacle; the answer is its fault, or that the item has resolved if there is none. Whatever comes of
it, cards off the battlefield and countered spells are left alone. On a regular scene the effect that
stops changes nothing; and if it is suited, and no required target stands behind an optional one, then
a target of its own is illegal as its turn comes. -/
theorem resolves_up_to_obstacle {earlier : View} {rules : Untargetability} {colors : List Color}
    (htop : scene.stack.top? = some item) (hlive : item.countered = false)
    (haccepted : earlier.validateTargets rules item.object.targets item.targets item.controller
      colors = .ok ())
    (hlegal : ∃ pair ∈ item.targets.zip (Target.slots item.object.targets),
      scene.resolving.legal item pair = true) :
    Arena.Untouched scene.resolving (resolveTop.outcome scene).2.arena ∧
      ((∃ arena, ((Arena.portions item.object.effects item.targets).forM
          item.applyPortion).outcome scene.resolving = (.ok (), arena) ∧
        resolveTop.outcome scene = (.ok (.resolved item.id), scene.resolvedTo arena)) ∨
      ∃ portion arena fault, StopsAt scene item portion arena fault ∧
        resolveTop.outcome scene =
          (.error fault, scene.resolvedTo ((item.applyPortion portion).outcome arena).2) ∧
        (scene.resolving.Regular →
          (resolveTop.outcome scene).2 = scene.resolvedTo arena ∧
          (portion.1.isSuited = true → Target.RequiredFirst item.object.targets →
            ∃ pair ∈ portion.2.zip (Target.slots portion.1.targets),
              arena.legal item pair = false))) := by
  refine ⟨untouched_resolveTop htop hlive hlegal, ?_⟩
  rcases resolveTop_stops htop hlive hlegal with hresolved | ⟨portion, arena, fault, hstops, hout⟩
  · exact .inl hresolved
  · refine .inr ⟨portion, arena, fault, hstops, hout, fun hregular => ⟨?_, fun hsuited hfirst => ?_⟩⟩
    · have hunchanged : (item.applyPortion portion).outcome arena = (.error fault, arena) :=
        hstops.outcome_applyPortion hregular
      rw [hout, hunchanged]
    · obtain ⟨pair, -, hpair⟩ := hlegal
      obtain ⟨player, hplayer, -⟩ := Arena.legal_eq_true_iff.mp hpair
      have hserved := Arena.served_of_required_first haccepted hfirst
      exact hstops.exists_illegal hregular hserved (Option.isSome_of_eq_some hplayer) hsuited

/-- One damage to a creature of an opponent, and the destruction of two creatures. -/
def spite : StackItem where
  id := .first
  object := .spell { (default : Spell) with
    effects := [{ kind := .dealDamage, magnitude := 1
                  targets := [{ kind := .creature
                                restrictions := [{ trait := .controller .opponent }] }] },
      { kind := .destroy, magnitude := 0, targets := [{ kind := .creature }] },
      { kind := .destroy, magnitude := 0, targets := [{ kind := .creature }] }] }
  controller := ⟨1⟩
  targets := [.permanent ⟨4⟩, .permanent ⟨5⟩, .permanent ⟨6⟩]

/-- Two players and three creatures of the second one. -/
def threeCreatures : Table :=
  { Table.seat ["A", "B"] 20 with
    cards := { entries := [4, 5, 6].map fun n =>
      (⟨n⟩, { Card.blank ⟨n⟩ "C" ⟨2⟩ with types := [.creature] }) }
    battlefield := { zone := .battlefield, owner := ⟨3⟩, cards := [⟨4⟩, ⟨5⟩, ⟨6⟩] } }

/-- The first creature has been taken over and the second one is back in a hand. -/
def spiteOnTop : Scene where
  table := (Table.move ⟨5⟩ .battlefield .hand threeCreatures).state.updateCard ⟨4⟩
    fun card => { card with controller := ⟨1⟩ }
  engine := {}
  stack := { items := [spite], seats := [⟨1⟩, ⟨2⟩], active := ⟨1⟩, holder := ⟨1⟩ }

/-- The resolution stops at the creature that is gone, before it comes to the last one. -/
theorem resolves_up_to_obstacle_spite :
    spiteOnTop.stack.top? = some spite ∧ spite.countered = false ∧
      View.validateTargets { table := threeCreatures } .ignored spite.object.targets spite.targets
        spite.controller [] = .ok () ∧
      spiteOnTop.resolving.Regular ∧
      (∃ pair ∈ spite.targets.zip (Target.slots spite.object.targets),
        spiteOnTop.resolving.legal spite pair = true) ∧
      ∃ portion arena fault, StopsAt spiteOnTop spite portion arena fault ∧
        resolveTop.outcome spiteOnTop = (.error fault, spiteOnTop.resolvedTo arena) ∧
        ∃ pair ∈ portion.2.zip (Target.slots portion.1.targets),
          arena.legal spite pair = false := by
  have hvalid : View.validateTargets { table := threeCreatures } .ignored spite.object.targets
      spite.targets spite.controller [] = .ok () := by rfl
  have hlegal : ∃ pair ∈ spite.targets.zip (Target.slots spite.object.targets),
      spiteOnTop.resolving.legal spite pair = true := by decide
  have hregular : spiteOnTop.resolving.Regular := {
    seated := by
      unfold Table.Seated
      decide
    sound := by
      intro id hid
      have hfield : id ∈ [(⟨4⟩ : CardId), ⟨6⟩] := hid
      rcases List.mem_pair.mp hfield with rfl | rfl
      · exact ⟨_, rfl, rfl⟩
      · exact ⟨_, rfl, rfl⟩
    distinct := by decide }
  have hfirst : Target.RequiredFirst spite.object.targets := by
    unfold Target.RequiredFirst
    decide
  have hsuited : ∀ portion ∈ Arena.portions spite.object.effects spite.targets,
      portion.1.isSuited = true := by decide
  refine ⟨rfl, rfl, hvalid, hregular, hlegal, ?_⟩
  rcases (resolves_up_to_obstacle rfl rfl hvalid hlegal).2 with
    ⟨arena, -, hout⟩ | ⟨portion, arena, fault, hstops, hout, hrest⟩
  · have hfails : (resolveTop.outcome spiteOnTop).1 = .error (.unknownEntity ⟨5⟩) := by rfl
    rw [hout] at hfails
    exact absurd hfails (by simp)
  · obtain ⟨hstate, hillegal⟩ := hrest hregular
    refine ⟨portion, arena, fault, hstops, Prod.ext ?_ hstate, ?_⟩
    · rw [hout]
    · exact hillegal (hsuited portion hstops.mem_portions) hfirst

/-- An illegal target that is still there is damaged, and a legal one is not destroyed. -/
theorem partly_illegal_stops :
    View.validateTargets { table := threeCreatures } .ignored spite.object.targets spite.targets
        spite.controller [] = .ok () ∧
      spiteOnTop.stack.top? = some spite ∧ spite.countered = false ∧
      (spite.targets.zip (Target.slots spite.object.targets)).map
        (spiteOnTop.resolving.legal spite) = [false, false, true] ∧
      (resolveTop spiteOnTop).result = .error (.unknownEntity ⟨5⟩) ∧
      ((resolveTop spiteOnTop).state.table.card? ⟨4⟩).map (·.damage) = some 1 ∧
      (resolveTop spiteOnTop).state.table.onBattlefield ⟨6⟩ = true := by
  refine ⟨by rfl, rfl, rfl, by decide, by rfl, by decide, by decide⟩

end Scene

end CardRules
