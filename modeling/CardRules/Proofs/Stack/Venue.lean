import CardRules.Proofs.Engine.Attempt
import CardRules.Proofs.Stack.Moves

/-!
# Where abilities are used

A player uses an ability from the stack, and the stack decides where: a mana ability is used out of
its view, any other one in view of it, with priority and, at sorcery speed, with nothing waiting. This
is all the stack has a say in (`venue?`). Where it says no nothing happens, and where it says yes the
use comes to what it comes to in that arena; what follows is a new item at most.
-/

set_option autoImplicit false

namespace CardRules.Scene

open Act

/-- The arena in which the stack lets a player use a registered ability. -/
def venue? (scene : Scene) (id : AbilityId) (player : PlayerId) : Option Arena :=
  (scene.engine.registry.get? id).bind fun ability =>
    if player ∉ scene.stack.seats then none
    else if ability.isMana then some (scene.bareArena false)
    else if scene.stack.holder = player ∧
        (ability.timing.sorcerySpeed = false ∨ scene.stack.items.isEmpty = true) then
      some scene.arena
    else none

variable {scene : Scene} {id : AbilityId} {player : PlayerId} {targets : List Choice}
  {decision : Decision}

theorem venue?_of_registered {ability : Ability} (hseated : player ∈ scene.stack.seats)
    (hregistered : scene.engine.registry.get? id = some ability) :
    scene.venue? id player =
      if ability.isMana then some (scene.bareArena false)
      else if scene.stack.holder = player ∧
          (ability.timing.sorcerySpeed = false ∨ scene.stack.items.isEmpty = true) then
        some scene.arena
      else none := by
  unfold venue?
  rw [hregistered, Option.bind_some, if_neg (not_not.mpr hseated)]

/-- The stack says yes to a mana ability out of its view, and to any other ability in view of it, to
whoever has priority and in time. -/
theorem venue?_eq_some_iff {arena : Arena} :
    scene.venue? id player = some arena ↔
      ∃ ability, scene.engine.registry.get? id = some ability ∧ player ∈ scene.stack.seats ∧
        (ability.isMana = true ∧ arena = scene.bareArena false ∨
          ability.isMana = false ∧ scene.stack.holder = player ∧
            (ability.timing.sorcerySpeed = false ∨ scene.stack.items.isEmpty = true) ∧
            arena = scene.arena) := by
  unfold venue?
  rw [Option.bind_eq_some_iff]
  refine exists_congr fun ability => and_congr_right fun _ => ?_
  by_cases hseated : player ∈ scene.stack.seats
  · rw [if_neg (not_not.mpr hseated)]
    cases hmana : ability.isMana with
    | true =>
      rw [if_pos rfl, Option.some.injEq, eq_comm]
      simp [hseated]
    | false =>
      rw [if_neg Bool.false_ne_true]
      split
      · rename_i hopen
        rw [Option.some.injEq, eq_comm]
        constructor
        · rintro rfl
          exact ⟨hseated, .inr ⟨rfl, hopen.1, hopen.2, rfl⟩⟩
        · rintro ⟨-, ⟨h, -⟩ | ⟨-, -, -, rfl⟩⟩
          · simp at h
          · rfl
      · rename_i hopen
        constructor
        · intro h
          simp at h
        · rintro ⟨-, ⟨h, -⟩ | ⟨-, hholder, htiming, -⟩⟩
          · simp at h
          · exact absurd ⟨hholder, htiming⟩ hopen
  · rw [if_pos hseated]
    exact ⟨fun h => by simp at h, fun h => absurd h.1 hseated⟩

/-- It is the arena with the stack in view or the one with the stack out of view. -/
theorem arena_of_venue {arena : Arena} (h : scene.venue? id player = some arena) :
    arena = scene.arena ∨ arena = scene.bareArena false := by
  obtain ⟨ability, -, -, ⟨-, harena⟩ | ⟨-, -, -, harena⟩⟩ := venue?_eq_some_iff.mp h
  · exact .inr harena
  · exact .inl harena

theorem engine_of_venue {arena : Arena} (h : scene.venue? id player = some arena) :
    arena.engine = scene.engine := by
  rcases arena_of_venue h with rfl | rfl
  · rfl
  · rfl

/-- A mana ability is used at once, and the stack is put back as it was. -/
theorem outcome_activate_mana {ability : Ability} (hseated : player ∈ scene.stack.seats)
    (hregistered : scene.engine.registry.get? id = some ability) (hmana : ability.isMana = true)
    (targets : List Choice) (decision : Decision) :
    (activate id player targets decision).outcome scene =
      let used := (Arena.activate id player targets decision).outcome (scene.bareArena false)
      (used.1.map fun _ => none,
        { scene with table := used.2.table, engine := used.2.engine }) := by
  have hbare : (inBareArena (Arena.activate id player targets decision) false).outcome scene =
      (((Arena.activate id player targets decision).outcome (scene.bareArena false)).1,
        { scene with
          table := ((Arena.activate id player targets decision).outcome
            (scene.bareArena false)).2.table
          engine := ((Arena.activate id player targets decision).outcome
            (scene.bareArena false)).2.engine }) := rfl
  unfold activate
  rw [outcome_bind_ok (outcome_get scene), checkSeated_of_mem hseated,
    outcome_bind_ok (outcome_ofExcept _ _), hregistered,
    outcome_bind_ok (outcome_require_some _ _ _), if_pos hmana]
  show ((fun _ => none) <$> (fun _ => ()) <$> inBareArena _ false : Move (Option ItemId)).outcome
    scene = _
  rw [outcome_map, outcome_map, hbare]
  rcases (Arena.activate id player targets decision).outcome (scene.bareArena false) with
    ⟨fault | used, after⟩
  · rfl
  · rfl

/-- Any other ability is used in view of the stack, by whoever has priority and in time, and then
waits on top. -/
theorem outcome_activate_other {ability : Ability} (hseated : player ∈ scene.stack.seats)
    (hregistered : scene.engine.registry.get? id = some ability) (hother : ability.isMana = false)
    (hholder : scene.stack.holder = player)
    (htiming : ability.timing.sorcerySpeed = false ∨ scene.stack.items.isEmpty = true)
    (targets : List Choice) (decision : Decision) :
    (activate id player targets decision).outcome scene =
      match (Arena.activate id player targets decision).outcome scene.arena with
      | (.error fault, after) => (.error fault, scene.withArena after)
      | (.ok (.pending object), after) =>
        (some <$> push object player targets decision.x).outcome (scene.withArena after)
      | (.ok .manaResolved, after) => (.ok none, scene.withArena after) := by
  have hpriority : scene.stack.checkPriority player = .ok () :=
    checkPriority_eq_ok_iff.mpr ⟨hseated, hholder.symm⟩
  have hopen : ¬(ability.timing.sorcerySpeed && !scene.stack.items.isEmpty) = true := by
    rw [Bool.not_eq_true, Bool.and_eq_false_iff, Bool.not_eq_false']
    exact htiming
  have harena := outcome_inArena (Arena.activate id player targets decision) scene
  unfold activate
  rw [outcome_bind_ok (outcome_get scene), checkSeated_of_mem hseated,
    outcome_bind_ok (outcome_ofExcept _ _), hregistered,
    outcome_bind_ok (outcome_require_some _ _ _), if_neg (Bool.eq_false_iff.mp hother), hpriority,
    outcome_bind_ok (outcome_ofExcept _ _)]
  dsimp only
  rw [if_neg hopen]
  rcases hused : (Arena.activate id player targets decision).outcome scene.arena with
    ⟨fault | used, after⟩
  · rw [hused] at harena
    rw [outcome_bind_error harena]
  · rw [hused] at harena
    rw [outcome_bind_ok harena]
    cases used with
    | pending object => rfl
    | manaResolved => rfl

/-- Where the stack says no nothing happens. -/
theorem outcome_activate_refused (h : scene.venue? id player = none) (targets : List Choice)
    (decision : Decision) :
    ∃ fault, (activate id player targets decision).outcome scene = (.error fault, scene) := by
  unfold activate
  rw [outcome_bind_ok (outcome_get scene)]
  by_cases hseated : player ∈ scene.stack.seats
  · rw [checkSeated_of_mem hseated, outcome_bind_ok (outcome_ofExcept _ _)]
    cases hregistered : scene.engine.registry.get? id with
    | none => exact ⟨_, outcome_bind_error (outcome_require_none _ _) _⟩
    | some ability =>
      rw [venue?_of_registered hseated hregistered] at h
      rw [outcome_bind_ok (outcome_require_some _ _ _)]
      cases hmana : ability.isMana with
      | true =>
        rw [if_pos hmana] at h
        simp at h
      | false =>
        rw [if_neg (Bool.eq_false_iff.mp hmana)] at h
        rw [if_neg Bool.false_ne_true]
        -- either priority is elsewhere or something waits
        cases hpriority : scene.stack.checkPriority player with
        | error fault => exact ⟨fault, outcome_bind_error (outcome_ofExcept _ _) _⟩
        | ok _ =>
          obtain ⟨-, hholder⟩ := checkPriority_eq_ok_iff.mp hpriority
          have hlate : (ability.timing.sorcerySpeed && !scene.stack.items.isEmpty) = true := by
            rw [← Bool.not_eq_false, Bool.and_eq_false_iff, Bool.not_eq_false']
            intro hopen
            rw [if_pos ⟨hholder.symm, hopen⟩] at h
            simp at h
          rw [outcome_bind_ok (outcome_ofExcept _ _)]
          dsimp only
          rw [if_pos hlate]
          exact ⟨_, outcome_bind_error (outcome_fail _ _) _⟩
  · rw [checkSeated_of_not_mem hseated]
    exact ⟨_, outcome_bind_error (outcome_ofExcept _ _) _⟩

/-- Where the stack says yes the use is up to the arena. -/
theorem activate_venue {arena : Arena} (h : scene.venue? id player = some arena)
    (targets : List Choice) (decision : Decision) :
    ((activate id player targets decision).Succeeds scene ↔
        (Arena.activate id player targets decision).Succeeds arena) ∧
      ((activate id player targets decision).outcome scene).2.engine =
        ((Arena.activate id player targets decision).outcome arena).2.engine := by
  obtain ⟨ability, hregistered, hseated,
    ⟨hmana, rfl⟩ | ⟨hother, hholder, htiming, rfl⟩⟩ := venue?_eq_some_iff.mp h
  · unfold Succeeds
    rw [outcome_activate_mana hseated hregistered hmana]
    rcases hused : (Arena.activate id player targets decision).outcome (scene.bareArena false) with
      ⟨fault | used, after⟩
    · simp [Except.map]
    · simp [Except.map]
  · unfold Succeeds
    rw [outcome_activate_other hseated hregistered hother hholder htiming]
    rcases hused : (Arena.activate id player targets decision).outcome scene.arena with
      ⟨fault | _ | object, after⟩
    · simp [withArena]
    · simp [withArena]
    · refine ⟨⟨fun _ => ⟨_, _, rfl⟩, fun _ => ⟨_, _, rfl⟩⟩, rfl⟩

theorem succeeds_activate :
    (activate id player targets decision).Succeeds scene ↔
      ∃ arena, scene.venue? id player = some arena ∧
        (Arena.activate id player targets decision).Succeeds arena := by
  cases hvenue : scene.venue? id player with
  | none =>
    obtain ⟨fault, hout⟩ := outcome_activate_refused hvenue targets decision
    constructor
    · intro h
      exact absurd h (not_succeeds hout)
    · rintro ⟨arena, harena, -⟩
      simp at harena
  | some arena =>
    rw [(activate_venue hvenue targets decision).1]
    constructor
    · intro h
      exact ⟨arena, rfl, h⟩
    · rintro ⟨arena', harena, h⟩
      rw [Option.some.inj harena]
      exact h

/-- What an ability has come through that is used, and what the game is like afterwards. -/
inductive Uses (scene : Scene) (id : AbilityId) (player : PlayerId) (targets : List Choice)
    (decision : Decision) : Option ItemId → Scene → Prop
  /-- A mana ability has taken effect on what its payment has left. -/
  | atOnce {ability : Ability} {cost : Cost} {paid used : Arena} (seated : player ∈ scene.stack.seats)
      (mana : ability.isMana = true)
      (cleared : Arena.Cleared (scene.bareArena false) id player targets decision ability cost)
      (payment : (Arena.payCost cost ability.source player).outcome (scene.bareArena false) =
        (.ok (), paid))
      (effects : (Arena.resolveAbility ability.recordUse player targets decision).outcome
        (paid.counted id) = (.ok (), used)) :
      Uses scene id player targets decision none
        { scene with table := used.table, engine := used.engine }
  /-- Any other ability is on top of the stack. -/
  | onStack {ability : Ability} {cost : Cost} {paid : Arena} (seated : player ∈ scene.stack.seats)
      (other : ability.isMana = false) (priority : scene.stack.holder = player)
      (timing : ability.timing.sorcerySpeed = false ∨ scene.stack.items.isEmpty = true)
      (cleared : Arena.Cleared scene.arena id player targets decision ability cost)
      (payment : (Arena.payCost cost ability.source player).outcome scene.arena = (.ok (), paid)) :
      Uses scene id player targets decision (some scene.stack.nextItem)
        { scene.withArena (paid.counted id) with
          stack := ((scene.withArena (paid.counted id)).stack.push (.ability ability.recordUse) player
            targets decision.x).2 }

/-- An ability is used in one of these two ways. -/
theorem uses_of_activate {answer : Option ItemId} {after : Scene}
    (h : (activate id player targets decision).outcome scene = (.ok answer, after)) :
    scene.Uses id player targets decision answer after := by
  obtain ⟨arena, hvenue, used, left, hused⟩ := succeeds_activate.mp ⟨_, _, h⟩
  obtain ⟨ability, cost, paid, hcleared, hpaid, hleft⟩ := Arena.cleared_of_activate hused
  have hregistered := hcleared.registered
  rw [engine_of_venue hvenue] at hregistered
  obtain ⟨same, hsame, hseated, hvenue⟩ := venue?_eq_some_iff.mp hvenue
  obtain rfl := Option.some.inj (hregistered.symm.trans hsame)
  rcases hvenue with ⟨hmana, rfl⟩ | ⟨hother, hholder, htiming, rfl⟩
  · obtain ⟨-, heffects⟩ | ⟨hother, -⟩ := hleft
    · rw [outcome_activate_mana hseated hregistered hmana, hused] at h
      obtain ⟨hanswer, rfl⟩ := Prod.mk.inj h
      obtain rfl := Except.ok.inj hanswer
      exact .atOnce hseated hmana hcleared hpaid heffects
    · exact absurd (hmana.symm.trans hother) nofun
  · obtain ⟨hmana, -⟩ | ⟨-, rfl, rfl⟩ := hleft
    · exact absurd (hmana.symm.trans hother) nofun
    · rw [outcome_activate_other hseated hregistered hother hholder htiming, hused] at h
      dsimp only at h
      rw [outcome_map] at h
      obtain ⟨hanswer, rfl⟩ := Prod.mk.inj h
      obtain rfl := Except.ok.inj hanswer
      exact .onStack hseated hother hholder htiming hcleared hpaid

end CardRules.Scene
