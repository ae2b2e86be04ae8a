import CardRules.Proofs.Stack.Origin
import CardRules.Proofs.Stack.Round

/-!
# Who may act

Passing, casting a spell and using an ability for the stack are for the holder of priority. Each of
them asks for priority before it looks at anything else that could change, so that anybody else is
turned away without a trace, events included (`Scene.turnAway`).

With the origin of items this says who has put what on the stack: what was cast or used came from the
player who held priority when it came. The holder is a seated player throughout, since priority is only
ever handed round the table.
-/

set_option autoImplicit false

namespace CardRules

open Act

namespace Scene

variable {scene : Scene} {player : PlayerId}

/-- What happens to a player who acts without priority: nothing, and the answer is who has it. -/
def turnAway {α : Type} (scene : Scene) (player : PlayerId) : Run Scene α where
  result := .error (.violation (if player ∈ scene.stack.seats then
    .outOfTurn player scene.stack.holder else .unknownPlayer player))
  state := scene

/-- The check for priority turns away whoever does not hold it, and nothing follows. -/
theorem checkPriority_bind {α : Type} (hother : player ≠ scene.stack.holder)
    (next : Unit → Move α) :
    (Act.ofExcept (scene.stack.checkPriority player) >>= next) scene = scene.turnAway player := by
  by_cases hseated : player ∈ scene.stack.seats
  · rw [checkPriority_of_mem hseated hother, turnAway, if_pos hseated]
    apply ofExcept_error_bind_run
  · rw [checkPriority_of_not_mem hseated, turnAway, if_neg hseated]
    apply ofExcept_error_bind_run

theorem pass_turnAway (hother : player ≠ scene.stack.holder) :
    pass player scene = scene.turnAway player := by
  unfold pass
  exact (get_bind_run _ scene).trans (checkPriority_bind hother _)

theorem cast_turnAway (hother : player ≠ scene.stack.holder) (spell : Spell)
    (targets : List Choice) (x : Option UInt32) (lenient : Bool) :
    cast spell player targets x lenient scene = scene.turnAway player := by
  unfold cast
  exact (get_bind_run _ scene).trans (checkPriority_bind hother _)

theorem activate_turnAway (hother : player ≠ scene.stack.holder) {id : AbilityId}
    {ability : Ability} (hregistered : scene.engine.registry.get? id = some ability)
    (hstack : ability.isMana = false) (targets : List Choice) (decision : Decision) :
    activate id player targets decision scene = scene.turnAway player := by
  unfold activate
  refine (get_bind_run _ scene).trans ?_
  by_cases hseated : player ∈ scene.stack.seats
  · rw [checkSeated_of_mem hseated, hregistered]
    refine (ofExcept_ok_bind_run _ _ scene).trans ((require_some_bind_run _ _ _ scene).trans ?_)
    rw [if_neg (Bool.eq_false_iff.mp hstack)]
    exact checkPriority_bind hother _
  · rw [checkSeated_of_not_mem hseated, turnAway, if_neg hseated]
    apply ofExcept_error_bind_run

end Scene

namespace Stack

variable {seats : List PlayerId} {active : PlayerId} {start : Stack}

/-- Priority is exclusive. Whatever calls are made on a stack of distinct players, the holder of
priority is one of them. Whoever else passes, casts a spell or uses a registered ability that is not a
mana ability, in any game with this stack, is turned away and nothing happens. Each spell that was cast
and each such ability that was used during the calls was put on top by the player who held priority
then; and what is on the stack was put there in this way, or pushed there directly. -/
theorem priority_exclusive (hseats : seats.Nodup) (hstart : seat seats active = .ok start)
    (calls : List Call) :
    (start.play calls).holder ∈ seats ∧
      (∀ (scene : Scene) (player : PlayerId), scene.stack = start.play calls →
        player ≠ scene.stack.holder →
          Scene.pass player scene = scene.turnAway player ∧
          (∀ spell targets x lenient,
            Scene.cast spell player targets x lenient scene = scene.turnAway player) ∧
          ∀ id ability, scene.engine.registry.get? id = some ability → ability.isMana = false →
            ∀ targets decision,
              Scene.activate id player targets decision scene = scene.turnAway player) ∧
      (∀ earlier call rest, calls = earlier ++ call :: rest →
        (∀ spell player targets x lenient answer,
          call.operation = .cast spell player targets x lenient →
          call.answer (start.play earlier) = .ok answer →
            player = (start.play earlier).holder ∧
            (start.play earlier).Gains
              { id := (start.play earlier).nextItem, object := .spell spell, controller := player
                targets, x } (call.after (start.play earlier))) ∧
        ∀ id ability player targets decision answer,
          call.operation = .activate id player targets decision →
          call.engine.registry.get? id = some ability → ability.isMana = false →
          call.answer (start.play earlier) = .ok answer →
            player = (start.play earlier).holder ∧
            (start.play earlier).Gains
              { id := (start.play earlier).nextItem, object := .ability ability.recordUse
                controller := player, targets, x := decision.x }
              (call.after (start.play earlier))) ∧
      ∀ item ∈ (start.play calls).items, ∃ earlier call rest, calls = earlier ++ call :: rest ∧
        call.Puts (start.play earlier) item.unmarked := by
  obtain ⟨⟨waiting, hround⟩, -⟩ := inRound_play hseats hstart calls
  refine ⟨hround.holder_mem, ?_, ?_, ?_⟩
  · intro scene player hscene hother
    refine ⟨Scene.pass_turnAway hother, ?_, ?_⟩
    · intro spell targets x lenient
      exact Scene.cast_turnAway hother spell targets x lenient
    · intro id ability hregistered hstack targets decision
      exact Scene.activate_turnAway hother hregistered hstack targets decision
  · intro earlier call rest hcalls
    constructor
    · intro spell player targets x lenient answer hop hanswer
      obtain ⟨new, hout, -⟩ := Call.outcome_of_answer (by rw [hop]; rfl) hanswer
      obtain ⟨payer, mana, hcastable⟩ := Scene.castable_of_outcome hout
      exact ⟨hcastable.priority.symm, (Scene.gains_of_cast hout).2⟩
    · intro id ability player targets decision answer hop hregistered hstack hanswer
      obtain ⟨new?, hout, -⟩ := Call.outcome_of_answer (by rw [hop]; rfl) hanswer
      obtain ⟨-, hpriority, -, -, hgains⟩ := Scene.gains_of_activate hregistered hstack hout
      exact ⟨hpriority.symm, hgains⟩
  · intro item hitem
    obtain ⟨-, rfl⟩ := seat_eq_ok_iff.mp hstart
    exact origin_of_mem rfl calls hitem

/-- An instant that costs nothing. -/
def insight : Spell := { (default : Spell) with name := "Insight", types := [.instant] }

/-- An ability that costs nothing. -/
def brewing : Ability where
  id := .first
  name := "Brewing"
  kind := .activated
  source := ⟨4⟩
  cost := {}
  effects := [{ kind := .drawCards, magnitude := 1 }]

/-- A game of two players with this ability. -/
def brewery (stack : Stack) : Scene where
  table := .seat ["A", "B"] 20
  engine := { registry := { abilities := [brewing] } }
  stack

theorem stack_brewery (stack : Stack) : (brewery stack).stack = stack := rfl

/-- The first player casts the spell and passes, and the second one answers with the ability. -/
def answered : List Call :=
  [.cast insight ⟨1⟩ [] none false, .pass ⟨1⟩, .activate .first ⟨2⟩ [] {}].map fun operation =>
    { operation, table := .seat ["A", "B"] 20, engine := { registry := { abilities := [brewing] } } }

/-- Both got through, and by that the first player has priority again: now the second one is turned
away, and so is somebody who is not seated. -/
theorem priority_exclusive_answered :
    let start : Stack := { seats := [⟨1⟩, ⟨2⟩], active := ⟨1⟩, holder := ⟨1⟩ }
    let scene := brewery (start.play answered)
    scene.stack.items.map (·.controller) = [⟨1⟩, ⟨2⟩] ∧
      (start.play (answered.take 2)).holder = ⟨2⟩ ∧
      (Scene.activate .first ⟨2⟩ [] {} scene).result =
        .error (.violation (.outOfTurn ⟨2⟩ ⟨1⟩)) ∧
      (Scene.activate .first ⟨2⟩ [] {} scene).state = scene ∧
      (Scene.pass ⟨3⟩ scene).result = .error (.violation (.unknownPlayer ⟨3⟩)) := by
  intro start scene
  have hstart : seat [⟨1⟩, ⟨2⟩] ⟨1⟩ = .ok start := rfl
  obtain ⟨-, haway, hput, -⟩ := priority_exclusive (by decide) hstart answered
  have hholder : scene.stack.holder = ⟨1⟩ := by decide
  have hsecond : (⟨2⟩ : PlayerId) ≠ scene.stack.holder := by rw [hholder]; decide
  have hthird : (⟨3⟩ : PlayerId) ≠ scene.stack.holder := by rw [hholder]; decide
  obtain ⟨-, -, hactivate⟩ := haway scene ⟨2⟩ (stack_brewery _) hsecond
  obtain ⟨hpass, -, -⟩ := haway scene ⟨3⟩ (stack_brewery _) hthird
  rw [hactivate .first brewing rfl rfl [] {}, hpass]
  refine ⟨by decide, ?_, by decide, rfl, by decide⟩
  obtain ⟨hpriority, -⟩ := (hput (answered.take 2) _ [] rfl).2 .first brewing ⟨2⟩ [] {}
    (.item ⟨2⟩) rfl rfl rfl (by decide)
  exact hpriority.symm

end Stack

end CardRules
