import CardRules.Proofs.Ability.Mana
import CardRules.Proofs.Engine.CostPaid
import CardRules.Proofs.Stack.Venue

/-!
# Mana abilities and the stack

A mana ability is used out of view of the stack, so whatever its effects are, and whether they go
through or not, no item comes of it and the stack is as it was. A mana ability that was read from a
text does no more than it says: once it was used, its cost is paid and the mana is in the pool.
-/

set_option autoImplicit false

namespace CardRules

/-- The ability was read from a text, and may have been used since. -/
def Ability.WasRead (ability : Ability) : Prop :=
  ∃ (reader : AbilityReader) (text : String) (name : Option String) (card : CardId),
    ∃ read ∈ (reader.read text name card).abilities, read.unused = ability.unused

/-- A mana ability that was read adds mana and does nothing else. -/
theorem Ability.WasRead.effects {ability : Ability} (h : ability.WasRead)
    (hmana : ability.isMana = true) :
    ∃ effect, ability.effects = [effect] ∧ effect.kind = .addMana := by
  obtain ⟨reader, text, name, card, read, hread, hunused⟩ := h
  -- neither the kind nor the effects are counted in uses
  have hkind : read.unused.kind = ability.unused.kind := congrArg Ability.kind hunused
  have heffects : read.unused.effects = ability.unused.effects := congrArg Ability.effects hunused
  obtain ⟨effect, heffect, haddMana, -, -⟩ := reader.addAsWritten_read text name card read hread
    (hkind.trans (beq_iff_eq.mp hmana))
  exact ⟨effect, heffects.symm.trans heffect, haddMana⟩

namespace Scene

open Act

variable {scene : Scene} {id : AbilityId} {ability : Ability}

section

variable {player : PlayerId} {targets : List Choice} {decision : Decision}

theorem stack_of_activate_mana (hregistered : scene.engine.registry.get? id = some ability)
    (hmana : ability.isMana = true) :
    ((activate id player targets decision).outcome scene).2.stack = scene.stack := by
  by_cases hseated : player ∈ scene.stack.seats
  · rw [outcome_activate_mana hseated hregistered hmana]
  · have hvenue : scene.venue? id player = none := by
      rw [venue?, hregistered, Option.bind_some, if_pos hseated]
    obtain ⟨fault, hout⟩ := outcome_activate_refused hvenue targets decision
    rw [hout]

/-- A mana ability that was used has answered with no item, its cost is paid and its effects are
resolved. -/
theorem used_of_activate_mana (hregistered : scene.engine.registry.get? id = some ability)
    (hmana : ability.isMana = true) {answer : Option ItemId} {after : Scene}
    (h : (activate id player targets decision).outcome scene = (.ok answer, after)) :
    answer = none ∧ ∃ cost paid used,
      ability.cost.fixX decision.x = .ok cost ∧
      (Arena.payCost cost ability.source player).outcome (scene.bareArena false) = (.ok (), paid) ∧
      (Arena.resolveAbility ability.recordUse player targets decision).outcome (paid.counted id) =
        (.ok (), used) ∧ after.table = used.table := by
  cases uses_of_activate h with
  | atOnce _ _ cleared payment effects =>
    obtain rfl := Option.some.inj (hregistered.symm.trans cleared.registered)
    exact ⟨rfl, _, _, _, cleared.fixed, payment, effects, rfl⟩
  -- only what is no mana ability waits on the stack
  | onStack _ other _ _ cleared _ =>
    obtain rfl := Option.some.inj (hregistered.symm.trans cleared.registered)
    rw [hmana] at other
    simp at other

end

/-- Mana abilities bypass the stack. Whatever the effects of a registered mana ability are, and whoever
uses it, with whatever targets and decision: there is no new item, and the stack, its items, passes,
priority and numbers, is as it was. If the ability was read from a text and is used with success, the
table is the one with the cost paid, and then with the mana added to the pool of the player. -/
theorem mana_bypasses_stack (hregistered : scene.engine.registry.get? id = some ability)
    (hmana : ability.isMana = true) (player : PlayerId) (targets : List Choice)
    (decision : Decision) :
    let run := activate id player targets decision scene
    (∀ item, run.result ≠ .ok (some item)) ∧ run.state.stack = scene.stack ∧
      (ability.WasRead → run.result.isOk = true →
        ∃ effect cost paid, ability.effects = [effect] ∧ effect.kind = .addMana ∧
          ability.cost.fixX decision.x = .ok cost ∧
          scene.table.CostPaid cost ability.source player paid ∧
          run.state.table = paid.withMana player
            (Mana.produced ability.oracleText (effect.amount decision.x) decision.color)) := by
  intro run
  have hrun : (activate id player targets decision).outcome scene = (run.result, run.state) := rfl
  refine ⟨fun item hitem => ?_, stack_of_activate_mana hregistered hmana, fun hread hok => ?_⟩
  · rw [hitem] at hrun
    obtain ⟨hnone, -⟩ := used_of_activate_mana hregistered hmana hrun
    simp at hnone
  · obtain ⟨answer, hanswer⟩ := isOk_eq_true_iff.mp hok
    rw [hanswer] at hrun
    obtain ⟨-, cost, paid, used, hfixed, hpaid, hused, htable⟩ :=
      used_of_activate_mana hregistered hmana hrun
    obtain ⟨effect, heffects, hkind⟩ := hread.effects hmana
    refine ⟨effect, cost, paid.table, heffects, hkind, hfixed, Arena.costPaid_of_payCost hpaid, ?_⟩
    have heffects : ability.recordUse.effects = [effect] := heffects
    rw [htable, Arena.table_of_resolveAbility heffects hkind hused]
    rfl

/-- An artifact that gives two green mana for one mana when it is sacrificed. -/
def idolText : String := "\x7b1\x7d, \x7bT\x7d, Sacrifice this artifact: Add \x7bG\x7d\x7bG\x7d."

/-- A game in which the second player has a red mana, and the artifact. The first player has
priority. -/
def untappedIdol : Scene where
  table := { Table.seat ["A", "B"] 20 with
    cards := { entries := [(⟨4⟩, .blank ⟨4⟩ "Idol" ⟨2⟩)] }
    players := [{ id := ⟨1⟩, name := "A", life := 20 },
      { id := ⟨2⟩, name := "B", life := 20, manaPool := { red := 1 } }]
    battlefield := { zone := .battlefield, owner := ⟨3⟩, cards := [⟨4⟩] } }
  engine := { registry := { abilities := (({} : AbilityReader).read idolText none
    ⟨4⟩).abilities } }
  stack := { seats := [⟨1⟩, ⟨2⟩], active := ⟨1⟩, holder := ⟨1⟩ }

/-- The artifact is used without priority: it is in the graveyard, the red mana is spent, and the green
mana is there. -/
theorem mana_bypasses_stack_idol :
    let run := activate ⟨1⟩ ⟨2⟩ [] {} untappedIdol
    run.result.isOk = true ∧ run.state.stack = untappedIdol.stack ∧
      (∃ cost paid, untappedIdol.table.CostPaid cost ⟨4⟩ ⟨2⟩ paid ∧
        run.state.table = paid.withMana ⟨2⟩ [(.green, 2)]) ∧
      (run.state.table.player? ⟨2⟩).map (·.manaPool) = some { green := 2 } ∧
      run.state.table.onBattlefield ⟨4⟩ = false := by
  have hread : (untappedIdol.engine.registry.get? ⟨1⟩).map (fun ability =>
      (ability.isMana, ability.source, ability.effects.map (·.amount none),
        Mana.produced ability.oracleText 2 none)) = some (true, ⟨4⟩, [2], [(.green, 2)]) := by
    decide +kernel
  have hok : (activate ⟨1⟩ ⟨2⟩ [] {} untappedIdol).result.isOk = true := by decide +kernel
  obtain ⟨ability, hregistered, hability⟩ := Option.map_eq_some_iff.mp hread
  obtain ⟨hmana, hsource, hamounts, hproduced⟩ : ability.isMana = true ∧ ability.source = ⟨4⟩ ∧
      ability.effects.map (·.amount none) = [2] ∧
        Mana.produced ability.oracleText 2 none = [(.green, 2)] := by simpa using hability
  have hmem : ability ∈ untappedIdol.engine.registry.abilities := List.mem_of_find?_eq_some hregistered
  have hwasRead : ability.WasRead := ⟨{}, idolText, none, ⟨4⟩, ability, hmem, rfl⟩
  obtain ⟨-, hstack, htable⟩ := mana_bypasses_stack hregistered hmana ⟨2⟩ [] {}
  obtain ⟨effect, cost, paid, heffects, -, -, hpaid, htable⟩ := htable hwasRead hok
  have hamount : effect.amount none = 2 := by simpa [heffects] using hamounts
  dsimp only at htable
  rw [hamount, hproduced] at htable
  rw [hsource] at hpaid
  exact ⟨hok, hstack, ⟨cost, paid, hpaid, htable⟩, by decide +kernel, by decide +kernel⟩

end Scene

end CardRules
