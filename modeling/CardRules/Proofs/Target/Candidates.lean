import CardRules.Proofs.Engine.Attempt

/-!
# The candidates in view

Choices are looked up one by one, and all candidates are listed by going through the players, the
battlefield and the open spells. Whatever can be looked up is listed (`mem_choices_of_candidate?`),
so the list has exactly the candidates that some choice names (`mem_candidates_iff`).

Asking the list whether a slot can be filled is therefore as good as trying every choice, and an
ability is denied for want of targets only where that fails (`noLegalTargets_exact`).
-/

set_option autoImplicit false

namespace CardRules

/-- A spell that can be looked up is among those that are listed. -/
theorem StackItem.mem_openSpells_of_findSpell? {items : List StackItem} {id : ItemId}
    {found : Spell × PlayerId} (h : findSpell? items id = some found) : id ∈ openSpells items := by
  unfold findSpell? at h
  obtain ⟨item, hfind, hitem⟩ := Option.bind_eq_some_iff.mp h
  obtain ⟨spell, hspell, -⟩ := Option.bind_eq_some_iff.mp hitem
  have hlive := List.find?_some hfind
  obtain ⟨hid, huncountered⟩ := Bool.and_eq_true_iff.mp hlive
  have hopen : item.isOpenSpell = true :=
    Bool.and_eq_true_iff.mpr ⟨Option.isSome_of_eq_some hspell, huncountered⟩
  exact List.mem_map.mpr
    ⟨item, List.mem_filter.mpr ⟨List.mem_of_find?_eq_some hfind, hopen⟩, beq_iff_eq.mp hid⟩

namespace View

variable {view : View}

/-! ## Lookup and list -/

/-- A choice that names a candidate is listed. -/
theorem mem_choices_of_candidate? {choice : Choice} {candidate : Candidate}
    (h : view.candidate? choice = some candidate) : choice ∈ view.choices := by
  unfold choices
  rw [List.mem_append, List.mem_append]
  cases choice with
  | player id =>
    obtain ⟨player, hplayer, -⟩ := Option.map_eq_some_iff.mp h
    have hseated : id ∈ view.table.seats :=
      (view.table.player?_isSome id).mp (Option.isSome_of_eq_some hplayer)
    exact .inl (.inl (List.mem_map_of_mem hseated))
  | permanent id =>
    have hfield : view.table.onBattlefield id = true := by
      by_contra hoff
      rw [candidate?, if_neg hoff] at h
      exact Option.some_ne_none candidate h.symm
    exact .inl (.inr (List.mem_map_of_mem (List.contains_iff_mem.mp hfield)))
  | spell item =>
    obtain ⟨found, hfound, -⟩ := Option.map_eq_some_iff.mp h
    exact .inr (List.mem_map_of_mem (StackItem.mem_openSpells_of_findSpell? hfound))

theorem mem_candidates_iff {candidate : Candidate} :
    candidate ∈ view.candidates ↔ ∃ choice, view.candidate? choice = some candidate := by
  rw [candidates, List.mem_filterMap]
  constructor
  · rintro ⟨choice, -, hchoice⟩
    exact ⟨choice, hchoice⟩
  · rintro ⟨choice, hchoice⟩
    exact ⟨choice, mem_choices_of_candidate? hchoice, hchoice⟩

theorem any_candidates_iff {legal : Candidate → Bool} :
    view.candidates.any legal = true ↔
      ∃ choice candidate, view.candidate? choice = some candidate ∧ legal candidate = true := by
  simp only [List.any_eq_true, mem_candidates_iff]
  constructor
  · rintro ⟨candidate, ⟨choice, hchoice⟩, hlegal⟩
    exact ⟨choice, candidate, hchoice, hlegal⟩
  · rintro ⟨choice, candidate, hchoice, hlegal⟩
    exact ⟨candidate, ⟨choice, hchoice⟩, hlegal⟩

/-! ## Want of targets -/

/-- An ability of a player requires a target for which no choice at all is legal. -/
def Stranded (view : View) (rules : Untargetability) (ability : Ability) (controller : PlayerId) :
    Prop :=
  ∃ player, view.table.player? controller = some player ∧
    ∃ target ∈ ability.targets, target.required = true ∧
      ∀ choice candidate, view.candidate? choice = some candidate →
        target.accepts rules candidate player (view.table.colorsOf ability.source) = false

variable {rules : Untargetability} {ability : Ability} {controller : PlayerId}

theorem checkTargets_eq_noLegalTargets_iff :
    view.checkTargets rules ability controller = .error (.denied .noLegalTargets) ↔
      view.Stranded rules ability controller := by
  unfold checkTargets Stranded
  constructor
  · intro h
    split at h
    · cases hplayer : view.table.player? controller with
      | none => simp [hplayer] at h
      | some player =>
        rw [hplayer] at h
        obtain ⟨hstranded, -⟩ := demand_eq_error_iff.mp h
        obtain ⟨target, htarget, hnone⟩ := List.all_eq_false.mp hstranded
        obtain ⟨hmem, hrequired⟩ := List.mem_filter.mp htarget
        refine ⟨player, rfl, target, hmem, hrequired, fun choice candidate hchoice => ?_⟩
        rw [← Bool.not_eq_true]
        exact fun hlegal => hnone (any_candidates_iff.mpr ⟨choice, candidate, hchoice, hlegal⟩)
    · simp at h
  · rintro ⟨player, hplayer, target, hmem, hrequired, hnone⟩
    rw [if_pos (Ability.requiresTargets_of_mem hmem hrequired), hplayer]
    refine demand_eq_error_iff.mpr ⟨List.all_eq_false.mpr ⟨target, ?_, ?_⟩, rfl⟩
    · exact List.mem_filter.mpr ⟨hmem, hrequired⟩
    · rw [any_candidates_iff]
      rintro ⟨choice, candidate, hchoice, hlegal⟩
      exact Bool.false_ne_true ((hnone choice candidate hchoice).symm.trans hlegal)

/-- The targets are looked at last: an ability is denied for want of them if it passes every other
check and is stranded. -/
theorem checkActivation_eq_noLegalTargets_iff :
    view.checkActivation rules ability controller = .error (.denied .noLegalTargets) ↔
      ability.kind.isActivatable = true ∧
      ((view.table.card? ability.source).all fun card => card.controller == controller) = true ∧
      view.checkTiming ability.timing controller = .ok () ∧
      checkUsage ability = .ok () ∧
      view.checkUntapped ability = .ok () ∧
      view.affords ability.cost.withoutX ability.source controller = true ∧
      view.Stranded rules ability controller := by
  rw [checkActivation_eq_late_iff (.inr rfl), checkTargets_eq_noLegalTargets_iff]
  simp only [Fault.denied.injEq, reduceCtorEq, and_false, false_or]

/-- No candidate is overlooked: whatever the verdict on candidates, some listed candidate passes
exactly if there is any choice that names one that does, with the stack in view or out of it. So an
ability that passes every other check is denied for want of targets exactly if it requires a target
for which no choice whatever is legal. -/
theorem noLegalTargets_exact (view : View) :
    (∀ (validator : Target → Candidate → Player → List Color → Bool) (target : Target)
        (player : Player) (colors : List Color),
      (view.candidates.any fun candidate => validator target candidate player colors) = true ↔
        ∃ choice candidate, view.candidate? choice = some candidate ∧
          validator target candidate player colors = true) ∧
    ∀ (rules : Untargetability) (ability : Ability) (controller : PlayerId),
      view.checkActivation rules ability controller = .error (.denied .noLegalTargets) ↔
        ability.kind.isActivatable = true ∧
        ((view.table.card? ability.source).all fun card => card.controller == controller) = true ∧
        view.checkTiming ability.timing controller = .ok () ∧
        checkUsage ability = .ok () ∧
        view.checkUntapped ability = .ok () ∧
        view.affords ability.cost.withoutX ability.source controller = true ∧
        view.Stranded rules ability controller :=
  ⟨fun _ _ _ _ => any_candidates_iff, fun _ _ _ => checkActivation_eq_noLegalTargets_iff⟩

/-- An ability on the stack is no target for a counterspell, and a spell only until it is countered. -/
example :
    let counterspell : Ability := { (default : Ability) with
      kind := .activated
      effects := [{ kind := .counterSpell, magnitude := 0, targets := [{ kind := .spell }] }] }
    let spell : StackItem :=
      { id := .first, object := .spell default, controller := ⟨2⟩, targets := [] }
    let ability : StackItem :=
      { id := ⟨2⟩, object := .ability counterspell, controller := ⟨2⟩, targets := [.spell .first] }
    let answer (items : List StackItem) :=
      View.checkActivation { table := Table.seat ["A", "B"] 20, items } .keywords counterspell ⟨1⟩
    answer [spell, ability] = .ok () ∧
      answer [{ spell with countered := true }, ability] = .error (.denied .noLegalTargets) := by
  decide

end View

end CardRules
