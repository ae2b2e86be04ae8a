import CardRules.Proofs.Table.Filed
import CardRules.Proofs.Target.Candidates
import CardRules.Proofs.Target.Shares
import CardRules.Target.Choosing

/-!
# Targets chosen by the program

The program goes through the slots in order and gives each the first legal choice that it has not made
yet. `Picks` is this scan without the order in which the choices are tried: what it says holds for
every preference. A slot is passed over when the slots before it have taken all that is legal for it,
and from then on the choices and the slots do not match any more.

So the choices are accepted exactly if no slot is passed over (`targets_found`). A slot for which more
choices are legal than there are slots before it is never passed over, and neither is one that accepts
all that the slots before it accept, if there are different choices for all slots at all. Otherwise a
choice that was free to go to one slot may be missing for a later one (`crossed_targets_missed`).
-/

set_option autoImplicit false

namespace CardRules

namespace View

/-! ## The scan -/

/-- Whether a choice names a candidate that is legal for a slot. -/
def Offers (view : View) (rules : Untargetability) (player : Player) (colors : List Color)
    (slot : Target) (choice : Choice) : Prop :=
  ∃ candidate, view.candidate? choice = some candidate ∧
    slot.accepts rules candidate player colors = true

/-- What is picked for some slots in order, with these choices made before: something legal that is
not chosen yet, or nothing where there is no such thing. -/
inductive Picks (offers : Target → Choice → Prop) :
    List Choice → List Target → List Choice → Prop where
  | done (chosen : List Choice) : Picks offers chosen [] []
  | pick {chosen picks : List Choice} {slot : Target} {slots : List Target} {choice : Choice}
      (legal : offers slot choice) (free : choice ∉ chosen)
      (rest : Picks offers (chosen ++ [choice]) slots picks) :
      Picks offers chosen (slot :: slots) (choice :: picks)
  | skip {chosen picks : List Choice} {slot : Target} {slots : List Target}
      (taken : ∀ choice, offers slot choice → choice ∈ chosen)
      (rest : Picks offers chosen slots picks) : Picks offers chosen (slot :: slots) picks

namespace Picks

variable {offers : Target → Choice → Prop} {chosen picks : List Choice} {slots : List Target}

theorem length_le (h : Picks offers chosen slots picks) : picks.length ≤ slots.length := by
  induction h with
  | done => exact Nat.le_refl _
  | pick _ _ _ ih => exact Nat.succ_le_succ ih
  | skip _ _ ih => exact Nat.le_succ_of_le ih

/-- Once a slot is passed over, there is not a pick for each. -/
theorem length_ne_cons (h : Picks offers chosen slots picks) (slot : Target) :
    picks.length ≠ (slot :: slots).length :=
  Nat.ne_of_lt (Nat.lt_succ_of_le h.length_le)

/-- Nothing is picked twice. -/
theorem nodup (h : Picks offers chosen slots picks) (hchosen : chosen.Nodup) :
    (chosen ++ picks).Nodup := by
  induction h with
  | done chosen => rwa [List.append_nil]
  | pick _ free _ ih =>
    rw [List.append_cons]
    refine ih (List.nodup_append.mpr ⟨hchosen, List.pairwise_singleton _ _, ?_⟩)
    rintro other hother _ hlast rfl
    exact free (List.mem_singleton.mp hlast ▸ hother)
  | skip _ _ ih => exact ih hchosen

/-- If no slot is passed over, every pick is legal for the slot at its position. -/
theorem legal_of_length (h : Picks offers chosen slots picks) (hfull : picks.length = slots.length) :
    ∀ pair ∈ picks.zip slots, offers pair.2 pair.1 := by
  induction h with
  | done => exact fun pair hpair => absurd hpair List.not_mem_nil
  | pick legal _ _ ih =>
    rw [List.zip_cons_cons, List.forall_mem_cons]
    exact ⟨legal, ih (Nat.succ.inj hfull)⟩
  | skip _ rest _ => exact absurd hfull (rest.length_ne_cons _)

/-- A slot is passed over exactly if all that is legal for it was chosen by the slots before it. -/
theorem length_eq_iff (h : Picks offers chosen slots picks) :
    picks.length = slots.length ↔ ∀ n slot, slots[n]? = some slot →
      ∃ choice, offers slot choice ∧ choice ∉ chosen ++ picks.take n := by
  induction h with
  | done => simp
  | @pick chosen picks first slots choice legal free rest ih =>
    rw [List.length_cons, List.length_cons, Nat.succ_inj, ih]
    constructor
    · intro hrest n slot hslot
      cases n with
      | zero =>
        obtain rfl : first = slot := Option.some.inj hslot
        exact ⟨choice, legal, by rwa [List.take_zero, List.append_nil]⟩
      | succ n =>
        obtain ⟨later, hlater, hfree⟩ := hrest n slot hslot
        exact ⟨later, hlater, by rwa [List.take_succ_cons, List.append_cons]⟩
    · intro hall n slot hslot
      obtain ⟨later, hlater, hfree⟩ := hall (n + 1) slot hslot
      exact ⟨later, hlater, by rwa [List.take_succ_cons, List.append_cons] at hfree⟩
  | @skip chosen picks first slots taken rest ih =>
    refine iff_of_false (rest.length_ne_cons first) fun hall => ?_
    obtain ⟨choice, hlegal, hfree⟩ := hall 0 first rfl
    exact absurd (List.mem_append_left _ (taken choice hlegal)) hfree

/-- A slot with more legal choices than there are slots before it gets one. -/
theorem length_eq_of_many (h : Picks offers [] slots picks)
    (hmany : ∀ n slot, slots[n]? = some slot → ∃ choices : List Choice, choices.Nodup ∧
      n < choices.length ∧ ∀ choice ∈ choices, offers slot choice) :
    picks.length = slots.length := by
  rw [h.length_eq_iff]
  intro n slot hslot
  obtain ⟨choices, hnodup, hlong, hlegal⟩ := hmany n slot hslot
  by_contra hnone
  -- otherwise they all are among the picks for the slots before, which are fewer
  have hsub : choices ⊆ picks.take n := fun choice hchoice => by
    by_contra hfree
    exact hnone ⟨choice, hlegal choice hchoice, by rwa [List.nil_append]⟩
  have hfew := (List.subperm_of_subset hnodup hsub).length_le
  rw [List.length_take] at hfew
  omega

/-- If later slots accept what earlier ones do, different choices for all slots are enough. -/
theorem length_eq_of_widening (h : Picks offers [] slots picks)
    (hwider : slots.Pairwise fun earlier later =>
      ∀ choice, offers earlier choice → offers later choice)
    {choices : List Choice} (hnodup : choices.Nodup) (hlength : choices.length = slots.length)
    (hlegal : ∀ pair ∈ choices.zip slots, offers pair.2 pair.1) : picks.length = slots.length := by
  refine h.length_eq_of_many fun n slot hslot => ?_
  obtain ⟨hn, rfl⟩ := List.getElem?_eq_some_iff.mp hslot
  -- the choices for the slots up to this one are legal for it
  refine ⟨choices.take (n + 1), hnodup.sublist (List.take_sublist _ _), ?_, fun choice hchoice => ?_⟩
  · rw [List.length_take]
    omega
  · obtain ⟨m, hm, rfl⟩ := List.mem_iff_getElem.mp hchoice
    rw [List.length_take] at hm
    have hpair : (choices[m], slots[m]) ∈ choices.zip slots :=
      List.mem_iff_getElem.mpr ⟨m, by rw [List.length_zip]; omega, List.getElem_zip⟩
    rw [List.getElem_take]
    rcases Nat.lt_or_ge m n with hearlier | hlast
    · exact List.pairwise_iff_getElem.mp hwider m n (by omega) hn hearlier _ (hlegal _ hpair)
    · obtain rfl : m = n := by omega
      exact hlegal _ hpair

end Picks

/-! ## What the program chooses -/

variable {view : View} {rules : Untargetability} {player : Player} {colors : List Color}

/-- A candidate is named by the choice it was looked up with. -/
theorem reference_of_candidate? (hfiled : view.table.Filed) {choice : Choice} {candidate : Candidate}
    (h : view.candidate? choice = some candidate) : candidate.reference = choice := by
  cases choice with
  | player id =>
    obtain ⟨player, hplayer, rfl⟩ := Option.map_eq_some_iff.mp h
    exact congrArg Choice.player (Table.id_of_player? hplayer)
  | permanent id =>
    rw [candidate?] at h
    split at h
    · obtain ⟨card, hcard, rfl⟩ := Option.map_eq_some_iff.mp h
      exact congrArg Choice.permanent (hfiled id card hcard)
    · cases h
  | spell item =>
    obtain ⟨found, -, rfl⟩ := Option.map_eq_some_iff.mp h
    rfl

theorem mem_preferred_iff {candidate : Candidate} {caster : PlayerId} :
    candidate ∈ view.preferred caster ↔ ∃ choice, view.candidate? choice = some candidate := by
  rw [← mem_candidates_iff, preferred, List.mem_append, List.mem_filter, List.mem_filter,
    ← and_or_left, Bool.not_eq_true', and_iff_left]
  cases candidate.belongsTo caster
  · exact .inl rfl
  · exact .inr rfl

/-- One slot is filled, or all that is legal for it is taken. -/
theorem fillSlot_cases (hfiled : view.table.Filed) (caster : PlayerId) (chosen : List Choice)
    (slot : Target) :
    (∃ choice, view.Offers rules player colors slot choice ∧ choice ∉ chosen ∧
        fillSlot (view.preferred caster) rules player colors chosen slot = chosen ++ [choice]) ∨
      (∀ choice, view.Offers rules player colors slot choice → choice ∈ chosen) ∧
        fillSlot (view.preferred caster) rules player colors chosen slot = chosen := by
  unfold fillSlot
  dsimp only
  split
  · rename_i candidate hfind
    have hfound := List.find?_some hfind
    obtain ⟨hfree, hlegal⟩ := Bool.and_eq_true_iff.mp hfound
    obtain ⟨choice, hchoice⟩ := mem_preferred_iff.mp (List.mem_of_find?_eq_some hfind)
    obtain rfl := reference_of_candidate? hfiled hchoice
    exact .inl ⟨candidate.reference, ⟨candidate, hchoice, hlegal⟩, by simpa using hfree, rfl⟩
  · rename_i hnone
    refine .inr ⟨?_, rfl⟩
    rintro choice ⟨candidate, hchoice, hlegal⟩
    obtain rfl := reference_of_candidate? hfiled hchoice
    have hbusy := List.find?_eq_none.mp hnone candidate (mem_preferred_iff.mpr ⟨_, hchoice⟩)
    simpa [hlegal] using hbusy

/-- The program makes the choices of the scan. -/
theorem exists_picks (hfiled : view.table.Filed) (caster : PlayerId) (slots : List Target)
    (chosen : List Choice) :
    ∃ picks, Picks (view.Offers rules player colors) chosen slots picks ∧
      slots.foldl (fillSlot (view.preferred caster) rules player colors) chosen = chosen ++ picks := by
  induction slots generalizing chosen with
  | nil => exact ⟨[], .done chosen, (List.append_nil chosen).symm⟩
  | cons slot slots ih =>
    rw [List.foldl_cons]
    rcases fillSlot_cases hfiled caster chosen slot with ⟨choice, hlegal, hfree, hfill⟩ | ⟨htaken, hfill⟩
    · obtain ⟨picks, hpicks, hrest⟩ := ih (chosen ++ [choice])
      exact ⟨choice :: picks, .pick hlegal hfree hpicks, by rw [hfill, hrest, ← List.append_cons]⟩
    · obtain ⟨picks, hpicks, hrest⟩ := ih chosen
      exact ⟨picks, .skip htaken hpicks, by rw [hfill, hrest]⟩

variable {targets : List Target} {caster : PlayerId}

theorem picks_chooseTargets (hfiled : view.table.Filed)
    (hrequired : ∀ target ∈ targets, target.required = true)
    (hplayer : view.table.player? caster = some player) :
    Picks (view.Offers rules player colors) [] (Target.slots targets)
      (view.chooseTargets rules targets caster colors) := by
  have hscan : ∃ picks, Picks (view.Offers rules player colors) [] (Target.slots targets) picks ∧ _ :=
    exists_picks hfiled caster (Target.slots targets) []
  obtain ⟨picks, hpicks, hfold⟩ := hscan
  rw [chooseTargets, hplayer, List.filter_eq_self.mpr hrequired]
  dsimp only
  rw [hfold]
  exact hpicks

/-- Where all slots are required, validation accepts one legal choice for each. -/
theorem validateTargets_required (hrequired : ∀ target ∈ targets, target.required = true)
    (hplayer : view.table.player? caster = some player) (choices : List Choice) :
    view.validateTargets rules targets choices caster colors = .ok () ↔
      choices.length = (Target.slots targets).length ∧
        ∀ pair ∈ choices.zip (Target.slots targets),
          view.Offers rules player colors pair.2 pair.1 := by
  have hslots : (Target.slots targets).filter (·.required) = Target.slots targets := by
    refine List.filter_eq_self.mpr fun slot hslot => ?_
    obtain ⟨target, htarget, hcopy⟩ := List.mem_flatMap.mp hslot
    rw [List.eq_of_mem_replicate hcopy]
    exact hrequired target htarget
  rw [validateTargets_eq_ok_iff, hslots, ← and_assoc, Nat.le_antisymm_iff, and_comm (a := _ ≤ _)]
  refine and_congr_right fun _ => ⟨?_, fun hlegal => ⟨player, hplayer, hlegal⟩⟩
  rintro ⟨other, hother, hlegal⟩
  obtain rfl : player = other := Option.some.inj (hplayer.symm.trans hother)
  exact hlegal

theorem pairwise_of_length_le_one {α : Type} {relation : α → α → Prop} {l : List α}
    (h : l.length ≤ 1) : l.Pairwise relation := by
  rw [List.pairwise_iff_getElem]
  intro i j _ hj hij
  omega

/-- When the program finds targets, where cards are kept under their own numbers, for any required
targets, whatever the rules, the caster and the colors of the source. Without the caster at the table
nothing is accepted. Otherwise no choice is made twice, and the choices are accepted exactly if for each
slot something is legal that was not chosen for the slots before it. That is so if for each slot more
choices are legal than there are slots before it. Where later slots accept what earlier ones do, the
program finds targets whenever different ones are accepted, and for a single slot whenever any are. -/
theorem targets_found (view : View) (rules : Untargetability) (targets : List Target)
    (caster : PlayerId) (colors : List Color) (hfiled : view.table.Filed)
    (hrequired : ∀ target ∈ targets, target.required = true) :
    let slots := Target.slots targets
    let chosen := view.chooseTargets rules targets caster colors
    let accepted (choices : List Choice) :=
      view.validateTargets rules targets choices caster colors = .ok ()
    (view.table.player? caster = none → ∀ choices, ¬accepted choices) ∧
    ∀ player, view.table.player? caster = some player →
      let offers := view.Offers rules player colors
      chosen.Nodup ∧
      (accepted chosen ↔ ∀ n slot, slots[n]? = some slot →
        ∃ choice, offers slot choice ∧ choice ∉ chosen.take n) ∧
      ((∀ n slot, slots[n]? = some slot → ∃ choices : List Choice, choices.Nodup ∧
        n < choices.length ∧ ∀ choice ∈ choices, offers slot choice) → accepted chosen) ∧
      (slots.Pairwise (fun earlier later => ∀ choice, offers earlier choice → offers later choice) →
        (accepted chosen ↔ ∃ choices, choices.Nodup ∧ accepted choices)) ∧
      (slots.length ≤ 1 → (accepted chosen ↔ ∃ choices, accepted choices)) := by
  intro slots chosen accepted
  refine ⟨fun hnobody choices haccepted => ?_, fun player hplayer => ?_⟩
  · obtain ⟨-, -, player, hplayer, -⟩ := (validateTargets_eq_ok_iff _ _ _).mp haccepted
    rw [hnobody] at hplayer
    exact Option.some_ne_none player hplayer.symm
  intro offers
  have hpicks : Picks offers [] slots chosen := picks_chooseTargets hfiled hrequired hplayer
  have hnodup : chosen.Nodup := hpicks.nodup List.nodup_nil
  have haccepted (choices : List Choice) : accepted choices ↔ choices.length = slots.length ∧
      ∀ pair ∈ choices.zip slots, offers pair.2 pair.1 :=
    validateTargets_required hrequired hplayer choices
  have hfull : accepted chosen ↔ chosen.length = slots.length := by
    rw [haccepted]
    exact and_iff_left_of_imp hpicks.legal_of_length
  have hwidening (hwider : slots.Pairwise fun earlier later =>
      ∀ choice, offers earlier choice → offers later choice) :
      accepted chosen ↔ ∃ choices, choices.Nodup ∧ accepted choices := by
    refine ⟨fun h => ⟨chosen, hnodup, h⟩, ?_⟩
    rintro ⟨choices, hdifferent, h⟩
    obtain ⟨hlength, hlegal⟩ := (haccepted choices).mp h
    exact hfull.mpr (hpicks.length_eq_of_widening hwider hdifferent hlength hlegal)
  refine ⟨hnodup, ?_, fun hmany => hfull.mpr (hpicks.length_eq_of_many hmany), hwidening,
    fun hsingle => ?_⟩
  · rw [hfull]
    exact hpicks.length_eq_iff
  · have hwider : slots.Pairwise fun earlier later =>
        ∀ choice, offers earlier choice → offers later choice :=
      pairwise_of_length_le_one hsingle
    rw [hwidening hwider]
    refine ⟨fun ⟨choices, _, h⟩ => ⟨choices, h⟩, fun ⟨choices, h⟩ => ⟨choices, ?_, h⟩⟩
    refine pairwise_of_length_le_one ?_
    rw [((haccepted choices).mp h).1]
    exact hsingle

/-- Two players at the start of a game. -/
def duel : View := { table := Table.seat ["Alice", "Bob"] 20 }

theorem filed_duel : duel.table.Filed := Table.filed_play ["Alice", "Bob"] 20 []

/-- If the opponent is chosen first, the first player is left as a player to be chosen. -/
theorem targets_found_opponent_first :
    let targets : List Target := [{ kind := .opponent }, { kind := .player }]
    duel.chooseTargets .ignored targets ⟨1⟩ [] = [.player ⟨2⟩, .player ⟨1⟩] ∧
      duel.validateTargets .ignored targets (duel.chooseTargets .ignored targets ⟨1⟩ []) ⟨1⟩ [] =
        .ok () := by
  intro targets
  have hchosen : duel.chooseTargets .ignored targets ⟨1⟩ [] = [.player ⟨2⟩, .player ⟨1⟩] := by decide
  obtain ⟨-, hfound⟩ := targets_found duel .ignored targets ⟨1⟩ [] filed_duel (by decide)
  obtain ⟨-, haccepted, -⟩ := hfound { id := ⟨1⟩, name := "Alice", life := 20 } (by rfl)
  refine ⟨hchosen, haccepted.mpr fun n slot hslot => ?_⟩
  rw [hchosen]
  match n, hslot with
  | 0, hslot =>
    obtain rfl := Option.some.inj hslot
    exact ⟨.player ⟨2⟩, ⟨_, rfl, by decide⟩, by decide⟩
  | 1, hslot =>
    obtain rfl := Option.some.inj hslot
    exact ⟨.player ⟨1⟩, ⟨_, rfl, by decide⟩, by decide⟩

/-- In the other order the opponent is taken as the player, and nobody is left for the second slot,
though different targets for both are accepted. -/
theorem crossed_targets_missed :
    let targets : List Target := [{ kind := .player }, { kind := .opponent }]
    duel.validateTargets .ignored targets [.player ⟨1⟩, .player ⟨2⟩] ⟨1⟩ [] = .ok () ∧
      duel.chooseTargets .ignored targets ⟨1⟩ [] = [.player ⟨2⟩] ∧
      duel.validateTargets .ignored targets (duel.chooseTargets .ignored targets ⟨1⟩ []) ⟨1⟩ [] ≠
        .ok () := by
  refine ⟨by rfl, by decide, fun h => ?_⟩
  have hlength := ((validateTargets_eq_ok_iff _ _ _).mp h).1
  exact absurd hlength (by decide)

end View

end CardRules
