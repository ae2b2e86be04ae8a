import CardRules.Proofs.Table.Frame

/-!
# What stands in the way of a change

A change at the table fails if something that it needs is missing: a player, the piles of a player, a
permanent. The fault that it then fails with can be told beforehand from the table alone, and nothing
has been changed (`Act.StoppedBy`). What is missing is found without looking at what the change would
do.
-/

set_option autoImplicit false

namespace CardRules

/-- The success or failure that an obstacle decides. -/
def Fault.verdict : Option Fault → Except Fault Unit
  | none => .ok ()
  | some fault => .error fault

namespace Act

variable {σ : Type}

/-- The action fails exactly if there is an obstacle; under the condition it then changes nothing. -/
structure StoppedBy (obstacle? : Option Fault) (condition : Prop) (act : Act σ Unit) (s : σ) :
    Prop where
  result : (act.outcome s).1 = Fault.verdict obstacle?
  atomic (h : condition) : act.Atomic s

namespace StoppedBy

variable {obstacle? : Option Fault} {condition : Prop} {act : Act σ Unit} {fault : Fault} {s s' : σ}

theorem of_ok (h : act.outcome s = (.ok (), s')) : StoppedBy none condition act s where
  result := congrArg Prod.fst h
  atomic _ := Succeeds.atomic ⟨(), s', h⟩

theorem of_error (h : act.outcome s = (.error fault, s)) :
    StoppedBy (some fault) condition act s where
  result := congrArg Prod.fst h
  atomic _ := .of_unchanged (congrArg Prod.snd h)

/-- What follows an action and cannot fail does not matter. -/
theorem bind {next : Unit → Act σ Unit} (h : StoppedBy obstacle? condition act s)
    (hnext : ∀ after, (next ()).Succeeds after) :
    StoppedBy obstacle? condition (act >>= next) s where
  result := by
    rw [outcome_bind, ← h.result]
    rcases act.outcome s with ⟨fault | _, after⟩
    · rfl
    · obtain ⟨_, _, hout⟩ := hnext after
      dsimp only
      rw [hout]
  atomic hcondition := (h.atomic hcondition).bind_succeeds fun _ after _ => hnext after

/-- The fault of an action names its obstacle. -/
theorem eq_some (h : StoppedBy obstacle? condition act s)
    (hfails : (act.outcome s).1 = .error fault) : obstacle? = some fault := by
  have hverdict := h.result.symm.trans hfails
  cases obstacle? with
  | none => simp [Fault.verdict] at hverdict
  | some other => exact congrArg some (Except.error.inj hverdict)

/-- Under the condition an obstacle leaves everything as it was. -/
theorem outcome_eq (h : StoppedBy (some fault) condition act s) (hcondition : condition) :
    act.outcome s = (.error fault, s) := by
  have hresult := h.result
  rcases hact : act.outcome s with ⟨other | _, after⟩
  · rw [hact] at hresult
    rw [h.atomic hcondition other after hact]
    exact congrArg (Prod.mk · s) hresult
  · rw [hact] at hresult
    simp [Fault.verdict] at hresult

end StoppedBy

end Act

namespace Table

open Act

section Lacks

variable (table : Table)

/-- The player is missing. -/
def lacksPlayer? (id : PlayerId) : Option Fault :=
  if (table.player? id).isSome then none else some (.unknownEntity id)

/-- The player's piles are missing. -/
def lacksPiles? (id : PlayerId) : Option Fault :=
  if (table.zones? id).isSome then none else some (.unknownEntity id)

/-- The permanent is missing. -/
def lacksPermanent? (id : CardId) : Option Fault :=
  if (table.permanent? id).isSome then none else some (.unknownEntity id)

/-- What is to be damaged is missing, or is a spell. -/
def lacksVictim? : Choice → Option Fault
  | .player id => table.lacksPlayer? id
  | .permanent id => table.lacksPermanent? id
  | .spell item => some (.invalidTarget 0 (.undamageable item))

end Lacks

variable {table : Table} {condition : Prop}

theorem stoppedBy_changePlayer (id : PlayerId) (f : Player → Player) :
    StoppedBy (table.lacksPlayer? id) condition (changePlayer id f) table := by
  unfold lacksPlayer?
  cases hplayer : table.player? id with
  | none => exact .of_error (outcome_changePlayer_none hplayer f)
  | some player => exact .of_ok (outcome_changePlayer hplayer f)

theorem stoppedBy_changePermanent (id : CardId) (f : Card → Card) :
    StoppedBy (table.lacksPermanent? id) condition (changePermanent id f) table := by
  unfold lacksPermanent?
  cases hcard : table.permanent? id with
  | none => exact .of_error (outcome_changePermanent_none hcard f)
  | some card => exact .of_ok (outcome_changePermanent hcard f)

theorem stoppedBy_zones {player : PlayerId} {change : PlayerZones → Change Unit}
    (h : ∀ zones, (change zones).Succeeds table) :
    StoppedBy (table.lacksPiles? player) condition (requireZones player >>= change) table := by
  unfold lacksPiles?
  cases hzones : table.zones? player with
  | none => exact .of_error (outcome_bind_error (outcome_requireZones_none hzones) change)
  | some zones =>
    obtain ⟨_, after, hout⟩ := h zones
    exact .of_ok ((outcome_bind_ok (outcome_requireZones hzones) change).trans hout)

theorem stoppedBy_draw (player : PlayerId) (count : Nat) :
    StoppedBy (table.lacksPiles? player) condition (draw player count) table := by
  refine stoppedBy_zones fun zones => Succeeds.of_bind (outcome_modify _ _) ?_
  split
  · exact ⟨_, _, rfl⟩
  · exact ⟨_, _, rfl⟩

theorem stoppedBy_mill (player : PlayerId) (count : Nat) :
    StoppedBy (table.lacksPiles? player) condition (mill player count) table :=
  stoppedBy_zones fun _ => ⟨_, _, rfl⟩

theorem stoppedBy_damage (target : Choice) (amount : Int32) (source : CardId) :
    StoppedBy (table.lacksVictim? target) condition (damage target amount source) table := by
  unfold damage
  cases target with
  | player id => exact (stoppedBy_changePlayer id _).bind fun _ => ⟨_, _, rfl⟩
  | permanent id => exact (stoppedBy_changePermanent id _).bind fun _ => ⟨_, _, rfl⟩
  | spell item => exact .of_error rfl

end Table

end CardRules
