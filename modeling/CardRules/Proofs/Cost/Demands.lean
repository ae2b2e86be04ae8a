import CardRules.Proofs.Cost.Combined
import CardRules.Proofs.Cost.Fragments
import CardRules.Proofs.Mana.Production

/-!
# What a written cost asks for

A written cost asks for a list of things (`demands`): each fragment for what its symbols or its
words mean, or else for itself, word for word. A symbol means one of five things (`Means`), or
nothing. The cost that is read is the total of what is asked for (`ofText_eq_total`).
-/

set_option autoImplicit false

namespace CardRules

open Text

/-- One thing that a written cost asks for. -/
inductive Demand where
  | tap
  | untap
  | x
  | generic (n : UInt8)
  | color (color : Color)
  /-- A symbol without a meaning. -/
  | unknown (symbol : List Char)
  | sacrifice
  | discard (count : UInt8)
  | life (amount : Int32)
  /-- A fragment that says nothing. -/
  | words (fragment : List Char)
deriving DecidableEq

namespace Demand

/-! ## Symbols -/

/-- The contents of a symbol of mana, blanks around them disregarded. -/
inductive MeansMana : List Char → Demand → Prop
  | generic {symbol : List Char} {n : UInt8} (h : byte? (trim symbol) = some n) :
      MeansMana symbol (.generic n)
  | x {symbol : List Char} (h : lower (trim symbol) = ['x']) : MeansMana symbol .x
  | color {symbol : List Char} {letter : Char} {k : Color} (h : trim symbol = [letter])
      (hletter : Color.ofSymbol? letter = some k) : MeansMana symbol (.color k)

/-- The contents of a symbol, and what it asks for. -/
inductive Means : List Char → Demand → Prop
  | tap {symbol : List Char} (h : lower symbol = ['t']) : Means symbol .tap
  | untap {symbol : List Char} (h : lower symbol = ['q']) : Means symbol .untap
  | mana {symbol : List Char} {demand : Demand} (h : MeansMana symbol demand) : Means symbol demand

/-- The mana or X that a symbol asks for. -/
def ofMana (symbol : List Char) : Demand :=
  match byte? (trim symbol) with
  | some n => .generic n
  | none =>
    if sameLetters (trim symbol) ['x'] then .x
    else match trim symbol with
      | [c] => match Color.ofSymbol? c with
        | some k => .color k
        | none => .unknown symbol
      | _ => .unknown symbol

/-- What a symbol asks for. -/
def ofSymbol (symbol : List Char) : Demand :=
  if sameLetters symbol ['t'] then .tap
  else if sameLetters symbol ['q'] then .untap
  else ofMana symbol

theorem meansMana_ofMana (symbol : List Char) :
    MeansMana symbol (ofMana symbol) ∨ ofMana symbol = .unknown symbol := by
  unfold ofMana
  split
  · rename_i n hn
    exact .inl (.generic hn)
  split
  · rename_i hx
    exact .inl (.x (sameLetters_iff.mp hx))
  split
  · rename_i c hc
    split
    · rename_i k hk
      exact .inl (.color hc hk)
    · exact .inr rfl
  · exact .inr rfl

theorem MeansMana.ofMana {symbol : List Char} {demand : Demand} (h : MeansMana symbol demand) :
    ofMana symbol = demand := by
  rw [Demand.ofMana]
  cases h with
  | generic hn => rw [hn]
  | x h =>
    obtain ⟨hbyte, hx⟩ : byte? (trim symbol) = none ∧ sameLetters (trim symbol) ['x'] = true := by
      rcases eq_of_lower_singleton 'X' h rfl with htrim | htrim <;> rw [htrim] <;> decide
    rw [hbyte, hx]
    rfl
  | @color letter _ htrim hletter =>
    have hno : ∀ letter ∈ "WUBRGCwubrgc".toList,
        byte? [letter] = none ∧ sameLetters [letter] ['x'] = false := forall_mem_of_all (by decide)
    obtain ⟨hbyte, hx⟩ := hno letter (Color.mem_of_ofSymbol? (Option.isSome_of_eq_some hletter))
    simp [htrim, hbyte, hx, hletter]

theorem MeansMana.ne_unknown {symbol other : List Char} {demand : Demand}
    (h : MeansMana symbol demand) : demand ≠ .unknown other := by
  cases h <;> simp

/-- The letters for tapping and untapping are no mana. -/
theorem ofMana_of_alone {symbol : List Char} (h : lower symbol = ['t'] ∨ lower symbol = ['q']) :
    ofMana symbol = .unknown symbol := by
  rcases h with h | h
  · rcases eq_of_lower_singleton 'T' h rfl with rfl | rfl <;> rfl
  · rcases eq_of_lower_singleton 'Q' h rfl with rfl | rfl <;> rfl

theorem means_ofSymbol (symbol : List Char) :
    Means symbol (ofSymbol symbol) ∨ ofSymbol symbol = .unknown symbol := by
  unfold ofSymbol
  split
  · rename_i h
    exact .inl (.tap (sameLetters_iff.mp h))
  split
  · rename_i h
    exact .inl (.untap (sameLetters_iff.mp h))
  exact (meansMana_ofMana symbol).imp_left .mana

theorem Means.ofSymbol {symbol : List Char} {demand : Demand} (h : Means symbol demand) :
    ofSymbol symbol = demand := by
  rw [Demand.ofSymbol]
  cases h with
  | tap h => rw [if_pos (sameLetters_iff.mpr h)]
  | untap h =>
    rw [if_neg, if_pos (sameLetters_iff.mpr h)]
    rw [sameLetters_iff, h]
    decide
  | mana h =>
    have halone : ¬(lower symbol = ['t'] ∨ lower symbol = ['q']) := fun halone =>
      h.ne_unknown (h.ofMana.symm.trans (ofMana_of_alone halone))
    rw [not_or] at halone
    rw [if_neg (fun ht => halone.1 (sameLetters_iff.mp ht)),
      if_neg (fun hq => halone.2 (sameLetters_iff.mp hq)), h.ofMana]

theorem Means.ne_unknown {symbol other : List Char} {demand : Demand} (h : Means symbol demand) :
    demand ≠ .unknown other := by
  cases h with
  | tap => simp
  | untap => simp
  | mana h => exact h.ne_unknown

/-- A symbol asks for what it means, and for nothing if it has no meaning. -/
theorem ofSymbol_eq_iff {symbol : List Char} {demand : Demand} :
    ofSymbol symbol = demand ↔
      Means symbol demand ∨ demand = .unknown symbol ∧ ∀ other, ¬ Means symbol other := by
  constructor
  · rintro rfl
    refine (means_ofSymbol symbol).imp_right fun hunknown => ⟨hunknown, fun other hother => ?_⟩
    exact hother.ne_unknown (hother.ofSymbol.symm.trans hunknown)
  · rintro (h | ⟨rfl, hnone⟩)
    · exact h.ofSymbol
    · exact (means_ofSymbol symbol).resolve_left (hnone _)

/-! ## What is asked for, as a cost -/

/-- The cost of one demand. A symbol without a meaning costs nothing. -/
def cost : Demand → Cost
  | tap => { tap := true }
  | untap => { other := ["\x7bQ\x7d"] }
  | x => { mana := { x := 1 } }
  | generic n => { mana := { generic := n } }
  | color k => { mana := ManaCost.addColor {} k 1 }
  | unknown _ => {}
  | sacrifice => { sacrifice := true }
  | discard n => { discard := n }
  | life n => { life := n }
  | words fragment => { other := [String.ofList fragment] }

end Demand

/-- What a fragment asks for that says this. -/
def CostPart.demands : CostPart → List Demand
  | symbols row => row.map Demand.ofSymbol
  | sacrifice => [.sacrifice]
  | discard n => [.discard n]
  | life n => [.life n]

namespace Cost

/-- The fragments of a written cost that are not blank. -/
def pieces (s : List Char) : List (List Char) := (split s).filter (!·.isEmpty)

/-- What a fragment asks for. -/
def demandsOf (fragment : List Char) : List Demand :=
  match CostPart.ofText? fragment with
  | some part => part.demands
  | none => [.words fragment]

/-- What a written cost asks for. -/
def demands (s : List Char) : List Demand := (pieces s).flatMap demandsOf

theorem addMana_eq_combine (mana : ManaCost) (symbol : List Char) :
    mana.addSymbol symbol = mana.combine (Demand.ofMana symbol).cost.mana := by
  simp only [ManaCost.addSymbol, Demand.ofMana]
  cases byte? (trim symbol) with
  | some n => simp [Demand.cost, ManaCost.combine]
  | none =>
    cases sameLetters (trim symbol) ['x'] with
    | true => simp [Demand.cost, ManaCost.combine]
    | false =>
      rcases trim symbol with _ | ⟨c, _ | ⟨d, more⟩⟩
      · exact (ManaCost.combine_empty mana).symm
      · dsimp only
        cases Color.ofSymbol? c with
        | none => exact (ManaCost.combine_empty mana).symm
        | some k => exact ManaCost.addColor_eq_combine mana k 1
      · exact (ManaCost.combine_empty mana).symm

/-- A symbol of mana asks for nothing besides. -/
theorem cost_ofMana (symbol : List Char) :
    (Demand.ofMana symbol).cost = ofMana (Demand.ofMana symbol).cost.mana := by
  have hmeans := Demand.meansMana_ofMana symbol
  generalize Demand.ofMana symbol = demand at hmeans ⊢
  rcases hmeans with h | rfl
  · cases h <;> rfl
  · rfl

theorem combine_ofMana (cost : Cost) (mana : ManaCost) :
    cost.combine (ofMana mana) = { cost with mana := cost.mana.combine mana } := by
  simp [combine, ofMana]

theorem addSymbol_eq_combine (cost : Cost) (symbol : List Char) :
    cost.addSymbol symbol = cost.combine (Demand.ofSymbol symbol).cost := by
  rw [addSymbol, Demand.ofSymbol]
  split
  · simp [Demand.cost, combine]
  split
  · simp [Demand.cost, combine]
  rw [cost_ofMana, combine_ofMana, addMana_eq_combine]

theorem addFragment_eq_combine (cost : Cost) (fragment : List Char) :
    cost.addFragment fragment = cost.combine (total ((demandsOf fragment).map Demand.cost)) := by
  rw [addFragment, demandsOf]
  cases CostPart.ofText? fragment with
  | none => simp [Demand.cost, combine]
  | some part =>
    cases part with
    | symbols row =>
      change row.foldl addSymbol cost = cost.combine (total ((row.map Demand.ofSymbol).map Demand.cost))
      rw [List.map_map, List.map_eq_flatMap]
      exact foldl_eq_combine (fun cost symbol => by simp [addSymbol_eq_combine]) row cost
    | sacrifice => simp [CostPart.demands, Demand.cost, combine]
    | discard n => simp [CostPart.demands, Demand.cost, combine]
    | life n => simp [CostPart.demands, Demand.cost, combine]

/-- A written cost is the total of what it asks for. -/
theorem ofText_eq_total (s : List Char) : ofText s = total ((demands s).map Demand.cost) := by
  rw [ofText, foldl_eq_combine addFragment_eq_combine, empty_combine, demands, List.map_flatMap]
  rfl

end Cost

end CardRules
