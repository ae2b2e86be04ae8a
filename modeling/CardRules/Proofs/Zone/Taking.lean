import CardRules.Zone
import Mathlib.Algebra.GroupWithZero.Nat
import Mathlib.Data.List.SplitLengths

/-!
# Cards taken from the library

Drawing and milling take cards from the top of the library and differ only in the pile the cards are put on.
Whatever mixture of such calls is made, the library is dealt out from the top down, each call having the next
cards up to its count (`dealt_takeAll`). So it does not matter how many calls of one kind the cards are taken
in (`take_add`).

The library lies upside down, its top at the end of the list. All that has to be known of that is how the
cards below the top ones are read from the top down (`Pile.reverse_dropTop`).
-/

set_option autoImplicit false

namespace CardRules

namespace Pile

variable (pile : Pile) (m n : Nat)

theorem reverse_dropTop : (pile.dropTop n).cards.reverse = pile.cards.reverse.drop n :=
  List.drop_reverse.symm

theorem dropTop_add : pile.dropTop (m + n) = (pile.dropTop m).dropTop n := by
  have hcards : (pile.dropTop (m + n)).cards.reverse = ((pile.dropTop m).dropTop n).cards.reverse := by
    rw [reverse_dropTop, reverse_dropTop, reverse_dropTop, List.drop_drop]
  exact congrArg (fun cards => { pile with cards }) (List.reverse_inj.mp hcards)

theorem top_add : pile.top (m + n) = pile.top m ++ (pile.dropTop m).top n := by
  unfold top
  rw [reverse_dropTop, List.take_add]

theorem addAll_append (cards more : List CardId) :
    pile.addAll (cards ++ more) = (pile.addAll cards).addAll more := by
  unfold addAll
  rw [List.append_assoc]

/-- What is left lies under what was taken, the top card last. -/
theorem dropTop_append_top : (pile.dropTop n).cards ++ (pile.top n).reverse = pile.cards := by
  rw [top, ← List.reverse_inj, List.reverse_append, List.reverse_reverse, reverse_dropTop,
    List.take_append_drop]

end Pile

/-- A way to take cards from the top of the library. -/
inductive Taking where
  | draw
  | mill
deriving DecidableEq, Repr

namespace PlayerZones

variable (zones : PlayerZones)

/-- The cards taken by one call, and the piles after it. -/
def take (zones : PlayerZones) : Taking → Nat → List CardId × PlayerZones
  | .draw, count => zones.draw count
  | .mill, count => zones.mill count

/-- The cards taken by some calls, call by call, and the piles after the last. -/
def takeAll (zones : PlayerZones) : List (Taking × Nat) → List (List CardId) × PlayerZones
  | [] => ([], zones)
  | (way, count) :: calls =>
    let (cards, zones) := zones.take way count
    let (taken, zones) := zones.takeAll calls
    (cards :: taken, zones)

/-- The cards that the calls of one kind took, in the order in which they were taken. -/
def takenBy (way : Taking) (calls : List (Taking × Nat)) (taken : List (List CardId)) : List CardId :=
  ((calls.zip taken).filter fun (call, _) => call.1 == way).flatMap (·.2)

/-- How many cards some calls ask for in all. -/
def asked (calls : List (Taking × Nat)) : Nat := (calls.map (·.2)).sum

/-- The library has been dealt out from the top down to some calls. -/
structure Dealt (before : PlayerZones) (calls : List (Taking × Nat)) (taken : List (List CardId))
    (after : PlayerZones) : Prop where
  /-- Each call has the next cards, as many as it asks for as far as there are any. -/
  shares : taken = (calls.map (·.2)).splitLengths before.library.cards.reverse
  library : after.library = before.library.dropTop (asked calls)
  hand : after.hand = before.hand.addAll (takenBy .draw calls taken)
  graveyard : after.graveyard = before.graveyard.addAll (takenBy .mill calls taken)
  exile : after.exile = before.exile

theorem dealt_takeAll (calls : List (Taking × Nat)) :
    Dealt zones calls (zones.takeAll calls).1 (zones.takeAll calls).2 := by
  induction calls generalizing zones with
  | nil =>
    exact {
      shares := rfl
      library := by simp [takeAll, asked, Pile.dropTop]
      hand := by simp [takeAll, takenBy, Pile.addAll]
      graveyard := by simp [takeAll, takenBy, Pile.addAll]
      exile := rfl }
  | cons call calls ih =>
    obtain ⟨way, count⟩ := call
    obtain ⟨hshares, hlibrary, hhand, hgraveyard, hexile⟩ := ih (zones.take way count).2
    have hfirst : (zones.take way count).1 = zones.library.cards.reverse.take count := by
      cases way <;> rfl
    have hrest : (zones.take way count).2.library = zones.library.dropTop count := by cases way <;> rfl
    rw [hrest, Pile.reverse_dropTop] at hshares
    rw [hrest, ← Pile.dropTop_add] at hlibrary
    have hall : (zones.takeAll ((way, count) :: calls)).1 =
        (((way, count) :: calls).map (·.2)).splitLengths zones.library.cards.reverse := by
      rw [List.map_cons, List.splitLengths_cons, ← hfirst, ← hshares]
      rfl
    -- the first call adds its cards to one of the piles and leaves the other alone
    cases way with
    | draw =>
      exact {
        shares := hall
        library := hlibrary
        hand := hhand.trans (Pile.addAll_append ..).symm
        graveyard := hgraveyard
        exile := hexile }
    | mill =>
      exact {
        shares := hall
        library := hlibrary
        hand := hhand
        graveyard := hgraveyard.trans (Pile.addAll_append ..).symm
        exile := hexile }

/-- Shares of a list one after the other are its front. -/
theorem flatten_splitLengths_eq_take {α : Type} (counts : List Nat) (l : List α) :
    (counts.splitLengths l).flatten = l.take counts.sum := by
  induction counts generalizing l with
  | nil => rfl
  | cons count counts ih =>
    rw [List.splitLengths_cons, List.flatten_cons, ih, List.sum_cons, List.take_add]

/-- Two calls of one kind are one call for as many cards. -/
theorem take_add (way : Taking) (m n : Nat) :
    let first := zones.take way m
    let second := first.2.take way n
    zones.take way (m + n) = (first.1 ++ second.1, second.2) := by
  have htop := zones.library.top_add m n
  have hrest := zones.library.dropTop_add m n
  cases way with
  | draw =>
    show zones.draw (m + n) = _
    unfold draw
    dsimp only
    rw [htop, hrest, Pile.addAll_append]
    rfl
  | mill =>
    show zones.mill (m + n) = _
    unfold mill
    dsimp only
    rw [htop, hrest, Pile.addAll_append]
    rfl

/-- Drawing and milling respect the order of the library. Whatever calls are made, with whatever counts, the
cards taken call by call are together the first cards of the library from the top down, as many as were asked
for or all there are. In that order the cards of each call are put on the hand or on the graveyard, as the
call says, on top of what lay there, and the rest of the library and the exile pile stay as they are. And
two calls of one kind are one call for as many cards. -/
theorem library_order_respected :
    (∀ calls : List (Taking × Nat),
      let taken := (zones.takeAll calls).1
      let after := (zones.takeAll calls).2
      taken = (calls.map (·.2)).splitLengths zones.library.cards.reverse ∧
        taken.flatten =
          zones.library.cards.reverse.take (min (asked calls) zones.library.cards.length) ∧
        after.library.cards ++ taken.flatten.reverse = zones.library.cards ∧
        after =
          { library := zones.library.dropTop (asked calls)
            hand := zones.hand.addAll (takenBy .draw calls taken)
            graveyard := zones.graveyard.addAll (takenBy .mill calls taken)
            exile := zones.exile }) ∧
    ∀ way m n,
      let first := zones.take way m
      let second := first.2.take way n
      zones.take way (m + n) = (first.1 ++ second.1, second.2) := by
  refine ⟨fun calls => ?_, zones.take_add⟩
  intro taken after
  obtain ⟨hshares, hlibrary, hhand, hgraveyard, hexile⟩ : Dealt zones calls taken after :=
    zones.dealt_takeAll calls
  have htop : taken.flatten = zones.library.top (asked calls) := by
    rw [hshares, flatten_splitLengths_eq_take]
    rfl
  refine ⟨hshares, ?_, ?_, ?_⟩
  · rw [htop, Pile.top, ← List.length_reverse, List.take_eq_take_min]
  · rw [htop, hlibrary, Pile.dropTop_append_top]
  · rw [← hlibrary, ← hhand, ← hgraveyard, ← hexile]

end PlayerZones

end CardRules
