import CardRules.Proofs.Engine.Frame
import Mathlib.Data.List.Forall2
import Mathlib.Data.List.Nodup

/-!
# What effects can do to the stack

While an item resolves, its effects have the rest of the stack in hand. All they can do with it is
to mark spells as countered: `StackItem.Marks` relates two lists of items that differ in nothing
else, and every action in an arena moves the items along it.

Items are looked up by number, so this needs the numbers to be distinct. The condition is part of
the relation (`StackItem.Kept`); marking keeps the numbers, hence the condition, and the relation is
transitive.
-/

set_option autoImplicit false

namespace CardRules

/-- If no two elements share a key, an element is found under its key, and it alone. -/
theorem find?_key_eq_some_iff {α κ : Type} [BEq κ] [LawfulBEq κ] {key : α → κ} {elements : List α}
    (hdistinct : (elements.map key).Nodup) {k : κ} {a : α} :
    elements.find? (fun a => key a == k) = some a ↔ a ∈ elements ∧ key a = k := by
  constructor
  · intro hfind
    exact ⟨List.mem_of_find?_eq_some hfind, by simpa using List.find?_some hfind⟩
  · rintro ⟨hmem, rfl⟩
    obtain ⟨found, hfound⟩ : ∃ found, elements.find? (fun b => key b == key a) = some found :=
      Option.isSome_iff_exists.mp (List.find?_isSome.mpr ⟨a, hmem, beq_self_eq_true _⟩)
    have hfoundMem : found ∈ elements := List.mem_of_find?_eq_some hfound
    have hfoundKey : key found = key a := by simpa using List.find?_some hfound
    rw [hfound, List.inj_on_of_nodup_map hdistinct hfoundMem hmem hfoundKey]

namespace StackItem

/-- The item itself, or the item marked as countered if it is a spell. -/
def Marked (before after : StackItem) : Prop :=
  after = before ∨ before.object.isSpell = true ∧ after = { before with countered := true }

/-- The same items in the same order, some spells among them marked as countered. -/
def Marks : List StackItem → List StackItem → Prop := List.Forall₂ Marked

theorem Marked.refl (item : StackItem) : Marked item item := .inl rfl

theorem Marked.trans {a b c : StackItem} (hab : Marked a b) (hbc : Marked b c) : Marked a c := by
  rcases hab with rfl | ⟨hspell, rfl⟩
  · exact hbc
  · rcases hbc with rfl | ⟨-, rfl⟩
    · exact .inr ⟨hspell, rfl⟩
    · exact .inr ⟨hspell, rfl⟩

namespace Marks

variable {items items' items'' : List StackItem}

theorem refl (items : List StackItem) : Marks items items :=
  List.forall₂_same.mpr fun item _ => Marked.refl item

theorem trans (h : Marks items items') (h' : Marks items' items'') : Marks items items'' := by
  induction h generalizing items'' with
  | nil => exact h'
  | cons hitem _ ih =>
    cases h' with
    | cons hitem' hrest' => exact .cons (hitem.trans hitem') (ih hrest')

end Marks

/-- If no two items share a number, an item is found under its number, and it alone. -/
theorem find?_id_eq_some_iff {items : List StackItem} (hdistinct : (items.map (·.id)).Nodup)
    {id : ItemId} {item : StackItem} :
    items.find? (fun item => item.id == id) = some item ↔ item ∈ items ∧ item.id = id :=
  find?_key_eq_some_iff hdistinct

/-- Marking a spell as countered does nothing but that, if its number is its own. -/
theorem marks_of_counter {items items' : List StackItem} {id : ItemId}
    (hdistinct : (items.map (·.id)).Nodup) (h : counter items id = .ok items') :
    Marks items items' := by
  unfold counter at h
  cases hfind : items.find? (fun item => item.id == id) with
  | none => rw [hfind] at h; simp at h
  | some found =>
    rw [hfind] at h
    dsimp only at h
    by_cases hspell : found.object.isSpell = true
    · rw [if_pos hspell, Except.ok.injEq] at h
      subst h
      refine List.forall₂_map_right_iff.mpr (List.forall₂_same.mpr fun item hitem => ?_)
      by_cases hid : item.id = id
      · -- the number is not shared, so this item is the one that was looked up
        have hsame : item = found := by
          rw [(find?_id_eq_some_iff hdistinct).mpr ⟨hitem, hid⟩] at hfind
          exact Option.some.inj hfind
        rw [if_pos (beq_iff_eq.mpr hid)]
        exact .inr ⟨hsame ▸ hspell, rfl⟩
      · rw [if_neg (mt beq_iff_eq.mp hid)]
        exact .refl item
    · rw [if_neg hspell] at h
      simp at h

/-- An item that is marked as countered already is not marked anew. -/
theorem mem_of_counter {items items' : List StackItem} {id : ItemId} {item : StackItem}
    (hmark : counter items id = .ok items') (hitem : item ∈ items)
    (h : item.countered = true) : item ∈ items' := by
  unfold counter at hmark
  split at hmark
  · simp at hmark
  · split at hmark
    · obtain rfl := Except.ok.inj hmark
      refine List.mem_map.mpr ⟨item, hitem, ?_⟩
      split
      · -- the mark is there already
        rw [← h]
      · rfl
    · simp at hmark

/-- The item with no mark on it. -/
def unmarked (item : StackItem) : StackItem := { item with countered := false }

/-- No item came, left or changed places or was changed but for its mark, the countered ones are as
they were, and if the numbers of all are distinct, then all that happened to them is that spells were
marked as countered. -/
structure Kept (before after : List StackItem) : Prop where
  unmarked : after.map unmarked = before.map unmarked
  countered (item : StackItem) (hitem : item ∈ before) (h : item.countered = true) : item ∈ after
  marks (distinct : (before.map (·.id)).Nodup) : Marks before after

theorem map_id_of_unmarked {items items' : List StackItem}
    (h : items'.map unmarked = items.map unmarked) : items'.map (·.id) = items.map (·.id) := by
  have hids := congrArg (List.map fun item : StackItem => item.id) h
  rw [List.map_map, List.map_map] at hids
  exact hids

theorem Kept.ids {items items' : List StackItem} (h : Kept items items') :
    items'.map (·.id) = items.map (·.id) :=
  map_id_of_unmarked h.unmarked

theorem Kept.refl (items : List StackItem) : Kept items items :=
  ⟨rfl, fun _ hitem _ => hitem, fun _ => .refl items⟩

theorem Kept.trans {a b c : List StackItem} (hab : Kept a b) (hbc : Kept b c) : Kept a c where
  unmarked := hbc.unmarked.trans hab.unmarked
  countered item hitem h := hbc.countered item (hab.countered item hitem h) h
  marks distinct := (hab.marks distinct).trans (hbc.marks (hab.ids ▸ distinct))

theorem Kept.length_eq {items items' : List StackItem} (h : Kept items items') :
    items'.length = items.length := by
  have := congrArg List.length h.ids
  simpa using this

theorem kept_of_counter {items items' : List StackItem} {id : ItemId}
    (h : counter items id = .ok items') : Kept items items' where
  unmarked := by
    unfold counter at h
    split at h
    · simp at h
    · split at h
      · obtain rfl := Except.ok.inj h
        rw [List.map_map]
        refine List.map_congr_left fun item _ => ?_
        rw [Function.comp]
        split
        · rfl
        · rfl
      · simp at h
  countered _ := mem_of_counter h
  marks distinct := marks_of_counter distinct h

end StackItem

namespace Arena

/-- Nothing happens to the items in view but that spells are marked as countered. -/
def OnlyMarks (before after : Arena) : Prop := StackItem.Kept before.items after.items

instance : Std.Refl OnlyMarks := ⟨fun arena => .refl arena.items⟩

instance : IsTrans Arena OnlyMarks := ⟨fun _ _ _ => StackItem.Kept.trans⟩

/-- Of all that the engine does, only countering looks at the items. -/
theorem onlyMarks_frame : Frame OnlyMarks where
  table arena _ _ := .refl arena.items
  dropSource arena _ := .refl arena.items
  recordUse arena _ := .refl arena.items
  queue arena _ := .refl arena.items
  counter _ _ _ h := StackItem.kept_of_counter h

end Arena

end CardRules
