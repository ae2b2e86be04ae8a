import CardRules.Identity

/-!
# Values kept under entity numbers

A finite map from entity numbers, as a list of entries in order of insertion. Each number has at
most one entry that counts, the first.
-/

set_option autoImplicit false

namespace CardRules

/-- Values kept under entity numbers. -/
structure Store (α : Type) where
  entries : List (EntityId × α) := []
deriving DecidableEq, Repr, Inhabited

namespace Store

variable {α : Type}

/-- The value under a number. -/
def get? (store : Store α) (id : EntityId) : Option α := store.entries.lookup id

/-- Whether there is a value under a number. -/
def contains (store : Store α) (id : EntityId) : Bool := (store.get? id).isSome

/-- The store with the value under a number changed, if there is one. -/
def update (store : Store α) (id : EntityId) (f : α → α) : Store α :=
  { entries := store.entries.map fun (key, a) => (key, if key == id then f a else a) }

/-- The store with a value under a number, in place of an earlier one. -/
def insert (store : Store α) (id : EntityId) (a : α) : Store α :=
  if store.contains id then store.update id fun _ => a
  else { entries := store.entries ++ [(id, a)] }

/-- The number of entries. -/
def size (store : Store α) : Nat := store.entries.length

theorem get?_update (store : Store α) (id key : EntityId) (f : α → α) :
    (store.update id f).get? key =
      if key = id then (store.get? key).map f else store.get? key := by
  obtain ⟨entries⟩ := store
  simp only [get?, update]
  induction entries with
  | nil => simp
  | cons entry entries ih =>
    obtain ⟨k, a⟩ := entry
    simp only [List.map_cons, List.lookup_cons, ih]
    by_cases hk : key = k
    · subst hk; by_cases hi : key = id <;> simp [hi]
    · simp [beq_false_of_ne hk]

theorem get?_insert (store : Store α) (id key : EntityId) (a : α) :
    (store.insert id a).get? key = if key = id then some a else store.get? key := by
  unfold insert contains
  by_cases hthere : (store.get? id).isSome = true
  · rw [if_pos hthere, get?_update]
    by_cases hkey : key = id
    · subst hkey
      obtain ⟨b, hb⟩ := Option.isSome_iff_exists.mp hthere
      simp [hb]
    · rw [if_neg hkey, if_neg hkey]
  · rw [if_neg hthere]
    have hmissing : store.get? id = none := by simpa using hthere
    have hentries : (store.entries ++ [(id, a)]).lookup key =
        (store.entries.lookup key).or ([(id, a)].lookup key) := List.lookup_append
    rw [get?, hentries]
    by_cases hkey : key = id
    · subst hkey
      have hmissing : store.entries.lookup key = none := hmissing
      simp [hmissing]
    · simp [hkey, beq_false_of_ne hkey, get?, List.lookup_cons]

end Store

end CardRules
