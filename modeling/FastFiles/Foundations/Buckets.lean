import Mathlib

/-!
# Items kept in unordered buckets

A map from keys to unordered lists of items.  Inserting appends; removing moves the last
item of the bucket into the gap.  `Tracks` says that the buckets are the inverse image of
an assignment of items to at most one key each, and that no bucket lists an item twice;
insertion and removal then update the assignment at one item.
-/

namespace FastFiles

open Function

variable {κ α : Type*} [DecidableEq κ] [DecidableEq α]

/-! ## Removal by replacement -/

/-- Replace the first occurrence by the last item and drop the last place. -/
def swapRemove (items : List α) (item : α) : List α :=
  match items.idxOf? item, items.getLast? with
  | some position, some last => (items.set position last).dropLast
  | _, _ => items

variable {item : α}

theorem swapRemove_of_notMem {items : List α} (absent : item ∉ items) :
    swapRemove items item = items := by
  have missing : items.idxOf? item = none := by
    simpa using absent
  simp [swapRemove, missing]

theorem swapRemove_eq {front back : List α} {last : α} (fresh : item ∉ front)
    (final : (item :: back).getLast? = some last) :
    swapRemove (front ++ item :: back) item = front ++ (last :: back).dropLast := by
  have found : (front ++ item :: back).idxOf? item = some front.length := by
    rw [List.idxOf?_eq_some_iff]
    refine ⟨by simp, by simp, ?_⟩
    intro j before
    rw [List.getElem_append_left before]
    exact fun same => fresh (same ▸ List.getElem_mem before)
  have ends : (front ++ item :: back).getLast? = some last := by
    rw [List.getLast?_append, final]
    rfl
  rw [swapRemove, found, ends]
  simp only [List.set_append_right _ _ (Nat.le_refl _), Nat.sub_self, List.set_cons_zero]
  exact List.dropLast_append_of_ne_nil (by simp)

/-- Up to order, removal by replacement is removal. -/
theorem swapRemove_perm (items : List α) (item : α) :
    (swapRemove items item).Perm (items.erase item) := by
  by_cases mem : item ∈ items
  · obtain ⟨front, back, rfl, fresh⟩ := List.eq_append_cons_of_mem mem
    rw [List.erase_append_right _ fresh, List.erase_cons_head]
    rcases List.eq_nil_or_concat back with rfl | ⟨middle, last, rfl⟩
    · rw [swapRemove_eq fresh rfl]
      rfl
    · have final : (item :: (middle ++ [last])).getLast? = some last := by
        rw [← List.cons_append]
        exact List.getLast?_concat
      rw [List.concat_eq_append, swapRemove_eq fresh final, ← List.cons_append,
        List.dropLast_concat]
      exact (List.perm_append_left_iff _).mpr (List.perm_append_singleton _ _).symm
  · rw [swapRemove_of_notMem mem, List.erase_of_not_mem mem]

/-! ## Buckets -/

/-- A map from keys to unordered items. -/
abbrev Buckets (κ α : Type*) := κ → List α

namespace Buckets

def insert (buckets : Buckets κ α) (key : κ) (item : α) : Buckets κ α :=
  update buckets key (buckets key ++ [item])

def remove (buckets : Buckets κ α) (key : κ) (item : α) : Buckets κ α :=
  update buckets key (swapRemove (buckets key) item)

/-- Bucket `key` lists exactly the items assigned to `key`, each once. -/
structure Tracks (buckets : Buckets κ α) (assigned : α → Option κ) : Prop where
  mem_iff : ∀ key item, item ∈ buckets key ↔ assigned item = some key
  nodup : ∀ key, (buckets key).Nodup

omit [DecidableEq κ] [DecidableEq α] in
theorem Tracks.empty : Tracks (fun _ : κ => ([] : List α)) fun _ => none where
  mem_iff _ _ := by simp
  nodup _ := List.nodup_nil

variable {assigned : α → Option κ} {buckets : Buckets κ α}

theorem Tracks.insert (tracks : buckets.Tracks assigned) (free : assigned item = none) (key : κ) :
    (buckets.insert key item).Tracks (update assigned item (some key)) where
  mem_iff other x := by
    have before := tracks.mem_iff other x
    by_cases same : other = key <;> by_cases here : x = item
    · subst same here
      simp [Buckets.insert]
    · subst same
      simp [Buckets.insert, here, before]
    · subst here
      have elsewhere : key ≠ other := fun is => same is.symm
      simp [Buckets.insert, same, before, free, elsewhere]
    · simp [Buckets.insert, same, here, before]
  nodup other := by
    by_cases same : other = key
    · subst same
      have absent : item ∉ buckets other := by
        rw [tracks.mem_iff, free]
        simp
      simpa [Buckets.insert, List.nodup_append] using
        ⟨tracks.nodup other, fun x mem is => absent (is ▸ mem)⟩
    · simpa [Buckets.insert, same] using tracks.nodup other

/-- The bucket an item is removed from is its own, or the item is in none. -/
theorem Tracks.remove (tracks : buckets.Tracks assigned) {key : κ}
    (own : ∀ other, assigned item = some other → other = key) :
    (buckets.remove key item).Tracks (update assigned item none) where
  mem_iff other x := by
    have before := tracks.mem_iff other x
    by_cases same : other = key
    · subst same
      rw [Buckets.remove, update_self, (swapRemove_perm _ _).mem_iff,
        (tracks.nodup other).mem_erase_iff, before]
      by_cases here : x = item <;> simp [here]
    · rw [Buckets.remove, update_of_ne same, before]
      by_cases here : x = item
      · subst here
        simp only [update_self, reduceCtorEq, iff_false]
        exact fun assignedHere => same (own other assignedHere)
      · simp [here]
  nodup other := by
    by_cases same : other = key
    · subst same
      rw [Buckets.remove, update_self, (swapRemove_perm _ _).nodup_iff]
      exact (tracks.nodup other).erase _
    · simpa [Buckets.remove, same] using tracks.nodup other

end Buckets

end FastFiles
