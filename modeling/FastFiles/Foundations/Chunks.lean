import Mathlib

/-!
# Chunks of a list

`List.toChunks` takes chunks off the front (`toChunks_eq_cons`).
-/

namespace FastFiles

variable {α : Type*} {size : Nat}

theorem toChunks_cons_eq_go (positive : 0 < size) (item : α) (items : List α) :
    (item :: items).toChunks size = List.toChunks.go size items #[item] #[] := by
  cases size with
  | zero => exact absurd positive (Nat.lt_irrefl 0)
  | succ size => rfl

/-- The accumulated chunks, the current one filled up, and the rest in chunks. -/
theorem toChunks_go (positive : 0 < size) (items : List α) (current : Array α)
    (done : Array (List α)) (room : current.size ≤ size) :
    List.toChunks.go size items current done =
      done.toList ++ (current.toList ++ items.take (size - current.size)) ::
        (items.drop (size - current.size)).toChunks size := by
  induction items generalizing current done with
  | nil => simp [List.toChunks.go, List.toChunks]
  | cons item items ih =>
    rw [List.toChunks.go]
    by_cases full : current.size = size
    · have next := ih #[item] #[] positive
      rw [if_pos (beq_iff_eq.mpr full), full, Nat.sub_self, List.take_zero, List.drop_zero,
        toChunks_cons_eq_go positive, next]
      rw [show (Array.mkEmpty size).push item = #[item] from rfl, ih #[item] _ positive]
      simp
    · have short : size - current.size = size - (current.push item).size + 1 := by
        rw [Array.size_push]
        omega
      rw [if_neg (mt beq_iff_eq.mp full), ih _ _ (by rw [Array.size_push]; omega), short,
        List.take_succ_cons, List.drop_succ_cons]
      simp

/-- The first chunk, and the chunks of the rest. -/
theorem toChunks_eq_cons (positive : 0 < size) {items : List α} (nonempty : items ≠ []) :
    items.toChunks size = items.take size :: (items.drop size).toChunks size := by
  obtain ⟨item, items, rfl⟩ := List.exists_cons_of_ne_nil nonempty
  obtain ⟨less, rfl⟩ : ∃ less, size = less + 1 := ⟨size - 1, by omega⟩
  rw [toChunks_cons_eq_go positive, toChunks_go positive items #[item] #[] (by simp)]
  simp

end FastFiles
