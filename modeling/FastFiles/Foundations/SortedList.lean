import Mathlib

/-!
# Sets as increasing lists

The algorithms on sorted ranges, for sets kept as strictly increasing lists: insertion and erasure
at the lower bound, sorting with removal of repeats, intersection and union by merging.  Each has a
membership lemma and keeps the list increasing; the merges are right for increasing lists only.
-/

namespace FastFiles

variable {α : Type*} [LinearOrder α]

/-- Strictly increasing. -/
def Increasing (values : List α) : Prop := values.Pairwise (· < ·)

variable {value : α} {values : List α}

theorem Increasing.tail (increasing : Increasing (value :: values)) : Increasing values :=
  (List.pairwise_cons.mp increasing).2

theorem Increasing.lt {other : α} (increasing : Increasing (value :: values))
    (member : other ∈ values) : value < other :=
  (List.pairwise_cons.mp increasing).1 other member

theorem Increasing.cons (increasing : Increasing values) (least : ∀ other ∈ values, value < other) :
    Increasing (value :: values) :=
  List.pairwise_cons.mpr ⟨least, increasing⟩

/-! ## Insertion and erasure -/

/-- Insertion at the lower bound, unless the value is there. -/
def insertSorted (value : α) : List α → List α
  | [] => [value]
  | other :: values =>
    if other < value then other :: insertSorted value values
    else if other = value then other :: values
    else value :: other :: values

/-- The value at the lower bound goes, if it is the one. -/
def eraseSorted (value : α) : List α → List α
  | [] => []
  | other :: values =>
    if other < value then other :: eraseSorted value values
    else if other = value then values
    else other :: values

variable {item : α}

/-- Membership needs no order. -/
theorem mem_insertSorted : item ∈ insertSorted value values ↔ item = value ∨ item ∈ values := by
  induction values with
  | nil => rw [insertSorted, List.mem_singleton, or_iff_left List.not_mem_nil]
  | cons other values ih =>
    rw [insertSorted]
    split_ifs with before same
    · rw [List.mem_cons, ih, List.mem_cons]
      exact or_left_comm
    · rw [same, List.mem_cons, ← or_assoc, or_self]
    · exact List.mem_cons

theorem Increasing.insertSorted (increasing : Increasing values) (value : α) :
    Increasing (insertSorted value values) := by
  induction values with
  | nil => exact List.pairwise_singleton _ _
  | cons other values ih =>
    rw [FastFiles.insertSorted]
    split_ifs with before same
    · refine (ih increasing.tail).cons fun item member => ?_
      rcases mem_insertSorted.mp member with rfl | later
      · exact before
      · exact increasing.lt later
    · exact increasing
    · refine increasing.cons fun item member => ?_
      have first : value < other := lt_of_le_of_ne (not_lt.mp before) (Ne.symm same)
      rcases List.mem_cons.mp member with rfl | later
      · exact first
      · exact first.trans (increasing.lt later)

/-- Of an increasing list the value is gone: it stood there once. -/
theorem mem_eraseSorted (increasing : Increasing values) :
    item ∈ eraseSorted value values ↔ item ≠ value ∧ item ∈ values := by
  induction values with
  | nil => exact iff_of_false List.not_mem_nil fun both => List.not_mem_nil both.2
  | cons other values ih =>
    rw [eraseSorted]
    split_ifs with before same
    · rw [List.mem_cons, ih increasing.tail, List.mem_cons]
      constructor
      · rintro (rfl | ⟨differs, later⟩)
        · exact ⟨ne_of_lt before, .inl rfl⟩
        · exact ⟨differs, .inr later⟩
      · rintro ⟨differs, rfl | later⟩
        · exact .inl rfl
        · exact .inr ⟨differs, later⟩
    · subst same
      rw [List.mem_cons]
      constructor
      · intro later
        exact ⟨ne_of_gt (increasing.lt later), .inr later⟩
      · rintro ⟨differs, rfl | later⟩
        · exact absurd rfl differs
        · exact later
    · -- Everything in the list is beyond the value.
      refine (and_iff_right_of_imp fun member => ?_).symm
      have first : value < other := lt_of_le_of_ne (not_lt.mp before) (Ne.symm same)
      rcases List.mem_cons.mp member with rfl | later
      · exact ne_of_gt first
      · exact ne_of_gt (first.trans (increasing.lt later))

theorem eraseSorted_sublist (value : α) (values : List α) :
    (eraseSorted value values).Sublist values := by
  induction values with
  | nil => exact .slnil
  | cons other values ih =>
    rw [eraseSorted]
    split_ifs
    · exact ih.cons_cons other
    · exact List.sublist_cons_self other values
    · exact .refl _

theorem Increasing.eraseSorted (increasing : Increasing values) (value : α) :
    Increasing (eraseSorted value values) :=
  List.Pairwise.sublist (eraseSorted_sublist value values) increasing

/-! ## Sorting -/

/-- Sort and drop repeats. -/
def sortUnique (values : List α) : List α := (values.mergeSort fun a b => decide (a ≤ b)).dedup

theorem mem_sortUnique : item ∈ sortUnique values ↔ item ∈ values := by
  rw [sortUnique, List.mem_dedup, List.mem_mergeSort]

theorem increasing_sortUnique (values : List α) : Increasing (sortUnique values) := by
  have sorted : (values.mergeSort fun a b => decide (a ≤ b)).Pairwise fun a b => decide (a ≤ b) = true :=
    List.pairwise_mergeSort
      (fun a b c below below' => by
        rw [decide_eq_true_eq] at below below' ⊢
        exact below.trans below')
      (fun a b => by simpa using le_total a b) values
  have distinct : (sortUnique values).Pairwise (· ≠ ·) := List.nodup_dedup _
  have ordered := sorted.sublist (List.dedup_sublist _)
  refine (ordered.and distinct).imp fun both => ?_
  exact lt_of_le_of_ne (of_decide_eq_true both.1) both.2

/-! ## Merging -/

/-- `std::set_intersection`. -/
def sortedInter : List α → List α → List α
  | [], _ => []
  | _, [] => []
  | a :: as, b :: bs =>
    if a < b then sortedInter as (b :: bs)
    else if b < a then sortedInter (a :: as) bs
    else a :: sortedInter as bs
termination_by as bs => as.length + bs.length

/-- `std::set_union`. -/
def sortedUnion : List α → List α → List α
  | [], bs => bs
  | as, [] => as
  | a :: as, b :: bs =>
    if a < b then a :: sortedUnion as (b :: bs)
    else if b < a then b :: sortedUnion (a :: as) bs
    else a :: sortedUnion as bs
termination_by as bs => as.length + bs.length

/-- What is before the head is before the whole list. -/
theorem Increasing.notMem {a b : α} {bs : List α} (increasing : Increasing (b :: bs))
    (before : a < b) : a ∉ b :: bs := by
  intro here
  rcases List.mem_cons.mp here with rfl | later
  · exact lt_irrefl _ before
  · exact lt_irrefl _ (before.trans (increasing.lt later))

variable {left right : List α}

/-- Merging two increasing lists meets every common value. -/
theorem mem_sortedInter (increasing : Increasing left) (increasing' : Increasing right) :
    item ∈ sortedInter left right ↔ item ∈ left ∧ item ∈ right := by
  fun_induction sortedInter left right with
  | case1 => simp
  | case2 => simp
  | case3 a as b bs before ih =>
    rw [ih increasing.tail increasing', List.mem_cons (l := as)]
    have apart : item = a → item ∉ b :: bs := fun same => same ▸ increasing'.notMem before
    tauto
  | case4 a as b bs _ before ih =>
    rw [ih increasing increasing'.tail, List.mem_cons (l := bs)]
    have apart : item = b → item ∉ a :: as := fun same => same ▸ increasing.notMem before
    tauto
  | case5 a as b bs not_less not_greater ih =>
    obtain rfl : a = b := le_antisymm (not_lt.mp not_greater) (not_lt.mp not_less)
    rw [List.mem_cons, ih increasing.tail increasing'.tail, List.mem_cons, List.mem_cons]
    exact or_and_left

theorem mem_sortedUnion : item ∈ sortedUnion left right ↔ item ∈ left ∨ item ∈ right := by
  fun_induction sortedUnion left right with
  | case1 => simp
  | case2 => simp
  | case3 a as b bs before ih =>
    simp only [List.mem_cons, ih, or_assoc]
  | case4 a as b bs _ before ih =>
    simp only [List.mem_cons, ih]
    exact or_left_comm
  | case5 a as b bs not_less not_greater ih =>
    obtain rfl : a = b := le_antisymm (not_lt.mp not_greater) (not_lt.mp not_less)
    rw [List.mem_cons, ih, List.mem_cons, List.mem_cons]
    exact or_or_distrib_left

theorem sortedInter_sublist (left right : List α) : (sortedInter left right).Sublist left := by
  fun_induction sortedInter left right with
  | case1 => exact .slnil
  | case2 => exact List.nil_sublist _
  | case3 a as b bs before ih => exact ih.cons a
  | case4 a as b bs _ before ih => exact ih
  | case5 a as b bs _ _ ih => exact ih.cons_cons a

theorem Increasing.sortedInter (increasing : Increasing left) (right : List α) :
    Increasing (sortedInter left right) :=
  List.Pairwise.sublist (sortedInter_sublist left right) increasing

end FastFiles
