import Mathlib

/-!
# Selecting the first elements of a stream

The elements of a stream are offered one at a time, and only the first `limit` of them in a
given order are kept, in a binary heap whose root is the last of those kept.

The heap and the sort are a library's: `Algorithms` states what the library promises of
`sort`, `push_heap` and `pop_heap` for a strict weak order, and `Algorithms.reference` is one
realisation of it.

* `Selected` relates what was offered to what is kept.  It is preserved by an offer
  (`Selected.offer`) and by turning away an element that comes after the root
  (`Selected.skip`).
* If ties are between equal elements, what is kept sorts to the first `limit` elements of the
  sorted stream, whatever the order of the offers (`Selected.sort_eq`, `Selected.overflowed_iff`).
-/

namespace FastFiles.Selection

variable {α : Type*} {less : α → α → Bool}

/-! ## Orders -/

/-- A comparison that the algorithms accept. -/
structure StrictWeak (less : α → α → Bool) : Prop where
  asymm : ∀ {a b}, less a b = true → less b a = false
  /-- "Not after" is transitive. -/
  trans : ∀ {a b c}, less b a = false → less c b = false → less c a = false

namespace StrictWeak

theorem total (order : StrictWeak less) (a b : α) : less b a = false ∨ less a b = false := by
  cases h : less b a with
  | false => exact .inl rfl
  | true => exact .inr (order.asymm h)

theorem of_transCmp (cmp : α → α → Ordering) [Std.TransCmp cmp] :
    StrictWeak fun a b => (cmp a b).isLT := by
  have flip {x y : α} : (cmp y x).isLT = false ↔ (cmp x y).isLE = true := by
    have swapped : cmp x y = (cmp y x).swap := Std.OrientedCmp.eq_swap
    rw [swapped]
    cases cmp y x <;> simp
  refine ⟨fun {a b} before => flip.mpr ?_, fun first second => flip.mpr ?_⟩
  · cases h : cmp a b <;> simp_all
  · exact Std.TransCmp.isLE_trans (flip.mp first) (flip.mp second)

end StrictWeak

/-! ## Heaps -/

/-- No element comes after its parent. -/
def IsHeap (less : α → α → Bool) (heap : List α) : Prop :=
  ∀ i (h : i < heap.length), 0 < i → less (heap.get ⟨(i - 1) / 2, by omega⟩) (heap.get ⟨i, h⟩) = false

/-- The root of a heap is not before any of its elements. -/
theorem IsHeap.root_last (order : StrictWeak less) {root : α} {rest : List α}
    (heap : IsHeap less (root :: rest)) {a : α} (mem : a ∈ root :: rest) : less root a = false := by
  obtain ⟨⟨i, bound⟩, rfl⟩ := List.mem_iff_get.mp mem
  -- along the path from the root to position `i`
  induction i using Nat.strongRecOn with
  | _ i ih =>
    by_cases positive : 0 < i
    · have parent : (i - 1) / 2 < i := by omega
      exact order.trans (heap i bound positive) (ih _ parent (by omega) (List.get_mem _ _))
    · obtain rfl : i = 0 := by omega
      exact (order.total root root).elim id id

theorem isHeap_of_pairwise {heap : List α} (sorted : heap.Pairwise fun a b => less a b = false) :
    IsHeap less heap := by
  intro i bound positive
  exact List.pairwise_iff_get.mp sorted ⟨(i - 1) / 2, by omega⟩ ⟨i, bound⟩ (by
    show (i - 1) / 2 < i
    omega)

/-- What the library promises of its algorithms. -/
structure Algorithms (less : α → α → Bool) where
  sort : List α → List α
  /-- Sifts the last element into the heap before it. -/
  pushHeap : List α → List α
  /-- Moves the root behind the heap of the other elements. -/
  popHeap : List α → List α
  sort_perm : ∀ items, (sort items).Perm items
  sort_sorted : ∀ items, (sort items).Pairwise fun a b => less b a = false
  pushHeap_perm : ∀ items, (pushHeap items).Perm items
  pushHeap_isHeap : ∀ heap a, IsHeap less heap → IsHeap less (pushHeap (heap ++ [a]))
  popHeap_eq : ∀ root rest, IsHeap less (root :: rest) →
    ∃ heap, popHeap (root :: rest) = heap ++ [root] ∧ heap.Perm rest ∧ IsHeap less heap

/-- Sorting from last to first gives a heap. -/
theorem isHeap_mergeSort (order : StrictWeak less) (items : List α) :
    IsHeap less (items.mergeSort fun a b => !less a b) := by
  have sorted : (items.mergeSort fun a b => !less a b).Pairwise fun a b => (!less a b) = true :=
    List.pairwise_mergeSort (by simpa using fun a b c first second => order.trans second first)
      (by simpa using fun a b => order.total b a) items
  exact isHeap_of_pairwise (by simpa using sorted)

/-- A realisation by sorting. -/
def Algorithms.reference (order : StrictWeak less) : Algorithms less where
  sort items := items.mergeSort fun a b => !less b a
  pushHeap items := items.mergeSort fun a b => !less a b
  popHeap
    | [] => []
    | root :: rest => (rest.mergeSort fun a b => !less a b) ++ [root]
  sort_perm items := List.mergeSort_perm items _
  sort_sorted items := by
    have sorted : (items.mergeSort fun a b => !less b a).Pairwise fun a b => (!less b a) = true :=
      List.pairwise_mergeSort (by simpa using fun a b c => order.trans)
        (by simpa using fun a b => order.total a b) items
    simpa using sorted
  pushHeap_perm items := List.mergeSort_perm items _
  pushHeap_isHeap heap a _ := isHeap_mergeSort order (heap ++ [a])
  popHeap_eq _ rest _ := ⟨_, rfl, List.mergeSort_perm rest _, isHeap_mergeSort order rest⟩

/-! ## Offers -/

/-- The elements kept, and whether one was ever dropped. -/
structure Kept (α : Type*) where
  items : List α
  overflowed : Bool

def Kept.empty : Kept α := ⟨[], false⟩

/-- One element joins those kept, and the last one goes if there are then too many; no limit
if it is zero. -/
def Algorithms.offer (algorithms : Algorithms less) (limit : Nat) (kept : Kept α) (a : α) : Kept α :=
  if limit = 0 then { kept with items := kept.items ++ [a] }
  else
    let heap := algorithms.pushHeap (kept.items ++ [a])
    if limit < heap.length then { items := (algorithms.popHeap heap).dropLast, overflowed := true }
    else { kept with items := heap }

/-- The elements kept are the first ones of those offered. -/
structure Selected (less : α → α → Bool) (limit : Nat) (offered : List α) (kept : Kept α)
    (dropped : List α) : Prop where
  perm : offered.Perm (kept.items ++ dropped)
  before : ∀ a ∈ kept.items, ∀ b ∈ dropped, less b a = false
  overflowed : kept.overflowed = true ↔ dropped ≠ []
  heap : limit ≠ 0 → IsHeap less kept.items
  bounded : limit ≠ 0 → kept.items.length ≤ limit
  full : dropped ≠ [] → limit ≠ 0 ∧ kept.items.length = limit

/-- Ties are between equal elements. -/
def Separated (less : α → α → Bool) (items : List α) : Prop :=
  ∀ a ∈ items, ∀ b ∈ items, less a b = false → less b a = false → a = b

section

variable (algorithms : Algorithms less) {items others : List α} (separated : Separated less items)

include separated

/-- Then a list has one sorted permutation. -/
theorem Algorithms.eq_sort (perm : others.Perm items)
    (sorted : others.Pairwise fun a b => less b a = false) : others = algorithms.sort items := by
  refine List.Perm.eq_of_pairwise ?_ sorted (algorithms.sort_sorted items)
    (perm.trans (algorithms.sort_perm items).symm)
  intro a b a_mem b_mem first second
  exact separated a (perm.mem_iff.mp a_mem) b ((algorithms.sort_perm items).mem_iff.mp b_mem)
    second first

theorem Algorithms.sort_congr (perm : others.Perm items) :
    algorithms.sort others = algorithms.sort items :=
  algorithms.eq_sort separated ((algorithms.sort_perm others).trans perm) (algorithms.sort_sorted others)

end

namespace Selected

variable {limit : Nat} {offered dropped : List α} {kept : Kept α}

theorem empty : Selected less limit [] (Kept.empty : Kept α) [] where
  perm := .nil
  before := by simp [Kept.empty]
  overflowed := by simp [Kept.empty]
  heap _ := by
    intro i bound
    exact absurd bound (Nat.not_lt_zero i)
  bounded _ := Nat.zero_le _
  full h := absurd rfl h

/-- An element that does not come before the last one kept, with no room left, is dropped. -/
theorem skip (order : StrictWeak less) (selected : Selected less limit offered kept dropped)
    {worst : α} {rest : List α} (front : kept.items = worst :: rest) (bound : limit ≠ 0)
    (no_room : limit ≤ kept.items.length) {a : α} (after : less worst a = true) :
    Selected less limit (offered ++ [a]) { kept with overflowed := true } (a :: dropped) where
  perm := by
    have joined := (List.perm_append_singleton a offered).trans (selected.perm.cons a)
    exact joined.trans List.perm_middle.symm
  before := by
    intro b mem c dropped_mem
    obtain rfl | dropped_mem := List.mem_cons.mp dropped_mem
    · have heap : IsHeap less (worst :: rest) := front ▸ selected.heap bound
      have last : less worst b = false := heap.root_last order (front ▸ mem)
      exact order.trans last (order.asymm after)
    · exact selected.before b mem c dropped_mem
  overflowed := by simp
  heap := selected.heap
  bounded := selected.bounded
  full _ := ⟨bound, Nat.le_antisymm (selected.bounded bound) no_room⟩

/-- What the heap holds after an offer that overflows: the root is gone. -/
theorem offer_full (order : StrictWeak less) (algorithms : Algorithms less)
    (selected : Selected less limit offered kept dropped) (bound : limit ≠ 0) (a : α)
    (overflows : limit < (algorithms.pushHeap (kept.items ++ [a])).length) :
    ∃ root, Selected less limit (offered ++ [a])
      { items := (algorithms.popHeap (algorithms.pushHeap (kept.items ++ [a]))).dropLast,
        overflowed := true } (root :: dropped) := by
  have pushed := algorithms.pushHeap_perm (kept.items ++ [a])
  have is_heap := algorithms.pushHeap_isHeap kept.items a (selected.heap bound)
  cases shape : algorithms.pushHeap (kept.items ++ [a]) with
  | nil =>
    rw [shape] at overflows
    exact absurd overflows (Nat.not_lt_zero _)
  | cons root rest =>
    rw [shape] at pushed is_heap overflows
    obtain ⟨heap, popped, perm, heap_heap⟩ := algorithms.popHeap_eq root rest is_heap
    have size : heap.length + 1 = kept.items.length + 1 := by
      simpa using (perm.cons root).length_eq.trans pushed.length_eq
    have large : limit < heap.length + 1 := by
      simpa [perm.length_eq] using overflows
    have mem_heap {b : α} (mem : b ∈ heap) : b ∈ root :: rest :=
      .tail _ (perm.mem_iff.mp mem)
    have bounded := selected.bounded bound
    rw [popped, List.dropLast_concat]
    refine ⟨root, ?_, ?_, by simp, fun _ => heap_heap, fun _ => ?_, fun _ => ⟨bound, ?_⟩⟩
    · calc offered ++ [a]
        _ |>.Perm (kept.items ++ dropped ++ [a]) := selected.perm.append_right [a]
        _ |>.Perm (kept.items ++ [a] ++ dropped) := by
            have swapped : (dropped ++ [a]).Perm ([a] ++ dropped) := List.perm_append_comm
            simpa using swapped.append_left kept.items
        _ |>.Perm (root :: rest ++ dropped) := pushed.symm.append_right dropped
        _ |>.Perm (root :: heap ++ dropped) := (perm.symm.cons root).append_right dropped
        _ |>.Perm (heap ++ root :: dropped) := List.perm_middle.symm
    · intro b mem c dropped_mem
      obtain rfl | dropped_mem := List.mem_cons.mp dropped_mem
      · exact is_heap.root_last order (mem_heap mem)
      · -- an element kept was there before, or is the new one and not after the root
        obtain in_items | in_last := List.mem_append.mp (pushed.mem_iff.mp (mem_heap mem))
        · exact selected.before b in_items c dropped_mem
        · obtain rfl := List.mem_singleton.mp in_last
          obtain root_in_items | root_in_last :=
            List.mem_append.mp (pushed.mem_iff.mp (.head _))
          · exact order.trans (is_heap.root_last order (mem_heap mem))
              (selected.before root root_in_items c dropped_mem)
          · obtain rfl := List.mem_singleton.mp root_in_last
            have rest_perm : rest.Perm kept.items :=
              (pushed.trans (List.perm_append_singleton _ _)).cons_inv
            exact selected.before _ ((perm.trans rest_perm).mem_iff.mp mem) c dropped_mem
    · show heap.length ≤ limit
      omega
    · show heap.length = limit
      omega

/-- What the heap holds after an offer that fits. -/
theorem offer_fits (algorithms : Algorithms less)
    (selected : Selected less limit offered kept dropped) (bound : limit ≠ 0) (a : α)
    (fits : ¬ limit < (algorithms.pushHeap (kept.items ++ [a])).length) :
    Selected less limit (offered ++ [a])
      { kept with items := algorithms.pushHeap (kept.items ++ [a]) } dropped := by
  have pushed := algorithms.pushHeap_perm (kept.items ++ [a])
  have size : (algorithms.pushHeap (kept.items ++ [a])).length = kept.items.length + 1 := by
    simpa using pushed.length_eq
  have nothing : dropped = [] := by
    by_contra some_dropped
    have := (selected.full some_dropped).2
    omega
  subst nothing
  have perm : offered.Perm kept.items := by simpa using selected.perm
  exact ⟨by simpa using (perm.append_right [a]).trans pushed.symm, by simp, selected.overflowed,
    fun _ => algorithms.pushHeap_isHeap kept.items a (selected.heap bound),
    fun _ => Nat.le_of_not_lt fits, fun some_dropped => absurd rfl some_dropped⟩

/-- An offer keeps the first elements kept. -/
theorem offer (order : StrictWeak less) (algorithms : Algorithms less)
    (selected : Selected less limit offered kept dropped) (a : α) :
    ∃ dropped', Selected less limit (offered ++ [a]) (algorithms.offer limit kept a) dropped' := by
  unfold Algorithms.offer
  by_cases bound : limit = 0
  · rw [if_pos bound]
    have nothing : dropped = [] := by
      by_contra some_dropped
      exact (selected.full some_dropped).1 bound
    subst nothing
    have perm : offered.Perm kept.items := by simpa using selected.perm
    exact ⟨[], by simpa using perm.append_right [a], by simp, selected.overflowed,
      fun h => absurd bound h, fun h => absurd bound h, fun h => absurd rfl h⟩
  · rw [if_neg bound]
    dsimp only
    split_ifs with overflows
    · obtain ⟨root, kept_selected⟩ := selected.offer_full order algorithms bound a overflows
      exact ⟨_, kept_selected⟩
    · exact ⟨dropped, selected.offer_fits algorithms bound a overflows⟩

/-- What was kept and what was dropped, each sorted, make up the stream in order; what is kept is
its beginning. -/
theorem stream (algorithms : Algorithms less) (selected : Selected less limit offered kept dropped) :
    ∃ sorted : List α, sorted.Perm offered ∧ (sorted.Pairwise fun a b => less b a = false) ∧
      algorithms.sort kept.items = if limit = 0 then sorted else sorted.take limit := by
  have size : (algorithms.sort kept.items).length = kept.items.length :=
    (algorithms.sort_perm _).length_eq
  refine ⟨algorithms.sort kept.items ++ algorithms.sort dropped, ?_, ?_, ?_⟩
  · exact ((algorithms.sort_perm _).append (algorithms.sort_perm _)).trans selected.perm.symm
  · refine List.pairwise_append.mpr
      ⟨algorithms.sort_sorted _, algorithms.sort_sorted _, fun a a_mem b b_mem => ?_⟩
    exact selected.before a ((algorithms.sort_perm _).mem_iff.mp a_mem) b
      ((algorithms.sort_perm _).mem_iff.mp b_mem)
  · by_cases nothing : dropped = []
    · have none_left : algorithms.sort dropped = [] := by
        rw [← List.perm_nil, ← nothing]
        exact algorithms.sort_perm dropped
      rw [none_left, List.append_nil]
      split_ifs with unbounded
      · rfl
      · exact (List.take_of_length_le (size ▸ selected.bounded unbounded)).symm
    · obtain ⟨bound, full⟩ := selected.full nothing
      rw [if_neg bound, List.take_left' (size.trans full)]

/-- What is kept sorts to the first elements of the sorted stream. -/
theorem sort_eq (algorithms : Algorithms less) (selected : Selected less limit offered kept dropped)
    (separated : Separated less offered) :
    algorithms.sort kept.items =
      if limit = 0 then algorithms.sort offered else (algorithms.sort offered).take limit := by
  obtain ⟨sorted, perm, order, kept_eq⟩ := selected.stream algorithms
  rwa [algorithms.eq_sort separated perm order] at kept_eq

/-- Something was dropped exactly if more was offered than fits. -/
theorem overflowed_iff (selected : Selected less limit offered kept dropped) :
    kept.overflowed = true ↔ limit ≠ 0 ∧ limit < offered.length := by
  have size : offered.length = kept.items.length + dropped.length := by
    simpa using selected.perm.length_eq
  rw [selected.overflowed]
  constructor
  · intro some_dropped
    obtain ⟨bound, full⟩ := selected.full some_dropped
    have := List.length_pos_of_ne_nil some_dropped
    exact ⟨bound, by omega⟩
  · rintro ⟨bound, large⟩ rfl
    have := selected.bounded bound
    simp only [List.length_nil] at size
    omega

end Selected

/-! ## Which ties show -/

/-- The elements kept of a whole stream. -/
def Algorithms.offers (algorithms : Algorithms less) (limit : Nat) (items : List α) : Kept α :=
  items.foldl (algorithms.offer limit) .empty

/-- The first elements of a stream, in order. -/
def Algorithms.ranked (algorithms : Algorithms less) (limit : Nat) (items : List α) : List α :=
  algorithms.sort (algorithms.offers limit items).items

/-- Elements that tie with fewer than `limit` before them are equal. -/
def SeparatedWithin (less : α → α → Bool) (limit : Nat) (items : List α) : Prop :=
  ∀ a ∈ items, ∀ b ∈ items, less a b = false → less b a = false →
    items.countP (less · a) < limit → a = b

namespace StrictWeak

variable (order : StrictWeak less)

include order

theorem irrefl (a : α) : less a a = false := (order.total a a).elim id id

/-- What comes before an element comes before all that are not before that one. -/
theorem before_of_le {a b c : α} (le : less b a = false) (before : less b c = true) :
    less a c = true := by
  by_contra not_before
  have := order.trans (Bool.eq_false_of_not_eq_true not_before) le
  simp [before] at this

/-- Elements that tie compare alike with all others. -/
theorem tie_congr {a b : α} (first : less a b = false) (second : less b a = false) (c : α) :
    less a c = less b c ∧ less c a = less c b := by
  constructor
  · rw [Bool.eq_iff_iff]
    exact ⟨order.before_of_le first, order.before_of_le second⟩
  · rw [Bool.eq_iff_iff, ← not_iff_not, Bool.not_eq_true, Bool.not_eq_true]
    exact ⟨order.trans first, order.trans second⟩

/-- Swapping two that tie changes no comparison. -/
theorem less_swap [DecidableEq α] {a b : α} (first : less a b = false) (second : less b a = false)
    (x y : α) : less (Equiv.swap a b x) (Equiv.swap a b y) = less x y := by
  have moved (z : α) : less (Equiv.swap a b z) z = false ∧ less z (Equiv.swap a b z) = false := by
    rw [Equiv.swap_apply_def]
    split_ifs with is_a is_b
    · exact is_a ▸ ⟨second, first⟩
    · exact is_b ▸ ⟨first, second⟩
    · exact ⟨order.irrefl z, order.irrefl z⟩
  calc less (Equiv.swap a b x) (Equiv.swap a b y)
    _ = less x (Equiv.swap a b y) := (order.tie_congr (moved x).1 (moved x).2 _).1
    _ = less x y := (order.tie_congr (moved y).1 (moved y).2 _).2

variable {sorted : List α} (ordered : sorted.Pairwise fun a b => less b a = false) {i : Nat}

include ordered

theorem not_before_of_le {j : Nat} (bound : j < sorted.length) (le : i ≤ j) :
    less sorted[j] sorted[i] = false := by
  obtain less_than | rfl := Nat.lt_or_eq_of_le le
  · exact List.pairwise_iff_getElem.mp ordered i j (by omega) bound less_than
  · exact order.irrefl _

/-- As many elements come before that at position `i` at most. -/
theorem countP_le (bound : i < sorted.length) : sorted.countP (less · sorted[i]) ≤ i := by
  have behind : (sorted.drop i).countP (less · sorted[i]) = 0 := by
    rw [List.countP_eq_zero]
    intro a member
    obtain ⟨k, inside, rfl⟩ := List.getElem_of_mem member
    rw [List.getElem_drop]
    rw [List.length_drop] at inside
    simp [order.not_before_of_le ordered (show i + k < sorted.length by omega) (Nat.le_add_right i k)]
  calc sorted.countP (less · sorted[i])
    _ = (sorted.take i).countP (less · sorted[i]) + (sorted.drop i).countP (less · sorted[i]) := by
        rw [← List.countP_append, List.take_append_drop]
    _ ≤ (sorted.take i).length := by
        rw [behind, Nat.add_zero]
        exact List.countP_le_length
    _ ≤ i := List.length_take_le i sorted

/-- If that at position `i` comes before another, so do all up to there. -/
theorem lt_countP (bound : i < sorted.length) {b : α} (before : less sorted[i] b = true) :
    i < sorted.countP (less · b) := by
  have ahead : (sorted.take (i + 1)).countP (less · b) = (sorted.take (i + 1)).length := by
    rw [List.countP_eq_length]
    intro a member
    obtain ⟨k, inside, rfl⟩ := List.getElem_of_mem member
    rw [List.getElem_take]
    rw [List.length_take] at inside
    exact order.before_of_le (order.not_before_of_le ordered bound (by omega)) before
  have whole : sorted.countP (less · b) =
      (sorted.take (i + 1)).countP (less · b) + (sorted.drop (i + 1)).countP (less · b) := by
    rw [← List.countP_append, List.take_append_drop]
  rw [ahead, List.length_take] at whole
  omega

/-- Two orders of one list tie at every position. -/
theorem tie_of_perm {other : List α} (other_ordered : other.Pairwise fun a b => less b a = false)
    (perm : sorted.Perm other) (bound : i < sorted.length) (other_bound : i < other.length) :
    less sorted[i] other[i] = false := by
  by_contra before
  have more := order.lt_countP ordered bound (Bool.eq_true_of_not_eq_false before)
  rw [perm.countP_eq] at more
  exact absurd (order.countP_le other_ordered other_bound) (by omega)

/-- If no tie shows, they begin alike. -/
theorem take_congr {items other : List α} {limit : Nat} (within : SeparatedWithin less limit items)
    (perm : sorted.Perm items) (other_perm : other.Perm items)
    (other_ordered : other.Pairwise fun a b => less b a = false) :
    sorted.take limit = other.take limit := by
  have same := perm.trans other_perm.symm
  refine List.ext_getElem (by simp [same.length_eq]) fun i inside other_inside => ?_
  rw [List.length_take] at inside other_inside
  rw [List.getElem_take, List.getElem_take]
  have bound : i < sorted.length := by omega
  have other_bound : i < other.length := by omega
  refine within _ (perm.mem_iff.mp (List.getElem_mem _)) _
    (other_perm.mem_iff.mp (List.getElem_mem _)) ?_ ?_ ?_
  · exact order.tie_of_perm ordered other_ordered same bound other_bound
  · exact order.tie_of_perm other_ordered ordered same.symm other_bound bound
  · rw [← perm.countP_eq]
    exact lt_of_le_of_lt (order.countP_le ordered bound) (by omega)

end StrictWeak

section Ranked

variable (order : StrictWeak less) (algorithms : Algorithms less) {limit : Nat} {items : List α}

include order

theorem Selected.offers (limit : Nat) (items : List α) :
    ∃ dropped, Selected less limit items (algorithms.offers limit items) dropped := by
  induction items using List.reverseRecOn with
  | nil => exact ⟨[], .empty⟩
  | append_singleton items a ih =>
    obtain ⟨dropped, selected⟩ := ih
    rw [Algorithms.offers, List.foldl_append]
    exact selected.offer order algorithms a

/-- If no tie shows, neither the order of the stream nor the algorithms matter. -/
theorem Algorithms.ranked_congr (other : Algorithms less) (bound : limit ≠ 0)
    (within : SeparatedWithin less limit items) {others : List α} (perm : others.Perm items) :
    other.ranked limit others = algorithms.ranked limit items := by
  obtain ⟨dropped, selected⟩ := Selected.offers order algorithms limit items
  obtain ⟨others_dropped, others_selected⟩ := Selected.offers order other limit others
  obtain ⟨sorted, sorted_perm, ordered, first⟩ := selected.stream algorithms
  obtain ⟨others_sorted, others_perm, others_ordered, second⟩ := others_selected.stream other
  rw [Algorithms.ranked, Algorithms.ranked, first, second, if_neg bound, if_neg bound]
  exact order.take_congr others_ordered within (others_perm.trans perm) sorted_perm ordered

variable {f : α → α} (same : ∀ a b, less (f a) (f b) = less a b)

include same

/-- Renaming that keeps the comparisons goes through the reference algorithms. -/
theorem Algorithms.reference_pushHeap_map (heap : List α) :
    (reference order).pushHeap (heap.map f) = ((reference order).pushHeap heap).map f :=
  (List.map_mergeSort fun a _ b _ => by rw [same]).symm

theorem Algorithms.reference_popHeap_map (heap : List α) :
    (reference order).popHeap (heap.map f) = ((reference order).popHeap heap).map f := by
  cases heap with
  | nil => rfl
  | cons root rest =>
    have pushed := reference_pushHeap_map order same rest
    simp only [reference] at pushed
    simp [reference, pushed]

theorem Algorithms.reference_offer_map (kept : Kept α) (a : α) :
    (reference order).offer limit ⟨kept.items.map f, kept.overflowed⟩ (f a) =
      ⟨((reference order).offer limit kept a).items.map f,
        ((reference order).offer limit kept a).overflowed⟩ := by
  have joined : kept.items.map f ++ [f a] = (kept.items ++ [a]).map f := by simp
  unfold Algorithms.offer
  dsimp only
  rw [joined, reference_pushHeap_map order same, reference_popHeap_map order same, List.length_map]
  split_ifs <;> simp

theorem Algorithms.reference_ranked_map (limit : Nat) (items : List α) :
    (reference order).ranked limit (items.map f) = ((reference order).ranked limit items).map f := by
  have offered : (reference order).offers limit (items.map f) =
      ⟨((reference order).offers limit items).items.map f,
        ((reference order).offers limit items).overflowed⟩ := by
    induction items using List.reverseRecOn with
    | nil => rfl
    | append_singleton items a ih =>
      unfold Algorithms.offers at ih ⊢
      rw [List.map_append, List.foldl_append, List.foldl_append, ih]
      exact reference_offer_map order same _ a
  rw [ranked, ranked, offered]
  exact (List.map_mergeSort fun a _ b _ => by rw [same]).symm

omit same

/-- A tie with fewer than `limit` before it shows: two of those that tie can be swapped, and one of
them is ranked. -/
theorem Algorithms.exists_swap [DecidableEq α] (bound : limit ≠ 0)
    (shown : ¬ SeparatedWithin less limit items) :
    ∃ a ∈ items, ∃ b ∈ items, a ≠ b ∧ less a b = false ∧ less b a = false ∧
      (reference order).ranked limit (items.map (Equiv.swap a b)) ≠
        (reference order).ranked limit items := by
  simp only [SeparatedWithin, not_forall] at shown
  obtain ⟨a, a_mem, b, b_mem, first, second, few, differ⟩ := shown
  obtain ⟨dropped, selected⟩ := Selected.offers order (reference order) limit items
  obtain ⟨sorted, perm, ordered, ranked_eq⟩ := selected.stream (reference order)
  rw [if_neg bound] at ranked_eq
  -- the element ranked behind all that come before `a`
  set position := items.countP (less · a) with position_eq
  rw [← perm.countP_eq] at position_eq
  obtain ⟨at_a, inside, is_a⟩ := List.getElem_of_mem (perm.mem_iff.mpr a_mem)
  have reached : position ≤ at_a := by
    rw [position_eq, ← is_a]
    exact order.countP_le ordered inside
  have position_lt : position < sorted.length := by omega
  set c := sorted[position] with c_eq
  have c_first : less c a = false := by
    by_contra before
    have := order.lt_countP ordered position_lt (Bool.eq_true_of_not_eq_false before)
    omega
  have c_second : less a c = false := by
    rw [← is_a]
    exact order.not_before_of_le ordered inside reached
  have c_mem : c ∈ items := perm.mem_iff.mp (List.getElem_mem _)
  have c_ranked : c ∈ (reference order).ranked limit items := by
    rw [ranked, ranked_eq, List.mem_take_iff_getElem]
    exact ⟨position, by omega, rfl⟩
  have shows {d : α} (apart : c ≠ d) (first : less c d = false) (second : less d c = false) :
      (reference order).ranked limit (items.map (Equiv.swap c d)) ≠
        (reference order).ranked limit items := by
    rw [reference_ranked_map order (order.less_swap first second)]
    intro unchanged
    obtain ⟨k, k_inside, is_c⟩ := List.getElem_of_mem c_ranked
    have moved : ((reference order).ranked limit items)[k]? =
        (((reference order).ranked limit items).map (Equiv.swap c d))[k]? := by rw [unchanged]
    rw [List.getElem?_map, List.getElem?_eq_getElem k_inside, is_c, Option.map_some,
      Equiv.swap_apply_left] at moved
    exact apart (Option.some.inj moved)
  by_cases is_c : c = a
  · exact ⟨c, c_mem, b, b_mem, is_c ▸ differ, is_c ▸ first, is_c ▸ second,
      shows (is_c ▸ differ) (is_c ▸ first) (is_c ▸ second)⟩
  · exact ⟨c, c_mem, a, a_mem, is_c, c_first, c_second, shows is_c c_first c_second⟩

end Ranked

end FastFiles.Selection
