import FastFiles.Foundations.Selection
import FastFiles.Search.Query

/-!
# The order of results

`ResultLess` of `Search.cpp`: the sort field, in the requested direction, and then folder,
volume and identity.  `resultOrder` is the same order as a chain of comparisons
(`resultLess_eq`), so the source's comparison is a strict weak order that separates results
of different rows (`strictWeak_resultLess`, `key_eq_of_tie`).
-/

namespace FastFiles.Search

open Index (Text)
open Selection

inductive SortField where
  | relevance | filename | path | size | modified | created | allocatedSize
deriving DecidableEq

/-- A row that matched, and how well. -/
structure SearchResult where
  candidate : Candidate
  tier : MatchTier
deriving DecidableEq

/-! ## The comparison of the source -/

variable (ordinal : Ordinal) (field : SortField) (descending : Bool)

/-- `CompareOrdinal` and `CompareOrdinal16`: the result of the comparison less that of equal
texts. -/
def compareOrdinal (left right : Text) : Int :=
  match ordinal left right with
  | .lt => -1
  | .eq => 0
  | .gt => 1

/-- The smaller of two numbers comes first. -/
def threeWay (left right : UInt64) : Int :=
  if left < right then -1 else if left > right then 1 else 0

/-- The comparison of the sort field alone. -/
def primary (left right : SearchResult) : Int :=
  match field with
  | .relevance =>
    let byTier : Int := left.tier.rank - right.tier.rank
    let byName : Int := left.candidate.name.length - right.candidate.name.length
    let byFolder : Int := left.candidate.folder.length - right.candidate.folder.length
    if byTier ≠ 0 then byTier else if byName ≠ 0 then byName else byFolder
  | .filename => compareOrdinal ordinal left.candidate.name right.candidate.name
  | .path => compareOrdinal ordinal left.candidate.folder right.candidate.folder
  | .size => threeWay left.candidate.sizeBytes right.candidate.sizeBytes
  | .modified => threeWay left.candidate.modifiedTime right.candidate.modifiedTime
  | .created => threeWay left.candidate.createdTime right.candidate.createdTime
  | .allocatedSize =>
    if left.candidate.allocatedSizeKnown then
      threeWay left.candidate.allocatedSizeBytes right.candidate.allocatedSizeBytes
    else 0

/-- Unknown allocated sizes come last in both directions. -/
def resultLess (left right : SearchResult) : Bool :=
  if field = .allocatedSize ∧
      left.candidate.allocatedSizeKnown ≠ right.candidate.allocatedSizeKnown then
    left.candidate.allocatedSizeKnown
  else if primary ordinal field left right ≠ 0 then
    if descending then decide (0 < primary ordinal field left right)
    else decide (primary ordinal field left right < 0)
  else if compareOrdinal ordinal left.candidate.folder right.candidate.folder ≠ 0 then
    decide (compareOrdinal ordinal left.candidate.folder right.candidate.folder < 0)
  else if left.candidate.volumeId ≠ right.candidate.volumeId then
    decide (left.candidate.volumeId < right.candidate.volumeId)
  else decide (left.candidate.id < right.candidate.id)

/-! ## The order as a chain -/

/-- The comparison of two results by a text of theirs. -/
def byText (text : SearchResult → Text) (left right : SearchResult) : Ordering :=
  ordinal (text left) (text right)

instance byText_trans (ordinal : Ordinal) [Std.TransCmp ordinal] (text : SearchResult → Text) :
    Std.TransCmp (byText ordinal text) where
  eq_swap {a b} := by
    show ordinal (text a) (text b) = (ordinal (text b) (text a)).swap
    exact Std.OrientedCmp.eq_swap
  isLE_trans {a b c} := by
    show (ordinal (text a) (text b)).isLE = true → (ordinal (text b) (text c)).isLE = true →
      (ordinal (text a) (text c)).isLE = true
    exact Std.TransCmp.isLE_trans

/-- Known allocated sizes first. -/
def knownFirst : SearchResult → SearchResult → Ordering :=
  compareOn fun result => field == .allocatedSize && !result.candidate.allocatedSizeKnown

def primaryOrder : SortField → SearchResult → SearchResult → Ordering
  | .relevance =>
    compareLex (compareOn fun result => result.tier.rank)
      (compareLex (compareOn fun result => result.candidate.name.length)
        (compareOn fun result => result.candidate.folder.length))
  | .filename => byText ordinal fun result => result.candidate.name
  | .path => byText ordinal fun result => result.candidate.folder
  | .size => compareOn fun result => result.candidate.sizeBytes
  | .modified => compareOn fun result => result.candidate.modifiedTime
  | .created => compareOn fun result => result.candidate.createdTime
  | .allocatedSize => compareOn fun result =>
    if result.candidate.allocatedSizeKnown then some result.candidate.allocatedSizeBytes else none

def directed (cmp : SearchResult → SearchResult → Ordering) :
    SearchResult → SearchResult → Ordering :=
  if descending then fun left right => cmp right left else cmp

/-- The order of `ResultLess` as one comparison. -/
def resultOrder : SearchResult → SearchResult → Ordering :=
  compareLex (knownFirst field)
    (compareLex (directed descending (primaryOrder ordinal field))
      (compareLex (byText ordinal fun result => result.candidate.folder)
        (compareLex (compareOn fun result => result.candidate.volumeId)
          (compareOn fun result => result.candidate.id))))

section Laws

variable (ordinal : Ordinal) [Std.TransCmp ordinal] (field : SortField) (descending : Bool)

instance primaryOrder_trans : Std.TransCmp (primaryOrder ordinal field) := by
  cases field <;> unfold primaryOrder <;> infer_instance

instance directed_trans (cmp : SearchResult → SearchResult → Ordering) [Std.TransCmp cmp] :
    Std.TransCmp (directed descending cmp) := by
  cases descending with
  | false => exact inferInstanceAs (Std.TransCmp cmp)
  | true => exact inferInstanceAs (Std.TransCmp fun left right => cmp right left)

instance resultOrder_trans : Std.TransCmp (resultOrder ordinal field descending) := by
  unfold resultOrder knownFirst
  infer_instance

end Laws

/-! ## The two agree -/

theorem compare_ite (x y : Int) :
    compare (if x ≠ 0 then x else y) 0 = (compare x 0).then (compare y 0) := by
  split_ifs with nonzero
  · have differs : compare x 0 ≠ .eq := by simpa using nonzero
    cases h : compare x 0 <;> simp_all
  · rw [not_not.mp nonzero]
    rfl

theorem compare_sub (a b : Nat) : compare ((a : Int) - b) 0 = compare a b := by
  rcases Nat.lt_trichotomy a b with h | h | h
  · rw [compare_lt_iff_lt.mpr h, compare_lt_iff_lt.mpr (by omega)]
  · rw [compare_eq_iff_eq.mpr h, compare_eq_iff_eq.mpr (by omega)]
  · rw [compare_gt_iff_gt.mpr h, compare_gt_iff_gt.mpr (by omega)]

theorem compare_compareOrdinal (left right : Text) :
    compare (compareOrdinal ordinal left right) 0 = ordinal left right := by
  unfold compareOrdinal
  cases ordinal left right <;> rfl

theorem compare_threeWay (left right : UInt64) :
    compare (threeWay left right) 0 = compare left right := by
  show _ = compareOfLessAndEq left right
  unfold threeWay compareOfLessAndEq
  split_ifs with less more same same
  · rfl
  · subst same
    exact absurd more less
  · rfl
  · rfl
  · exact absurd (UInt64.le_antisymm (UInt64.not_lt.mp more) (UInt64.not_lt.mp less)) same

variable {left right : SearchResult} {field : SortField}

/-- The sign of the primary key, as an ordering. -/
theorem compare_primary (ordinal : Ordinal) (comparable : ¬ (field = .allocatedSize ∧
      left.candidate.allocatedSizeKnown ≠ right.candidate.allocatedSizeKnown)) :
    compare (primary ordinal field left right) 0 = primaryOrder ordinal field left right := by
  cases field with
  | relevance =>
    simp only [primary, primaryOrder, compareLex, compareOn, compare_ite, compare_sub]
  | filename | path => exact compare_compareOrdinal ordinal _ _
  | size | modified | created => exact compare_threeWay _ _
  | allocatedSize =>
    have same : left.candidate.allocatedSizeKnown = right.candidate.allocatedSizeKnown := by
      simpa using comparable
    simp only [primary, primaryOrder, compareOn, same]
    cases right.candidate.allocatedSizeKnown with
    | false => rfl
    | true => exact compare_threeWay _ _

/-- A key and what follows it, as the source chains them. -/
theorem isLT_compare_then (x : Int) (rest : Ordering) :
    ((compare x 0).then rest).isLT = if x ≠ 0 then decide (x < 0) else rest.isLT := by
  rcases lt_trichotomy x 0 with less | rfl | more
  · rw [compare_lt_iff_lt.mpr less, if_pos less.ne, decide_eq_true less]
    rfl
  · rfl
  · rw [compare_gt_iff_gt.mpr more, if_pos more.ne', decide_eq_false (by omega)]
    rfl

/-- The same, from last to first. -/
theorem isLT_compare_swap_then (x : Int) (rest : Ordering) :
    ((compare x 0).swap.then rest).isLT = if x ≠ 0 then decide (0 < x) else rest.isLT := by
  have negated : (compare x 0).swap = compare (-x) 0 := by
    rcases lt_trichotomy x 0 with less | rfl | more
    · rw [compare_lt_iff_lt.mpr less, compare_gt_iff_gt.mpr (by omega : -x > 0)]
      rfl
    · rfl
    · rw [compare_gt_iff_gt.mpr more, compare_lt_iff_lt.mpr (by omega : -x < 0)]
      rfl
  rw [negated, isLT_compare_then]
  simp

theorem knownFirst_eq (comparable : ¬ (field = .allocatedSize ∧
      left.candidate.allocatedSizeKnown ≠ right.candidate.allocatedSizeKnown)) :
    knownFirst field left right = .eq := by
  have same : (field == .allocatedSize && !left.candidate.allocatedSizeKnown) =
      (field == .allocatedSize && !right.candidate.allocatedSizeKnown) := by
    by_cases allocated : field = .allocatedSize
    · have known : left.candidate.allocatedSizeKnown = right.candidate.allocatedSizeKnown := by
        simpa [allocated] using comparable
      rw [known]
    · rw [beq_false_of_ne allocated, Bool.false_and, Bool.false_and]
  show compare (field == .allocatedSize && !left.candidate.allocatedSizeKnown)
    (field == .allocatedSize && !right.candidate.allocatedSizeKnown) = .eq
  rw [same]
  exact Std.ReflCmp.compare_self

theorem knownFirst_of_unknown
    (differs : left.candidate.allocatedSizeKnown ≠ right.candidate.allocatedSizeKnown) :
    knownFirst .allocatedSize left right =
      if left.candidate.allocatedSizeKnown then .lt else .gt := by
  unfold knownFirst compareOn
  cases left_known : left.candidate.allocatedSizeKnown <;>
    cases right_known : right.candidate.allocatedSizeKnown <;> simp_all <;> rfl

/-- The primary key in its direction, and what follows it. -/
theorem isLT_primary {ordinal : Ordinal} [Std.TransCmp ordinal] (descending : Bool)
    (rest : Ordering) (comparable : ¬ (field = .allocatedSize ∧
      left.candidate.allocatedSizeKnown ≠ right.candidate.allocatedSizeKnown)) :
    ((directed descending (primaryOrder ordinal field) left right).then rest).isLT =
      if primary ordinal field left right ≠ 0 then
        if descending then decide (0 < primary ordinal field left right)
        else decide (primary ordinal field left right < 0)
      else rest.isLT := by
  have sign := compare_primary ordinal comparable
  cases descending with
  | false =>
    show ((primaryOrder ordinal field left right).then rest).isLT = _
    rw [← sign, isLT_compare_then]
    rfl
  | true =>
    have swapped : primaryOrder ordinal field right left =
        (primaryOrder ordinal field left right).swap := Std.OrientedCmp.eq_swap
    show ((primaryOrder ordinal field right left).then rest).isLT = _
    rw [swapped, ← sign, isLT_compare_swap_then]
    rfl

theorem resultLess_eq (ordinal : Ordinal) [Std.TransCmp ordinal] (field : SortField)
    (descending : Bool) :
    resultLess ordinal field descending =
      fun left right => (resultOrder ordinal field descending left right).isLT := by
  funext left right
  unfold resultLess resultOrder
  by_cases unknown : field = .allocatedSize ∧
      left.candidate.allocatedSizeKnown ≠ right.candidate.allocatedSizeKnown
  · obtain ⟨rfl, differs⟩ := unknown
    rw [if_pos ⟨rfl, differs⟩, compareLex, knownFirst_of_unknown differs]
    cases left.candidate.allocatedSizeKnown <;> rfl
  · rw [if_neg unknown, compareLex, knownFirst_eq unknown]
    simp only [compareLex, Ordering.eq_then]
    rw [isLT_primary descending _ unknown]
    congr 1
    have by_folder : byText ordinal (fun result => result.candidate.folder) left right =
        compare (compareOrdinal ordinal left.candidate.folder right.candidate.folder) 0 :=
      (compare_compareOrdinal ordinal _ _).symm
    have by_volume : compare left.candidate.volumeId right.candidate.volumeId =
        compare (left.candidate.volumeId - right.candidate.volumeId) 0 := by
      rcases lt_trichotomy left.candidate.volumeId right.candidate.volumeId with less | same | more
      · rw [compare_lt_iff_lt.mpr less, compare_lt_iff_lt.mpr (by omega)]
      · rw [compare_eq_iff_eq.mpr same, compare_eq_iff_eq.mpr (by omega)]
      · rw [compare_gt_iff_gt.mpr more, compare_gt_iff_gt.mpr (by omega)]
    have by_id : (compare left.candidate.id right.candidate.id).isLT =
        decide (left.candidate.id < right.candidate.id) := by
      rw [← compare_threeWay, threeWay]
      split_ifs with less more
      · exact (decide_eq_true less).symm
      iterate 2 exact (decide_eq_false less).symm
    rw [by_folder, isLT_compare_then]
    congr 1
    simp only [compareOn]
    rw [by_volume, isLT_compare_then, by_id]
    simp [sub_eq_zero, sub_neg]

section Laws

variable (ordinal : Ordinal) [Std.TransCmp ordinal] (field : SortField) (descending : Bool)

theorem strictWeak_resultLess : StrictWeak (resultLess ordinal field descending) := by
  rw [resultLess_eq]
  exact StrictWeak.of_transCmp (resultOrder ordinal field descending)

variable {ordinal field descending}

variable (not_before : resultLess ordinal field descending left right = false)
  (not_after : resultLess ordinal field descending right left = false)

include not_before not_after

/-- Results of which neither comes first are equal in the whole chain. -/
theorem resultOrder_eq_of_tie : resultOrder ordinal field descending left right = .eq := by
  rw [resultLess_eq] at not_before not_after
  dsimp only at not_before not_after
  have swapped : resultOrder ordinal field descending right left =
      (resultOrder ordinal field descending left right).swap := Std.OrientedCmp.eq_swap
  rw [swapped] at not_after
  cases h : resultOrder ordinal field descending left right <;> simp_all

/-- Only results of one row tie. -/
theorem key_eq_of_tie : left.candidate.key = right.candidate.key := by
  have tie := resultOrder_eq_of_tie not_before not_after
  simp only [resultOrder, compareLex, Ordering.then_eq_eq, compareOn] at tie
  obtain ⟨-, -, -, volume, id⟩ := tie
  exact Prod.ext (compare_eq_iff_eq.mp volume) (Std.LawfulEqCmp.eq_of_compare id)

end Laws

end FastFiles.Search
