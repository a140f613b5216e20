import FastFiles.Foundations.Selection
import FastFiles.Foundations.WideText
import FastFiles.Search.Path
import FastFiles.Search.Substring

/-!
# Safety of replacements

`EvaluateReplacementSafety` of `FileOperationPolicy.cpp`: whether a replacement target touches what
the ordinary items of a batch have produced.  Instead of comparing all pairs it sorts the results
and looks up the target, its first descendant and its ancestors.

`replacement_safety_exact` shows that this finds the overlaps of `TransferPathsOverlap`: what lies
below a folder stands together in the order, since a path between two that begin alike begins as
they do (`prefix_of_between`).
-/

namespace FastFiles.Ui

open Index (Text backslash)
open Search (extendedMark extendedUncMark)
open Selection
open WideText (wide)

/-! ## The check -/

inductive ReplacementSafety where
  | safe | incomplete | overlap
deriving DecidableEq

section Check

variable (ordinal : Search.Ordinal) (lexicallyNormal : Text → Text)

/-- `CaseInsensitivePathLess`. -/
def pathLess (left right : Text) : Bool := (ordinal left right).isLT

/-- `WindowsPathEqual`. -/
def pathEqual (left right : Text) : Bool := ordinal left right == .eq

variable (paths : List Text) (path : Text)

def normalizeTransferPath : Text :=
  let value := lexicallyNormal path
  let value :=
    if 8 ≤ value.length ∧ pathEqual ordinal (value.take 8) extendedUncMark then
      [backslash, backslash] ++ value.drop 8
    else if extendedMark.isPrefixOf value then value.drop 4
    else value
  (value.map fun unit => if unit = 0x2f then backslash else unit).rdropWhile (· == backslash)

def pathContains (parent child : Text) : Bool :=
  if child.length < parent.length then false
  else if !pathEqual ordinal parent (child.take parent.length) then false
  else child.length == parent.length || child[parent.length]? == some backslash

def transferPathsOverlap (left right : Text) : Bool :=
  let a := normalizeTransferPath ordinal lexicallyNormal left
  let b := normalizeTransferPath ordinal lexicallyNormal right
  if a.isEmpty || b.isEmpty then true else pathContains ordinal a b || pathContains ordinal b a

/-- `std::lower_bound` in a sorted list. -/
def lowerBound : Option Text :=
  paths.find? fun entry => !pathLess ordinal entry path

def binarySearch : Bool :=
  (lowerBound ordinal paths path).any fun entry => !pathLess ordinal path entry

/-- What stands before the separators of a path, apart from one at its start. -/
def ancestors : List Text :=
  path.inits.filter fun head => !head.isEmpty && path[head.length]? == some backslash

/-- The look-ups of one target in the sorted results. -/
def targetOverlaps (target : Text) : Bool :=
  binarySearch ordinal paths target ||
    (lowerBound ordinal paths (target ++ [backslash])).any (pathContains ordinal target) ||
    (ancestors target).any (binarySearch ordinal paths)

/-- The ordinary results are given by their resulting paths, the targets by their destinations. -/
def evaluateReplacementSafety (algorithms : Algorithms (pathLess ordinal)) (submittedOrdinary : Nat)
    (ordinaryFailed : Bool) (results targets : List Text) : ReplacementSafety :=
  let ordinaryPaths := results.map (normalizeTransferPath ordinal lexicallyNormal)
  let replacementPaths := targets.map (normalizeTransferPath ordinal lexicallyNormal)
  if ordinaryFailed || results.length != submittedOrdinary || results.any List.isEmpty ||
      targets.any List.isEmpty then .incomplete
  else if ordinaryPaths.any List.isEmpty || replacementPaths.any List.isEmpty then .incomplete
  else if replacementPaths.any (targetOverlaps ordinal (algorithms.sort ordinaryPaths)) then .overlap
  else .safe

end Check

/-! ## The order of paths -/

/-- How case is ignored: unit by unit, and the separator has no other case. -/
structure CaseFolding where
  fold : UInt16 → UInt16
  separator : ∀ unit, fold unit = fold backslash → unit = backslash

namespace CaseFolding

variable (folding : CaseFolding)

def ordinal : Search.Ordinal := Search.foldedOrdinal folding.fold

def key (path : Text) : Text := path.map folding.fold

end CaseFolding

theorem isLE_compare_iff {a b : Text} : (compare a b).isLE = true ↔ a ≤ b := by
  induction a generalizing b with
  | nil => cases b <;> simp
  | cons x a ih =>
    cases b with
    | nil => simp
    | cons y b =>
      rw [List.compare_eq_compareLex, List.compareLex_cons_cons, List.cons_le_cons_iff, ← ih,
        Ordering.isLE_then_iff_or, Std.compare_eq_lt, Std.LawfulEqCmp.compare_eq_iff_eq,
        List.compare_eq_compareLex]

/-- A text between two of which one starts the other starts as they do. -/
theorem prefix_of_between {p b c : Text} (starts : p <+: c) (low : p ≤ b) (high : b ≤ c) :
    p <+: b := by
  induction p generalizing b c with
  | nil => exact List.nil_prefix
  | cons x p ih =>
    obtain ⟨rest, rfl⟩ := starts
    cases b with
    | nil => simp at low
    | cons y b =>
      rw [List.cons_append, List.cons_le_cons_iff] at high
      rw [List.cons_le_cons_iff] at low
      obtain rfl : x = y := by grind
      exact (List.prefix_cons_inj x).mpr (ih (List.prefix_append p rest) (by grind) (by grind))

section Order

variable {folding : CaseFolding} {left right : Text}

theorem pathLess_eq_false :
    pathLess folding.ordinal left right = false ↔ folding.key right ≤ folding.key left := by
  have swapped : compare (folding.key left) (folding.key right) =
      (compare (folding.key right) (folding.key left)).swap := Std.OrientedCmp.eq_swap
  rw [← isLE_compare_iff]
  show (compare (folding.key left) (folding.key right)).isLT = false ↔ _
  rw [swapped]
  cases compare (folding.key right) (folding.key left) <;> decide

theorem pathEqual_iff :
    pathEqual folding.ordinal left right = true ↔ folding.key left = folding.key right :=
  beq_iff_eq.trans ((Search.unitWise_foldedOrdinal folding.fold).eq_iff left right)

/-- A path contains what is equal to it or continues an equal path with a separator. -/
theorem pathContains_iff : pathContains folding.ordinal left right = true ↔
    folding.key left = folding.key right ∨
      ∃ head tail, right = head ++ backslash :: tail ∧ folding.key left = folding.key head := by
  unfold pathContains
  constructor
  · intro contains
    split_ifs at contains with short differs
    rw [Bool.not_eq_true, Bool.not_eq_false', pathEqual_iff] at differs
    rw [Bool.or_eq_true, beq_iff_eq, beq_iff_eq] at contains
    rcases contains with whole | inside
    · rw [List.take_of_length_le whole.le] at differs
      exact .inl differs
    · obtain ⟨bound, here⟩ := List.getElem?_eq_some_iff.mp inside
      exact .inr ⟨_, _, by rw [← here, ← List.drop_eq_getElem_cons bound, List.take_append_drop],
        differs⟩
  · rintro (same | ⟨head, tail, rfl, same⟩)
    all_goals
      have size := congrArg List.length same
      simp only [CaseFolding.key, List.length_map] at size
      simp [size, pathEqual_iff, same]

variable {paths : List Text} (sorted : paths.Pairwise fun a b => pathLess folding.ordinal b a = false)

include sorted

/-- The first path that is not below a given one is not above any such path. -/
theorem lowerBound_of_mem {path found : Text} (member : found ∈ paths)
    (above : folding.key path ≤ folding.key found) :
    ∃ entry, lowerBound folding.ordinal paths path = some entry ∧
      folding.key path ≤ folding.key entry ∧ folding.key entry ≤ folding.key found := by
  induction paths with
  | nil => cases member
  | cons entry paths ih =>
    obtain ⟨first, rest⟩ := List.pairwise_cons.mp sorted
    rw [lowerBound, List.find?_cons]
    cases below : pathLess folding.ordinal entry path with
    | false =>
      refine ⟨entry, rfl, pathLess_eq_false.mp below, ?_⟩
      rcases List.mem_cons.mp member with rfl | later
      · exact List.le_refl _
      · exact pathLess_eq_false.mp (first found later)
    | true =>
      rcases List.mem_cons.mp member with rfl | later
      · simp [pathLess_eq_false.mpr above] at below
      · exact ih rest later

theorem binarySearch_iff {path : Text} : binarySearch folding.ordinal paths path = true ↔
    ∃ entry ∈ paths, folding.key path = folding.key entry := by
  simp only [binarySearch, Option.any_eq_true, Bool.not_eq_true', pathLess_eq_false]
  constructor
  · rintro ⟨entry, found, notAfter⟩
    have notBefore := List.find?_some found
    rw [Bool.not_eq_true', pathLess_eq_false] at notBefore
    exact ⟨entry, List.mem_of_find?_eq_some found, List.le_antisymm notBefore notAfter⟩
  · rintro ⟨found, member, same⟩
    have above : folding.key path ≤ folding.key found := same ▸ List.le_refl _
    obtain ⟨entry, lower, -, notAfter⟩ := lowerBound_of_mem sorted member above
    exact ⟨entry, lower, same ▸ notAfter⟩

theorem targetOverlaps_iff (nonempty : ∀ path ∈ paths, path ≠ []) {target : Text} :
    targetOverlaps folding.ordinal paths target = true ↔ ∃ path ∈ paths,
      pathContains folding.ordinal path target = true ∨
        pathContains folding.ordinal target path = true := by
  simp only [targetOverlaps, Bool.or_eq_true, Option.any_eq_true, List.any_eq_true, ancestors,
    List.mem_filter, List.mem_inits, Bool.and_eq_true, beq_iff_eq, Bool.not_eq_true',
    binarySearch_iff sorted, pathContains_iff]
  constructor
  · rintro ((⟨path, member, same⟩ | ⟨path, found, contains⟩) |
      ⟨head, ⟨⟨rest, rfl⟩, -, inside⟩, path, member, same⟩)
    · exact ⟨path, member, .inr (.inl same)⟩
    · exact ⟨path, List.mem_of_find?_eq_some found, .inr contains⟩
    · rw [List.getElem?_append_right le_rfl, Nat.sub_self, ← List.head?_eq_getElem?,
        List.head?_eq_some_iff] at inside
      obtain ⟨tail, rfl⟩ := inside
      exact ⟨path, member, .inl (.inr ⟨head, tail, rfl, same.symm⟩)⟩
  · rintro ⟨path, member, (same | ⟨head, tail, rfl, same⟩) | same | ⟨head, tail, rfl, same⟩⟩
    · exact .inl (.inl ⟨path, member, same.symm⟩)
    · refine .inr ⟨head, ⟨⟨_, rfl⟩, ?_, by simp⟩, path, member, same.symm⟩
      rw [← Bool.not_eq_true, List.isEmpty_iff]
      rintro rfl
      exact nonempty path member (List.map_eq_nil_iff.mp same)
    · exact .inl (.inl ⟨path, member, same⟩)
    · -- the first path behind the separator continues the target as this one does
      have inside : folding.key (target ++ [backslash]) <+: folding.key (head ++ backslash :: tail) :=
        ⟨folding.key tail, by simpa [CaseFolding.key] using same⟩
      obtain ⟨entry, lower, low, high⟩ := lowerBound_of_mem sorted member inside.le
      obtain ⟨rest, starts⟩ := prefix_of_between inside low high
      refine .inl (.inr ⟨entry, lower, .inr ?_⟩)
      simp only [CaseFolding.key, List.map_append, List.append_assoc] at starts
      obtain ⟨before, _, rfl, start, behind⟩ := List.map_eq_append_iff.mp starts.symm
      obtain ⟨unit, after, rfl, separator, -⟩ := List.map_eq_cons_iff.mp behind
      exact ⟨before, after, by rw [folding.separator unit separator], start.symm⟩

end Order

/-- With complete results and nonempty paths an overlap is reported exactly if some ordinary result
and some target overlap. -/
theorem replacement_safety_exact (folding : CaseFolding) (lexicallyNormal : Text → Text)
    (algorithms : Algorithms (pathLess folding.ordinal)) {results targets : List Text}
    (complete : ∀ path ∈ results ++ targets,
      path ≠ [] ∧ normalizeTransferPath folding.ordinal lexicallyNormal path ≠ []) :
    evaluateReplacementSafety folding.ordinal lexicallyNormal algorithms results.length false results
        targets = .overlap ↔
      ∃ result ∈ results, ∃ target ∈ targets,
        transferPathsOverlap folding.ordinal lexicallyNormal result target = true := by
  obtain ⟨kept, wanted⟩ := List.forall_mem_append.mp complete
  have perm := algorithms.sort_perm
    (results.map (normalizeTransferPath folding.ordinal lexicallyNormal))
  have nonempty : ∀ path ∈ algorithms.sort (results.map (normalizeTransferPath folding.ordinal
      lexicallyNormal)), path ≠ [] := by
    intro path member
    obtain ⟨result, among, rfl⟩ := List.mem_map.mp (perm.mem_iff.mp member)
    exact (kept result among).2
  rw [evaluateReplacementSafety, if_neg (by simpa using
    ⟨fun h => (kept [] h).1 rfl, fun h => (wanted [] h).1 rfl⟩), if_neg (by simpa using
      ⟨fun path h => (kept path h).2, fun path h => (wanted path h).2⟩)]
  simp only [ite_eq_left_iff, reduceCtorEq, imp_false, not_not, List.any_map, List.any_eq_true,
    Function.comp, targetOverlaps_iff (algorithms.sort_sorted _) nonempty, perm.mem_iff,
    List.mem_map, exists_exists_and_eq_and]
  refine ⟨fun ⟨target, among, result, member, found⟩ => ⟨result, member, target, among, ?_⟩,
    fun ⟨result, member, target, among, found⟩ => ⟨target, among, result, member, ?_⟩⟩
  all_goals simpa [transferPathsOverlap, (kept result member).2, (wanted target among).2] using found

/-- Letters of ASCII fold. -/
def asciiFolding : CaseFolding where
  fold := Search.foldAsciiChar
  separator unit same := by
    have cases := Search.foldAsciiChar_cases unit
    rw [same] at cases
    exact UInt16.toNat_inj.mp (cases.resolve_right fun letter => absurd letter.1 (by decide))

instance : Std.TransCmp asciiFolding.ordinal :=
  inferInstanceAs (Std.TransCmp (compareOn (List.map Search.foldAsciiChar)))

/-- A replaced folder that holds an ordinary result. -/
theorem replacement_safety_exact_nested :
    evaluateReplacementSafety asciiFolding.ordinal id (.reference (.of_transCmp _)) 1 false
      [wide "C:\\A\\x"] [wide "c:/a"] = .overlap :=
  (replacement_safety_exact asciiFolding id _ (by decide)).mpr (by decide)

end FastFiles.Ui
