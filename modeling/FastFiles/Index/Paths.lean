import FastFiles.Index.Table

/-!
# Paths and rules

`Projection::ReconstructPath`, the rule test `IsPathIncluded` of `Settings.cpp`, and the
two places a rule verdict comes from: `IsEntryIncludedLocked` when a row is ingested, and
`CandidateIncludedByRules` when a row is filtered at query time.

A `ParentChain` is the list of rows from a row up to a self-parented one.  The bounded
walk of `ReconstructPath` reaches the root exactly for rows with a chain of at most
`maxProjectionPathDepth` rows, and then returns the names of the chain.
-/

namespace FastFiles.Index

/-! ## Text -/

def colon : UInt16 := 0x3A

/-- `_wcsnicmp(left, right, count) == 0` on null-terminated texts: the comparison ends at
a common terminator. -/
def wcsnicmpEq : Nat → Text → Text → Bool
  | 0, _, _ => true
  | count + 1, left, right =>
    if asciiLower (left.headD 0) ≠ asciiLower (right.headD 0) then false
    else if left.headD 0 = 0 then true
    else wcsnicmpEq count left.tail right.tail

/-! ## Rules -/

structure DirectoryRule where
  path : Text
  include_ : Bool
deriving DecidableEq

structure VolumeSetting where
  key : Text
  enabled : Bool
  rules : List DirectoryRule
deriving DecidableEq

def DirectoryRule.matches (rule : DirectoryRule) (canonicalPath : Text) : Bool :=
  decide (rule.path.length ≤ canonicalPath.length) &&
    wcsnicmpEq rule.path.length canonicalPath rule.path

/-- The last of the longest matching rules decides. -/
def isPathIncluded (volume : VolumeSetting) (canonicalPath : Text) : Bool :=
  (volume.rules.foldl (fun (verdict : Bool × Nat) rule =>
    if rule.matches canonicalPath && decide (verdict.2 ≤ rule.path.length) then
      (rule.include_, rule.path.length)
    else verdict) (volume.enabled, 0)).1

/-! ## Reconstruction -/

def maxProjectionPathDepth : Nat := 4096

/-- The names from a row upwards, and whether the walk ended at the root. -/
def reconstructParts (table : Table) : Nat → List FileId → FileId → List Text × Bool
  | 0, _, _ => ([], false)
  | depth + 1, visited, current =>
    if current ∈ visited then ([], false)
    else
      match table current with
      | none => ([], false)
      | some record =>
        if record.parentId = current then ([record.name], true)
        else
          let (parts, reachedRoot) :=
            reconstructParts table depth (current :: visited) record.parentId
          (record.name :: parts, reachedRoot)

/-- A separator stands before a name unless nothing was written yet. -/
def appendName (path name : Text) : Text :=
  if path = [] then name else path ++ backslash :: name

def joinNames (names : List Text) : Text := names.foldl appendName []

structure PathResult where
  path : Text
  reachedRoot : Bool
deriving DecidableEq

def reconstructPath (table : Table) (frn : FileId) : PathResult :=
  let (parts, reachedRoot) := reconstructParts table maxProjectionPathDepth [] frn
  ⟨joinNames parts.reverse, reachedRoot⟩

/-! ## The verdict at ingestion -/

/-- The configured key with a separator. -/
def ingestionPrefix (key : Text) : Text :=
  if key ≠ [] ∧ key.getLast? ≠ some backslash then key ++ [backslash] else key

/-- `IsEntryIncludedLocked`: a row whose chain does not resolve is kept for now. -/
def isEntryIncluded (setting : Option VolumeSetting) (table : Table) (frn : FileId) : Bool :=
  match setting with
  | none => true
  | some setting =>
    if setting.rules = [] then setting.enabled
    else
      let result := reconstructPath table frn
      if result.reachedRoot then
        isPathIncluded setting (ingestionPrefix setting.key ++ result.path)
      else true

/-! ## Parent chains -/

/-- The rows from `id` up to the root, which is its own parent. -/
inductive ParentChain (table : Table) : FileId → List EntryRecord → Prop
  | root {id : FileId} {record : EntryRecord} (found : table id = some record)
      (self : record.parentId = id) : ParentChain table id [record]
  | step {id : FileId} {record : EntryRecord} {chain : List EntryRecord}
      (found : table id = some record) (parent : record.parentId ≠ id)
      (above : ParentChain table record.parentId chain) : ParentChain table id (record :: chain)

namespace ParentChain

variable {table : Table} {id : FileId} {chain : List EntryRecord}

theorem unique {other : List EntryRecord} (left : ParentChain table id chain)
    (right : ParentChain table id other) : chain = other := by
  induction left generalizing other with
  | root found self =>
    cases right with
    | root found' _ => rw [Option.some.inj (found.symm.trans found')]
    | step found' parent _ =>
      cases Option.some.inj (found.symm.trans found')
      exact absurd self parent
  | step found parent above ih =>
    cases right with
    | root found' self =>
      cases Option.some.inj (found.symm.trans found')
      exact absurd self parent
    | step found' _ above' =>
      cases Option.some.inj (found.symm.trans found')
      rw [ih above']

variable (keyed : table.Keyed) (complete : ParentChain table id chain) {record : EntryRecord}

include keyed complete

/-- Every row of a chain starts the rest of it. -/
theorem suffix_of_mem (mem : record ∈ chain) :
    ∃ rest, ParentChain table record.id rest ∧ rest <:+ chain ∧ rest.head? = some record := by
  induction complete with
  | @root id row found self =>
    obtain rfl := List.mem_singleton.mp mem
    obtain rfl := keyed _ _ found
    exact ⟨_, .root found self, List.suffix_rfl, rfl⟩
  | @step id row chain found parent above ih =>
    rcases List.mem_cons.mp mem with rfl | later
    · obtain rfl := keyed _ _ found
      exact ⟨_, .step found parent above, List.suffix_rfl, rfl⟩
    · obtain ⟨rest, complete, suffix, head⟩ := ih later
      exact ⟨rest, complete, suffix.trans (List.suffix_cons _ _), head⟩

/-- A chain meets no row twice. -/
theorem nodup : (chain.map (·.id)).Nodup := by
  induction complete with
  | root => exact List.nodup_singleton _
  | @step id record chain found parent above ih =>
    refine List.nodup_cons.mpr ⟨fun mem => ?_, ih⟩
    -- Were the row above itself, its chain would be a proper suffix of itself.
    obtain ⟨again, later, same⟩ := List.mem_map.mp mem
    obtain ⟨rest, complete, suffix, -⟩ := above.suffix_of_mem keyed later
    have start : again.id = id := same.trans (keyed _ _ found)
    rw [start] at complete
    have whole := congrArg List.length ((ParentChain.step found parent above).unique complete)
    have shorter := suffix.length_le
    simp only [List.length_cons] at whole
    omega

theorem mem_found (mem : record ∈ chain) : table record.id = some record := by
  obtain ⟨rest, complete, -, head⟩ := complete.suffix_of_mem keyed mem
  cases complete with
  | root found _ => exact found.trans head
  | step found _ _ => exact found.trans head

end ParentChain

/-! ## The walk follows the chain -/

variable {table : Table} {id : FileId} {chain : List EntryRecord} {depth : Nat}
  {visited : List FileId}

theorem reconstructParts_of_chain (keyed : table.Keyed) (complete : ParentChain table id chain)
    (deep : chain.length ≤ depth) (fresh : ∀ record ∈ chain, record.id ∉ visited) :
    reconstructParts table depth visited id = (chain.map (·.name), true) := by
  induction complete generalizing depth visited with
  | @root id record found self =>
    obtain ⟨depth, rfl⟩ : ∃ n, depth = n + 1 := ⟨depth - 1, by simp at deep; omega⟩
    have start : record.id = id := keyed _ _ found
    have new : id ∉ visited := start ▸ fresh record (.head _)
    simp [reconstructParts, new, found, self]
  | @step id record chain found parent above ih =>
    obtain ⟨depth, rfl⟩ : ∃ n, depth = n + 1 := ⟨depth - 1, by simp at deep; omega⟩
    have start : record.id = id := keyed _ _ found
    have new : id ∉ visited := start ▸ fresh record (.head _)
    have once := (ParentChain.step found parent above).nodup keyed
    have rest : ∀ row ∈ chain, row.id ∉ id :: visited := by
      intro row mem
      rw [List.mem_cons, not_or]
      refine ⟨fun same => ?_, fresh row (.tail _ mem)⟩
      refine (List.nodup_cons.mp once).1 (List.mem_map.mpr ⟨row, mem, ?_⟩)
      exact same.trans start.symm
    have above' := ih (by simpa using deep) rest
    simp [reconstructParts, new, found, parent, above']

theorem chain_of_reconstructParts (reached : (reconstructParts table depth visited id).2 = true) :
    ∃ chain, ParentChain table id chain ∧ chain.length ≤ depth := by
  induction depth generalizing visited id with
  | zero => cases reached
  | succ depth ih =>
    unfold reconstructParts at reached
    split_ifs at reached
    cases found : table id with
    | none =>
      rw [found] at reached
      cases reached
    | some record =>
      rw [found] at reached
      by_cases self : record.parentId = id
      · exact ⟨[record], .root found self, by simp⟩
      · simp only [if_neg self] at reached
        obtain ⟨chain, above, short⟩ := ih reached
        exact ⟨record :: chain, .step found self above, by simpa using short⟩

theorem path_of_chain (keyed : table.Keyed) (complete : ParentChain table id chain)
    (short : chain.length ≤ maxProjectionPathDepth) :
    reconstructPath table id = ⟨joinNames (chain.map (·.name)).reverse, true⟩ := by
  have fresh : ∀ record ∈ chain, record.id ∉ ([] : List FileId) := fun _ _ => List.not_mem_nil
  simp [reconstructPath, reconstructParts_of_chain keyed complete short fresh]

/-- **The walk reaches the root exactly along complete chains of bounded depth.** -/
theorem reachedRoot_iff (keyed : table.Keyed) :
    (reconstructPath table id).reachedRoot = true ↔
      ∃ chain, ParentChain table id chain ∧ chain.length ≤ maxProjectionPathDepth := by
  constructor
  · intro reached
    have walked : (reconstructParts table maxProjectionPathDepth [] id).2 = true := reached
    exact chain_of_reconstructParts walked
  · rintro ⟨chain, complete, short⟩
    rw [path_of_chain keyed complete short]

end FastFiles.Index
