import FastFiles.Foundations.Worklist
import FastFiles.Index.Pipeline

/-!
# Folder totals

`Projection::GetFolderAggregate`: the totals of everything below a folder, by a walk with an
explicit stack that descends into rows flagged as directories and keeps no visited set.

Parent links come from the volume and need not form a tree.  The walk is an instance of
`Worklist.drain`; `folderAggregate_exact_iff` says on which rows it ends and counts every
descendant once.
-/

namespace FastFiles.Index

open Protocol Relation Worklist

def isDirectory (record : EntryRecord) : Bool := record.attributes &&& fileAttributeDirectory != 0

/-! ## Descendants -/

variable (table : Table) (rows : List EntryRecord)

/-- A row below `parent`; the volume root, its own parent, is below nothing. -/
def Child (parent id : FileId) : Prop :=
  ∃ record, table id = some record ∧ record.parentId = parent ∧ id ≠ parent

def Descendant : FileId → FileId → Prop := TransGen (Child table)

/-- The child rows of every id, each once. -/
structure ListsChildren (table : Table) (children : FileId → List EntryRecord) : Prop where
  mem_iff : ∀ parent record, record ∈ children parent ↔
    table record.id = some record ∧ record.parentId = parent ∧ record.id ≠ parent
  nodup : ∀ parent, ((children parent).map (·.id)).Nodup

/-- The ids a walk goes on to. -/
def successors (children : FileId → List EntryRecord) (descends : EntryRecord → Bool)
    (id : FileId) : List FileId :=
  ((children id).filter descends).map (·.id)

section Walk

variable {table : Table} {children : FileId → List EntryRecord}
  (lists : ListsChildren table children) {descends : EntryRecord → Bool} {id : FileId}

include lists

theorem mem_successors (keyed : table.Keyed) {parent : FileId} :
    id ∈ successors children descends parent ↔
      ∃ record, table id = some record ∧ record.parentId = parent ∧ id ≠ parent ∧
        descends record = true := by
  unfold successors
  rw [List.mem_map]
  constructor
  · rintro ⟨record, kept, rfl⟩
    obtain ⟨mem, down⟩ := List.mem_filter.mp kept
    obtain ⟨found, isParent, differs⟩ := (lists.mem_iff parent record).mp mem
    exact ⟨record, found, isParent, differs, down⟩
  · rintro ⟨record, found, isParent, differs, down⟩
    obtain rfl := keyed id record found
    exact ⟨record, List.mem_filter.mpr ⟨(lists.mem_iff parent record).mpr
      ⟨found, isParent, differs⟩, down⟩, rfl⟩

/-- A row has one parent. -/
theorem successors_unique (keyed : table.Keyed) {first second : FileId}
    (one : id ∈ successors children descends first)
    (two : id ∈ successors children descends second) : first = second := by
  obtain ⟨record, found, rfl, -⟩ := (mem_successors lists keyed).mp one
  obtain ⟨other, found', rfl, -⟩ := (mem_successors lists keyed).mp two
  rw [found] at found'
  cases found'
  rfl

theorem nodup_successors (parent : FileId) : (successors children descends parent).Nodup :=
  (lists.nodup parent).sublist (List.filter_sublist.map _)

variable (keyed : table.Keyed) {discipline : Worklist.Discipline FileId} {fuel : Nat}
  {folder : FileId} {taken : List FileId}
  (ends : drain discipline (successors children descends) fuel [folder] = some taken)
  {record : EntryRecord}

include keyed ends

omit keyed in
/-- The rows a walk counts: the children of the ids it reaches. -/
theorem mem_walkedRows :
    record ∈ taken.flatMap children ↔ table record.id = some record ∧
      record.id ≠ record.parentId ∧
      ReflTransGen (Step (successors children descends)) folder record.parentId := by
  rw [List.mem_flatMap]
  constructor
  · rintro ⟨parent, reached, mem⟩
    obtain ⟨found, rfl, differs⟩ := (lists.mem_iff parent record).mp mem
    obtain ⟨root, isFolder, path⟩ := (mem_drain ends).mp reached
    obtain rfl := List.mem_singleton.mp isFolder
    exact ⟨found, differs, path⟩
  · rintro ⟨found, differs, path⟩
    refine ⟨record.parentId, (mem_drain ends).mpr ⟨folder, .head _, path⟩, ?_⟩
    exact (lists.mem_iff record.parentId record).mpr ⟨found, rfl, differs⟩

theorem nodup_walkedRows : ((taken.flatMap children).map (·.id)).Nodup := by
  have once : taken.Nodup := nodup_drain ends (nodup_successors lists)
    fun _ _ _ one two => successors_unique lists keyed one two
  rw [List.map_flatMap, List.nodup_flatMap]
  refine ⟨fun parent _ => lists.nodup parent, once.imp ?_⟩
  intro first second differs id one two
  obtain ⟨record, mem, rfl⟩ := List.mem_map.mp one
  obtain ⟨other, mem', same⟩ := List.mem_map.mp two
  obtain ⟨found, rfl, -⟩ := (lists.mem_iff first record).mp mem
  obtain ⟨found', rfl, -⟩ := (lists.mem_iff second other).mp mem'
  rw [same, found] at found'
  cases found'
  exact differs rfl

theorem descendant_of_mem_walkedRows (mem : record ∈ taken.flatMap children) :
    Descendant table folder record.id := by
  obtain ⟨found, differs, path⟩ := (mem_walkedRows lists ends).mp mem
  refine TransGen.tail' ?_ ⟨record, found, rfl, differs⟩
  refine ReflTransGen.mono (fun parent id step => ?_) _ _ path
  obtain ⟨row, here, isParent, other, -⟩ := (mem_successors lists keyed).mp step
  exact ⟨row, here, isParent, other⟩

/-- The walk counts all descendants exactly if rows it does not descend into have no
children; the folder itself it always descends into. -/
theorem walkedRows_complete_iff : (∀ record, record ∈ taken.flatMap children ↔
      table record.id = some record ∧ Descendant table folder record.id) ↔
    ∀ id record, Descendant table folder id → id ≠ folder → table id = some record →
      descends record = false → ∀ child, ¬ Child table id child := by
  constructor
  · rintro complete id record below differs found stays child ⟨row, here, rfl, other⟩
    obtain rfl := keyed child row here
    have counted := (complete row).mpr ⟨here, below.tail ⟨row, here, rfl, other⟩⟩
    obtain ⟨-, -, path⟩ := (mem_walkedRows lists ends).mp counted
    rcases path.cases_tail with is | ⟨_, _, step⟩
    · exact differs is
    · obtain ⟨same, found', -, -, down⟩ := (mem_successors lists keyed).mp step
      rw [found] at found'
      cases found'
      rw [stays] at down
      cases down
  · intro closed record
    constructor
    · intro mem
      exact ⟨((mem_walkedRows lists ends).mp mem).1,
        descendant_of_mem_walkedRows lists keyed ends mem⟩
    · rintro ⟨found, below⟩
      have reached : ∀ id, ReflTransGen (Child table) folder id → ∀ child, Child table id child →
          ReflTransGen (Step (successors children descends)) folder id := by
        intro id path
        induction path with
        | refl => exact fun _ _ => .refl
        | @tail parent id path step ih =>
          intro child below
          by_cases same : id = folder
          · rw [same]
          · obtain ⟨row, here, isParent, other⟩ := step
            have down : descends row = true := by
              by_contra stays
              refine closed id row (.tail' path ⟨row, here, isParent, other⟩) same here
                (eq_false_of_ne_true stays) child below
            refine (ih id ⟨row, here, isParent, other⟩).tail ?_
            exact (mem_successors lists keyed).mpr ⟨row, here, isParent, other, down⟩
      obtain ⟨parent, path, row, here, rfl, other⟩ := TransGen.tail'_iff.mp below
      rw [found] at here
      cases here
      exact (mem_walkedRows lists ends).mpr
        ⟨found, other, reached _ path _ ⟨record, found, rfl, other⟩⟩

end Walk

/-! ## Sums -/

/-- The largest value of the 64-bit counters. -/
def maxUInt64 : Nat := 2 ^ 64 - 1

structure FolderAggregate where
  itemCount : Nat
  totalSizeBytes : Nat
  totalAllocatedSizeBytes : Nat
  allocatedBytesKnownCount : Nat
  allocatedBytesTotalCount : Nat
  complete : Bool
deriving DecidableEq

/-- The sum, and whether it or an earlier one was cut off. -/
def saturatingAdd (destination value : Nat) (overflowed : Bool) : Nat × Bool :=
  if maxUInt64 - destination < value then (maxUInt64, true) else (destination + value, overflowed)

theorem saturatingAdd_eq {destination : Nat} (fits : destination ≤ maxUInt64) (value : Nat)
    (overflowed : Bool) :
    saturatingAdd destination value overflowed =
      (min (destination + value) maxUInt64,
        decide (maxUInt64 < destination + value) || overflowed) := by
  unfold saturatingAdd
  by_cases full : maxUInt64 - destination < value
  · have above : maxUInt64 < destination + value := by omega
    rw [if_pos full, decide_eq_true above, min_eq_right above.le]
    rfl
  · have below : ¬ maxUInt64 < destination + value := by omega
    rw [if_neg full, decide_eq_false below, min_eq_left (Nat.le_of_not_lt below)]
    rfl

/-- The running result, with the flag the loop keeps. -/
structure Totals where
  itemCount : Nat
  totalSizeBytes : Nat
  totalAllocatedSizeBytes : Nat
  allocatedBytesKnownCount : Nat
  allocatedBytesTotalCount : Nat
  overflowed : Bool
deriving DecidableEq

variable (projection : Projection) (totals : Totals)

namespace Totals

def zero : Totals := ⟨0, 0, 0, 0, 0, false⟩

def addChild (child : EntryRecord) : Totals :=
  let sized := saturatingAdd totals.totalSizeBytes child.sizeBytes.toNat totals.overflowed
  let counted := { totals with
    itemCount := totals.itemCount + 1
    totalSizeBytes := sized.1
    allocatedBytesTotalCount := totals.allocatedBytesTotalCount + 1
    overflowed := sized.2 }
  if child.allocatedSizeKnown then
    let allocated := saturatingAdd counted.totalAllocatedSizeBytes child.allocatedSizeBytes.toNat
      counted.overflowed
    { counted with
      totalAllocatedSizeBytes := allocated.1
      allocatedBytesKnownCount := counted.allocatedBytesKnownCount + 1
      overflowed := allocated.2 }
  else counted

def finish : FolderAggregate where
  itemCount := totals.itemCount
  totalSizeBytes := totals.totalSizeBytes
  totalAllocatedSizeBytes := totals.totalAllocatedSizeBytes
  allocatedBytesKnownCount := totals.allocatedBytesKnownCount
  allocatedBytesTotalCount := totals.allocatedBytesTotalCount
  complete := !totals.overflowed &&
    totals.allocatedBytesKnownCount == totals.allocatedBytesTotalCount

end Totals

def sizes : List UInt64 := rows.map (·.sizeBytes)

/-- The allocated sizes that are known. -/
def allocations : List UInt64 :=
  (rows.filter (·.allocatedSizeKnown)).map (·.allocatedSizeBytes)

/-- The sum without bound. -/
def total (values : List UInt64) : Nat := (values.map UInt64.toNat).sum

theorem total_append (first second : List UInt64) :
    total (first ++ second) = total first + total second := by
  rw [total, List.map_append, List.sum_append]
  rfl

theorem total_singleton (value : UInt64) : total [value] = value.toNat := by
  simp [total]

theorem total_perm {first second : List UInt64} (perm : first.Perm second) :
    total first = total second := (perm.map _).sum_eq

/-- The totals of a list of rows, cut off at the largest 64-bit value. -/
structure Totals.Of (totals : Totals) (rows : List EntryRecord) : Prop where
  itemCount : totals.itemCount = rows.length
  totalSizeBytes : totals.totalSizeBytes = min (total (sizes rows)) maxUInt64
  totalAllocatedSizeBytes :
    totals.totalAllocatedSizeBytes = min (total (allocations rows)) maxUInt64
  allocatedBytesKnownCount : totals.allocatedBytesKnownCount = (allocations rows).length
  allocatedBytesTotalCount : totals.allocatedBytesTotalCount = rows.length
  overflowed : totals.overflowed =
    (decide (maxUInt64 < total (sizes rows)) || decide (maxUInt64 < total (allocations rows)))

/-- Cutting off a partial sum does not hide that the whole is too large. -/
theorem lt_cut_add (bound first second : Nat) :
    (bound < min first bound + second ∨ bound < first) ↔ bound < first + second := by
  omega

theorem min_cut_add (bound first second : Nat) :
    min (min first bound + second) bound = min (first + second) bound := by
  omega

theorem Totals.of_zero : Totals.zero.Of [] := by
  constructor <;> simp [Totals.zero, total, sizes, allocations]

theorem allocations_concat (child : EntryRecord) :
    allocations (rows ++ [child]) = allocations rows ++
      if child.allocatedSizeKnown then [child.allocatedSizeBytes] else [] := by
  cases known : child.allocatedSizeKnown with
  | false => simp [allocations, List.filter_append, known]
  | true => simp [allocations, List.filter_append, known]

variable {rows : List EntryRecord} {totals : Totals}

theorem Totals.Of.addChild (sums : totals.Of rows)
    (child : EntryRecord) : (totals.addChild child).Of (rows ++ [child]) := by
  have size : total (sizes (rows ++ [child])) = total (sizes rows) + child.sizeBytes.toNat := by
    rw [sizes, List.map_append, total_append]
    exact congrArg _ (total_singleton _)
  have counted : (rows ++ [child]).length = rows.length + 1 := by simp
  have fits : totals.totalSizeBytes ≤ maxUInt64 := sums.totalSizeBytes.trans_le (min_le_right _ _)
  have fits' : totals.totalAllocatedSizeBytes ≤ maxUInt64 :=
    sums.totalAllocatedSizeBytes.trans_le (min_le_right _ _)
  have rest := allocations_concat rows child
  cases known : child.allocatedSizeKnown with
  | true =>
    rw [known, if_pos rfl] at rest
    constructor
    all_goals
      simp only [Totals.addChild, known, if_true, saturatingAdd_eq fits, saturatingAdd_eq fits']
    · rw [counted, sums.itemCount]
    · rw [size, sums.totalSizeBytes, min_cut_add]
    · rw [rest, total_append, total_singleton, sums.totalAllocatedSizeBytes, min_cut_add]
    · rw [rest, List.length_append, sums.allocatedBytesKnownCount]
      rfl
    · rw [counted, sums.allocatedBytesTotalCount]
    · rw [rest, total_append, total_singleton, size, sums.overflowed, sums.totalSizeBytes,
        sums.totalAllocatedSizeBytes, Bool.eq_iff_iff]
      simp only [Bool.or_eq_true, decide_eq_true_eq]
      rw [← lt_cut_add _ (total (sizes rows)), ← lt_cut_add _ (total (allocations rows))]
      tauto
  | false =>
    rw [known, if_neg Bool.false_ne_true, List.append_nil] at rest
    constructor
    all_goals
      simp only [Totals.addChild, known, Bool.false_eq_true, if_false, saturatingAdd_eq fits]
    · rw [counted, sums.itemCount]
    · rw [size, sums.totalSizeBytes, min_cut_add]
    · rw [rest, sums.totalAllocatedSizeBytes]
    · rw [rest, sums.allocatedBytesKnownCount]
    · rw [counted, sums.allocatedBytesTotalCount]
    · rw [rest, size, sums.overflowed, sums.totalSizeBytes, Bool.eq_iff_iff]
      simp only [Bool.or_eq_true, decide_eq_true_eq]
      rw [← lt_cut_add _ (total (sizes rows))]
      tauto

theorem Totals.Of.foldl (sums : totals.Of rows)
    (children : List EntryRecord) : (children.foldl Totals.addChild totals).Of (rows ++ children) := by
  induction children generalizing totals rows with
  | nil =>
    rw [List.append_nil]
    exact sums
  | cons child children ih =>
    have next := ih (sums.addChild child)
    rw [List.append_assoc] at next
    exact next

/-! ## The resident walk -/

/-- `EntryAt` of every index of `ChildIndices`. -/
def Slots.childEntries (slots : Slots) (key : EntryKey) : List ProjectionEntry :=
  (slots.parentToChildren key).filterMap (slots.entries[·]?)

/-- One child: it is counted, and a directory is pushed. -/
def visitChild (state : Totals × List FileId) (child : ProjectionEntry) : Totals × List FileId :=
  (state.1.addChild child.record,
    if child.attributes &&& fileAttributeDirectory != 0 then child.frn :: state.2 else state.2)

/-- The stack's top is the head of the list; `none` when the fuel runs out. -/
def aggregateLoop (slots : Slots) (volumeRowId : VolumeRowId) :
    Nat → List FileId → Totals → Option Totals
  | _, [], totals => some totals
  | 0, _ :: _, _ => none
  | fuel + 1, current :: stack, totals =>
    let visited := (slots.childEntries ⟨volumeRowId, current⟩).foldl visitChild (totals, stack)
    aggregateLoop slots volumeRowId fuel visited.2 visited.1

/-- The outer option is the fuel, the inner one the unknown folder. -/
def Projection.getFolderAggregate (fuel : Nat) (volumeRowId : VolumeRowId) (parentFrn : FileId) :
    Option (Option FolderAggregate) :=
  match projection.find volumeRowId parentFrn with
  | none => some none
  | some _ =>
    (aggregateLoop projection.slots volumeRowId fuel [parentFrn] .zero).map (some ·.finish)

/-- The child rows that are resident. -/
def Projection.childRecords (volumeRowId : VolumeRowId) (parent : FileId) : List EntryRecord :=
  (projection.slots.childEntries ⟨volumeRowId, parent⟩).map ProjectionEntry.record

variable {slots : Slots} {entry : ProjectionEntry} {volumeRowId : VolumeRowId} {folder : FileId}

theorem Slots.WellFormed.mem_childEntries (wf : slots.WellFormed) {key : EntryKey} :
    entry ∈ slots.childEntries key ↔ slots.find entry.key = some entry ∧ entry.link = some key := by
  unfold Slots.childEntries
  rw [List.mem_filterMap]
  constructor
  · rintro ⟨index, mem, at_⟩
    obtain ⟨row, live, isLink⟩ := Option.bind_eq_some_iff.mp ((wf.children.mem_iff key index).mp mem)
    obtain rfl : row = entry := Option.some.inj ((Slots.live_eq_some.mp live).1.symm.trans at_)
    exact ⟨wf.find_eq_some.mpr ⟨rfl, index, live⟩, isLink⟩
  · rintro ⟨found, isLink⟩
    obtain ⟨-, index, live⟩ := wf.find_eq_some.mp found
    refine ⟨index, (wf.children.mem_iff key index).mpr ?_, (Slots.live_eq_some.mp live).1⟩
    exact Option.bind_eq_some_iff.mpr ⟨entry, live, isLink⟩

theorem Slots.WellFormed.volume_of_mem_childEntries (wf : slots.WellFormed) {parent : FileId}
    (mem : entry ∈ slots.childEntries ⟨volumeRowId, parent⟩) : entry.volumeRowId = volumeRowId := by
  have isLink := (wf.mem_childEntries.mp mem).2
  unfold ProjectionEntry.link at isLink
  split_ifs at isLink
  exact congrArg EntryKey.volumeRowId (Option.some.inj isLink)

theorem Slots.WellFormed.nodup_childEntries (wf : slots.WellFormed)
    (key : EntryKey) : ((slots.childEntries key).map ProjectionEntry.key).Nodup := by
  unfold Slots.childEntries
  have lookup : ∀ index ∈ slots.parentToChildren key, ∀ entry,
      slots.entries[index]? = some entry → slots.idToIndex.lookup entry.key = some index := by
    intro index mem entry at_
    obtain ⟨row, live, -⟩ := Option.bind_eq_some_iff.mp ((wf.children.mem_iff key index).mp mem)
    obtain ⟨here, found⟩ := Slots.live_eq_some.mp live
    rw [at_] at here
    cases here
    exact found
  rw [List.Nodup, List.pairwise_map, List.pairwise_filterMap]
  refine (wf.children.nodup key).imp_of_mem fun {first second} mem mem' differs => ?_
  intro entry at_ other at_' same
  have one := lookup first mem entry at_
  rw [same, lookup second mem' other at_'] at one
  exact differs (Option.some.inj one).symm

theorem Projection.listsChildren (volumeRowId : VolumeRowId) :
    ListsChildren (projection.table volumeRowId) (projection.childRecords volumeRowId) where
  mem_iff parent record := by
    unfold Projection.childRecords
    rw [List.mem_map]
    constructor
    · rintro ⟨entry, mem, rfl⟩
      obtain ⟨found, isLink⟩ := projection.wellFormed.mem_childEntries.mp mem
      unfold ProjectionEntry.link at isLink
      split_ifs at isLink with self
      obtain ⟨rfl, rfl⟩ := EntryKey.mk.inj (Option.some.inj isLink)
      exact ⟨Option.map_eq_some_iff.mpr ⟨entry, found, rfl⟩, rfl, fun is => self is.symm⟩
    · rintro ⟨found, rfl, differs⟩
      obtain ⟨entry, here, rfl⟩ := Option.map_eq_some_iff.mp found
      have isKey := (projection.wellFormed.find_eq_some.mp here).1
      have volume : entry.volumeRowId = volumeRowId := congrArg EntryKey.volumeRowId isKey
      refine ⟨entry, projection.wellFormed.mem_childEntries.mpr ⟨isKey ▸ here, ?_⟩, rfl⟩
      rw [ProjectionEntry.link, if_neg fun is => differs is.symm, volume]
      rfl
  nodup parent := by
    have keys := projection.wellFormed.nodup_childEntries ⟨volumeRowId, parent⟩
    have ids : (projection.childRecords volumeRowId parent).map (·.id) =
        ((projection.slots.childEntries ⟨volumeRowId, parent⟩).map ProjectionEntry.key).map
          EntryKey.frn := by
      rw [Projection.childRecords, List.map_map, List.map_map]
      rfl
    rw [ids]
    refine keys.map_on fun key mem other mem' same => ?_
    obtain ⟨entry, here, rfl⟩ := List.mem_map.mp mem
    obtain ⟨row, here', rfl⟩ := List.mem_map.mp mem'
    have volume := projection.wellFormed.volume_of_mem_childEntries here
    have volume' := projection.wellFormed.volume_of_mem_childEntries here'
    exact EntryKey.mk.injEq _ _ _ _ ▸ ⟨volume.trans volume'.symm, same⟩

theorem foldl_visitChild (entries : List ProjectionEntry) (totals : Totals) (stack : List FileId) :
    entries.foldl visitChild (totals, stack) =
      ((entries.map ProjectionEntry.record).foldl Totals.addChild totals,
        ((((entries.map ProjectionEntry.record).filter isDirectory).map (·.id)).reverse ++ stack)) := by
  induction entries generalizing totals stack with
  | nil => rfl
  | cons entry entries ih =>
    rw [List.foldl_cons, visitChild, ih]
    refine Prod.ext rfl ?_
    have flag : isDirectory entry.record = (entry.attributes &&& fileAttributeDirectory != 0) := rfl
    show _ ++ (if _ then _ else _) = _
    rw [← flag, List.map_cons, List.filter_cons]
    split_ifs
    · rw [List.map_cons, List.reverse_cons, List.append_assoc]
      rfl
    · rfl

/-- **The loop is a traversal with a stack**, whose nodes' children are added up. -/
theorem aggregateLoop_eq (volumeRowId : VolumeRowId) (fuel : Nat) (stack : List FileId)
    (totals : Totals) :
    aggregateLoop projection.slots volumeRowId fuel stack totals =
      (drain .stack (successors (projection.childRecords volumeRowId) isDirectory) fuel
        stack).map fun taken =>
          (taken.flatMap (projection.childRecords volumeRowId)).foldl Totals.addChild totals := by
  induction fuel generalizing stack totals with
  | zero => cases stack <;> rfl
  | succ fuel ih =>
    cases stack with
    | nil => rfl
    | cons current stack =>
      show aggregateLoop projection.slots volumeRowId fuel _ _ = _
      rw [ih, foldl_visitChild]
      show Option.map _ _ = ((drain .stack _ fuel _).map _).map _
      rw [Option.map_map]
      refine congrArg (Option.map · _) (funext fun taken => ?_)
      show _ = (List.flatMap _ (current :: taken)).foldl Totals.addChild totals
      rw [List.flatMap_cons, List.foldl_append]
      rfl

/-! ## Exact totals -/

/-- The totals of rows, cut off at the largest 64-bit value. -/
def totalsOf (rows : List EntryRecord) : FolderAggregate where
  itemCount := rows.length
  totalSizeBytes := min (total (sizes rows)) maxUInt64
  totalAllocatedSizeBytes := min (total (allocations rows)) maxUInt64
  allocatedBytesKnownCount := (allocations rows).length
  allocatedBytesTotalCount := rows.length
  complete := !(decide (maxUInt64 < total (sizes rows)) ||
      decide (maxUInt64 < total (allocations rows))) &&
    (allocations rows).length == rows.length

theorem Totals.Of.finish (sums : totals.Of rows) :
    totals.finish = totalsOf rows := by
  rw [Totals.finish, totalsOf, sums.itemCount, sums.totalSizeBytes, sums.totalAllocatedSizeBytes,
    sums.allocatedBytesKnownCount, sums.allocatedBytesTotalCount, sums.overflowed]

theorem totalsOf_perm {first second : List EntryRecord} (perm : first.Perm second) :
    totalsOf first = totalsOf second := by
  have size : total (sizes first) = total (sizes second) := total_perm (perm.map _)
  have allocated : (allocations first).Perm (allocations second) := (perm.filter _).map _
  rw [totalsOf, totalsOf, size, total_perm allocated, allocated.length_eq, perm.length_eq]

/-- The rows of a list are the descendants of a folder, each once. -/
structure Enumerates (table : Table) (folder : FileId) (rows : List EntryRecord) : Prop where
  nodup : (rows.map (·.id)).Nodup
  mem_iff : ∀ record, record ∈ rows ↔
    table record.id = some record ∧ Descendant table folder record.id

/-- The totals count every descendant of the folder once. -/
def FolderAggregate.Exact (aggregate : FolderAggregate) (table : Table) (folder : FileId) : Prop :=
  ∃ rows, Enumerates table folder rows ∧ aggregate = totalsOf rows

/-- A walk that counts as many rows as there are descendants counts all of them. -/
theorem enumerates_of_length {table : Table} {rows walked : List EntryRecord}
    (all : Enumerates table folder rows) (nodup : (walked.map (·.id)).Nodup)
    (some_ : ∀ record ∈ walked, table record.id = some record ∧ Descendant table folder record.id)
    (same : walked.length = rows.length) : Enumerates table folder walked := by
  have sub : walked.Subperm rows :=
    (List.Nodup.of_map _ nodup).subperm fun record mem => (all.mem_iff record).mpr (some_ record mem)
  have perm : walked.Perm rows := sub.perm_of_length_le same.ge
  exact ⟨nodup, fun record => (perm.mem_iff).trans (all.mem_iff record)⟩

/-- A child that the walk goes on to. -/
def DirectoryChild (table : Table) (parent id : FileId) : Prop :=
  ∃ record, table id = some record ∧ record.parentId = parent ∧ id ≠ parent ∧
    isDirectory record = true

theorem Projection.step_eq (volumeRowId : VolumeRowId) :
    Step (successors (projection.childRecords volumeRowId) isDirectory) =
      DirectoryChild (projection.table volumeRowId) := by
  funext parent id
  exact propext (mem_successors (projection.listsChildren volumeRowId)
    (projection.keyed_table volumeRowId))

theorem Projection.finite_table (volumeRowId : VolumeRowId) :
    {id | (projection.table volumeRowId id).isSome}.Finite := by
  refine ((projection.slots.idToIndex.keys.map EntryKey.frn).toFinset.finite_toSet).subset ?_
  intro id present
  obtain ⟨record, found⟩ := Option.isSome_iff_exists.mp present
  obtain ⟨entry, here, -⟩ := Option.map_eq_some_iff.mp found
  obtain ⟨index, lookup, -⟩ := Option.bind_eq_some_iff.mp here
  have mem : (⟨volumeRowId, id⟩ : EntryKey) ∈ projection.slots.idToIndex.keys :=
    AList.mem_keys.mp (AList.lookup_isSome.mp (Option.isSome_iff_exists.mpr ⟨index, lookup⟩))
  simpa using ⟨_, mem, rfl⟩

/-- No directory below the folder is below itself. -/
def NoDirectoryCycle (table : Table) (folder : FileId) : Prop :=
  ∀ id, ReflTransGen (DirectoryChild table) folder id → ¬ TransGen (DirectoryChild table) id id

/-- A row below the folder that is not flagged as a directory has no children. -/
def FilesAreLeaves (table : Table) (folder : FileId) : Prop :=
  ∀ id record, Descendant table folder id → id ≠ folder → table id = some record →
    isDirectory record = false → ∀ child, ¬ Child table id child

/-- The walk ends exactly if it meets no cycle. -/
theorem Projection.drains_iff (volumeRowId : VolumeRowId) (folder : FileId) :
    (∃ fuel taken, drain .stack
      (successors (projection.childRecords volumeRowId) isDirectory) fuel [folder] = some taken) ↔
      NoDirectoryCycle (projection.table volumeRowId) folder := by
  constructor
  · rintro ⟨fuel, taken, ends⟩ id path cycle
    rw [← projection.step_eq] at path cycle
    have acc := acc_of_drain ends folder (.head _)
    exact not_transGen_self (acc_of_path acc path) cycle
  · intro acyclic
    refine exists_drain .stack fun node mem => ?_
    obtain rfl := List.mem_singleton.mp mem
    refine acc_of_finite ((projection.finite_table volumeRowId).insert node) ?_
      (Set.mem_insert _ _) ?_
    · intro parent _ id step
      have child : DirectoryChild (projection.table volumeRowId) parent id :=
        projection.step_eq volumeRowId ▸ step
      obtain ⟨record, found, -⟩ := child
      exact Set.mem_insert_of_mem _ (Option.isSome_iff_exists.mpr ⟨record, found⟩)
    · rw [projection.step_eq]
      exact acyclic

theorem Projection.getFolderAggregate_eq (fuel : Nat)
    (present : (projection.find volumeRowId folder).isSome) :
    projection.getFolderAggregate fuel volumeRowId folder =
      (drain .stack (successors (projection.childRecords volumeRowId) isDirectory) fuel
        [folder]).map fun taken =>
          some (totalsOf (taken.flatMap (projection.childRecords volumeRowId))) := by
  obtain ⟨entry, found⟩ := Option.isSome_iff_exists.mp present
  rw [getFolderAggregate, found]
  show Option.map _ (aggregateLoop _ _ _ _ _) = _
  rw [aggregateLoop_eq, Option.map_map]
  refine congrArg (Option.map · _) (funext fun taken => ?_)
  exact congrArg some (Totals.of_zero.foldl _).finish

theorem noDirectoryCycle_of_acyclic {table : Table} (acyclic : ∀ id, ¬ Descendant table id id)
    (folder : FileId) : NoDirectoryCycle table folder := by
  intro id _ cycle
  refine acyclic id (TransGen.mono (fun parent child below => ?_) _ _ cycle)
  obtain ⟨record, found, isParent, differs, -⟩ := below
  exact ⟨record, found, isParent, differs⟩

/-- Parents above their children: no cycle. -/
theorem acyclic_of_rank {table : Table} (rank : FileId → Nat)
    (above : ∀ parent id, Child table parent id → rank id < rank parent) (id : FileId) :
    ¬ Descendant table id id := by
  have lower : ∀ first second, Descendant table first second → rank second < rank first := by
    intro first second path
    induction path with
    | single step => exact above _ _ step
    | tail _ step ih => exact (above _ _ step).trans ih
  exact fun cycle => lt_irrefl _ (lower id id cycle)

/-- **When folder totals are well defined**: the aggregate ends and counts every descendant
of the folder once exactly if no directory below the folder is below itself, and rows below
it that are not flagged as directories have no children. -/
theorem folderAggregate_exact_iff (projection : Projection) {volumeRowId : VolumeRowId}
    {folder : FileId} (present : (projection.find volumeRowId folder).isSome) :
    (∃ fuel aggregate, projection.getFolderAggregate fuel volumeRowId folder =
        some (some aggregate) ∧ aggregate.Exact (projection.table volumeRowId) folder) ↔
      NoDirectoryCycle (projection.table volumeRowId) folder ∧
        FilesAreLeaves (projection.table volumeRowId) folder := by
  have lists := projection.listsChildren volumeRowId
  have keyed := projection.keyed_table volumeRowId
  constructor
  · rintro ⟨fuel, aggregate, returned, rows, all, rfl⟩
    rw [projection.getFolderAggregate_eq fuel present] at returned
    obtain ⟨taken, ends, same⟩ := Option.map_eq_some_iff.mp returned
    refine ⟨(projection.drains_iff volumeRowId folder).mp ⟨fuel, taken, ends⟩, ?_⟩
    refine (walkedRows_complete_iff lists keyed ends).mp ?_
    refine (enumerates_of_length all (nodup_walkedRows lists keyed ends) ?_ ?_).mem_iff
    · intro record mem
      exact ⟨((mem_walkedRows lists ends).mp mem).1,
        descendant_of_mem_walkedRows lists keyed ends mem⟩
    · exact congrArg FolderAggregate.itemCount (Option.some.inj same)
  · rintro ⟨acyclic, leaves⟩
    obtain ⟨fuel, taken, ends⟩ := (projection.drains_iff volumeRowId folder).mpr acyclic
    refine ⟨fuel, _, ?_, taken.flatMap (projection.childRecords volumeRowId),
      ⟨nodup_walkedRows lists keyed ends, ?_⟩, rfl⟩
    · rw [projection.getFolderAggregate_eq fuel present, ends]
      rfl
    · exact (walkedRows_complete_iff lists keyed ends).mpr leaves

namespace Pipeline

/-- Two folders that are each other's parent, as an untrusted volume reports them. -/
def parentCycle : List Operation :=
  [.resolveVolume true ⟨[], 1⟩,
   .applyMftBatchV2 1 [scanned 5 5 [] 0x10, scanned 100 101 [0x61] 0x10,
     scanned 101 100 [0x62] 0x10] ⟨true, true, []⟩]

/-- A folder with a file in it. -/
def smallTree : List Operation :=
  [.resolveVolume true ⟨[], 1⟩,
   .applyMftBatchV2 1 [scanned 5 5 [] 0x10, scanned 100 5 [0x61] 0x10,
     scanned 101 100 [0x62] 0] ⟨true, true, []⟩]

/-- The tree has no cycle and no file with children, so its totals are exact. -/
theorem folderAggregate_exact_iff_smallTree :
    (after smallTree).projection.getFolderAggregate 5 1 (ntfsFileId 5) =
        some (some ⟨2, 0, 0, 2, 2, true⟩) ∧
      ∃ fuel aggregate, (after smallTree).projection.getFolderAggregate fuel 1 (ntfsFileId 5) =
        some (some aggregate) ∧
        aggregate.Exact ((after smallTree).projection.table 1) (ntfsFileId 5) := by
  have rows : ∀ entry ∈ (after smallTree).projection.slots.entries,
      entry.record.id = entry.record.parentId ∨
        entry.record.parentId = ntfsFileId 5 ∧ entry.record.id = ntfsFileId 100 ∨
        entry.record.parentId = ntfsFileId 100 ∧ entry.record.id = ntfsFileId 101 := by
    decide +kernel
  have child : ∀ {parent id}, Child ((after smallTree).projection.table 1) parent id →
      parent = ntfsFileId 5 ∧ id = ntfsFileId 100 ∨ parent = ntfsFileId 100 ∧ id = ntfsFileId 101 := by
    rintro _ id ⟨record, found, rfl, differs⟩
    obtain rfl := (after smallTree).projection.keyed_table 1 id record found
    obtain ⟨entry, held, rfl⟩ := Option.map_eq_some_iff.mp found
    obtain ⟨index, -, listed⟩ := Option.bind_eq_some_iff.mp held
    exact (rows entry (List.mem_of_getElem? listed)).resolve_left differs
  refine ⟨by decide +kernel, (folderAggregate_exact_iff _ (by decide +kernel)).mpr
    ⟨noDirectoryCycle_of_acyclic (acyclic_of_rank
      (fun id => if id = ntfsFileId 5 then 2 else if id = ntfsFileId 100 then 1 else 0) ?_) _, ?_⟩⟩
  · intro parent id below
    obtain ⟨rfl, rfl⟩ | ⟨rfl, rfl⟩ := child below <;> decide
  · intro id record below differs found file grandchild lower
    obtain ⟨rfl, -⟩ | ⟨rfl, -⟩ := child lower
    · exact differs rfl
    · have flags : ((after smallTree).projection.table 1 (ntfsFileId 100)).map isDirectory =
        some true := by decide +kernel
      rw [found, Option.map_some, file] at flags
      cases flags

/-- On a cycle of folders the aggregate never returns. -/
theorem folderAggregate_diverges :
    Reachable (after parentCycle) ∧
      ∀ fuel, (after parentCycle).projection.getFolderAggregate fuel 1 (ntfsFileId 100) = none := by
  refine ⟨reachable_after _, fun fuel => ?_⟩
  set projection := (after parentCycle).projection with here
  have present : (projection.find 1 (ntfsFileId 100)).isSome := by decide +kernel
  have down : DirectoryChild (projection.table 1) (ntfsFileId 100) (ntfsFileId 101) :=
    ⟨toEntryRecordOfMftV2 (scanned 101 100 [0x62] 0x10), by decide +kernel, by decide⟩
  have up : DirectoryChild (projection.table 1) (ntfsFileId 101) (ntfsFileId 100) :=
    ⟨toEntryRecordOfMftV2 (scanned 100 101 [0x61] 0x10), by decide +kernel, by decide⟩
  rw [projection.getFolderAggregate_eq fuel present, Option.map_eq_none_iff]
  by_contra some_
  obtain ⟨taken, ends⟩ := Option.ne_none_iff_exists'.mp some_
  have acyclic := (projection.drains_iff 1 (ntfsFileId 100)).mp ⟨fuel, taken, ends⟩
  exact acyclic (ntfsFileId 100) .refl (.tail (.single down) up)

end Pipeline

end FastFiles.Index
