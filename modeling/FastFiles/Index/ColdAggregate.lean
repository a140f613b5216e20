import FastFiles.Index.Aggregate
import FastFiles.Index.Agreement

/-!
# Folder totals of cold volumes

`QueryFolderAggregate`: the recursive query that answers for a volume that is not resident.
It descends into every row, whatever its attributes, and sums signed 64-bit columns: a
partial sum out of range fails the statement, and the result is reinterpreted as unsigned.

`hot_cold_agree_iff` compares it with the resident walk on the same rows.
-/

namespace FastFiles.Index

open Protocol Relation FolderAggregate

/-! ## Signed sums -/

/-- The column value of an unsigned size. -/
def signed (value : UInt64) : Int :=
  if value.toNat < 2 ^ 63 then value.toNat else value.toNat - 2 ^ 64

def fitsInt64 (value : Int) : Bool := decide (-2 ^ 63 ≤ value ∧ value < 2 ^ 63)

/-- `SUM` from a running total; `none` is the integer overflow error. -/
def sqlSumFrom (start : Int) : List UInt64 → Option Int
  | [] => some start
  | value :: values =>
    if fitsInt64 (start + signed value) then sqlSumFrom (start + signed value) values else none

variable (values : List UInt64) (store : Store)

def sqlSum : Option Int := sqlSumFrom 0 values

/-- The sum as the caller reads it. -/
def toUnsigned (sum : Int) : Nat := (sum % 2 ^ 64).toNat

def signedTotal : Int := (values.map signed).sum

/-- No partial sum leaves the signed range. -/
def NoSignedOverflow : Prop :=
  ∀ head, head <+: values → fitsInt64 (signedTotal head) = true

theorem sqlSumFrom_eq_some {start sum : Int} {values : List UInt64} :
    sqlSumFrom start values = some sum ↔
      (∀ head, head <+: values → head ≠ [] → fitsInt64 (start + signedTotal head) = true) ∧
        sum = start + signedTotal values := by
  induction values generalizing start with
  | nil =>
    simp only [sqlSumFrom, Option.some.injEq, List.prefix_nil, signedTotal, List.map_nil,
      List.sum_nil, add_zero]
    constructor
    · rintro rfl
      exact ⟨fun head is nonempty => absurd is nonempty, rfl⟩
    · exact fun both => both.2.symm
  | cons value values ih =>
    have shift : ∀ head, start + signedTotal (value :: head) =
        start + signed value + signedTotal head := by
      intro head
      rw [signedTotal, List.map_cons, List.sum_cons, add_assoc]
      rfl
    unfold sqlSumFrom
    split_ifs with fits
    · rw [ih, shift]
      refine and_congr_left fun _ => ⟨fun later head is nonempty => ?_, fun all head is _ => ?_⟩
      · obtain ⟨rest, rfl, inside⟩ := (List.prefix_cons_iff.mp is).resolve_left nonempty
        rw [shift]
        by_cases last : rest = []
        · rw [last]
          simpa [signedTotal] using fits
        · exact later rest inside last
      · rw [← shift]
        exact all (value :: head) (List.cons_prefix_cons.mpr ⟨rfl, is⟩) (List.cons_ne_nil _ _)
    · refine iff_of_false nofun fun both => fits ?_
      have one := both.1 [value] (List.cons_prefix_cons.mpr ⟨rfl, List.nil_prefix⟩)
        (List.cons_ne_nil _ _)
      simpa [signedTotal] using one

theorem sqlSum_eq_some {sum : Int} {values : List UInt64} :
    sqlSum values = some sum ↔ NoSignedOverflow values ∧ sum = signedTotal values := by
  unfold sqlSum
  rw [sqlSumFrom_eq_some]
  simp only [zero_add]
  refine and_congr_left fun _ => ⟨fun later head is => ?_, fun all head is _ => all head is⟩
  by_cases empty : head = []
  · rw [empty]
    rfl
  · exact later head is empty

/-- Signed and unsigned sums differ by whole turns. -/
theorem signedTotal_emod : signedTotal values % 2 ^ 64 = (total values : Int) % 2 ^ 64 := by
  induction values with
  | nil => rfl
  | cons value values ih =>
    have sum : signedTotal (value :: values) = signed value + signedTotal values := rfl
    have sum' : (total (value :: values) : Int) = value.toNat + total values := by
      simp [total]
    rw [sum, sum']
    unfold signed
    split_ifs <;> omega

/-- The query's sum is the saturated one. -/
def SumFits : Prop :=
  NoSignedOverflow values ∧
    (total values ≤ maxUInt64 ∨ total values % 2 ^ 64 = maxUInt64)

theorem toUnsigned_signedTotal_eq_iff :
    toUnsigned (signedTotal values) = min (total values) maxUInt64 ↔
      total values ≤ maxUInt64 ∨ total values % 2 ^ 64 = maxUInt64 := by
  have turns := signedTotal_emod values
  unfold toUnsigned maxUInt64
  omega

/-! ## The recursive query -/

variable (siblings : FileId → List EntryRecord) (volumeRowId : VolumeRowId)

/-- The rows below the folder: they leave the queue in the order in which they enter it.
`siblings` lists the rows of one parent as the index yields them. -/
def subtreeRows (fuel : Nat) (folder : FileId) : Option (List EntryRecord) :=
  (Worklist.drain .queue (successors siblings fun _ => true) fuel [folder]).map
    (·.flatMap siblings)

/-- The aggregate over the rows of the query. -/
def queryAggregate (rows : List EntryRecord) : Option FolderAggregate :=
  match sqlSum (sizes rows), sqlSum (allocations rows) with
  | some size, some allocated => some {
      itemCount := rows.length
      totalSizeBytes := toUnsigned size
      totalAllocatedSizeBytes := toUnsigned allocated
      allocatedBytesKnownCount := (allocations rows).length
      allocatedBytesTotalCount := rows.length
      complete := (allocations rows).length == rows.length }
  | _, _ => none

/-- The cold path: the outer option is the fuel, the inner one an unknown folder or a failed
statement. -/
def Store.getFolderAggregate (fuel : Nat) (volumeRowId : VolumeRowId) (parentFrn : FileId) :
    Option (Option FolderAggregate) :=
  match store.findEntry volumeRowId parentFrn with
  | none => some none
  | some _ => (subtreeRows siblings fuel parentFrn).map queryAggregate

/-- The rows of one parent in storage order. -/
def Store.childRecords (parent : FileId) : List EntryRecord :=
  (store.forEachEntry volumeRowId).filter fun record =>
    record.parentId = parent ∧ record.id ≠ parent

theorem Store.listsChildren :
    ListsChildren (store.table volumeRowId) (store.childRecords volumeRowId) where
  mem_iff parent record := by
    unfold Store.childRecords
    rw [List.mem_filter, decide_eq_true_eq]
    refine and_congr_left fun _ => ?_
    constructor
    · exact fun mem => StoredRows.table_eq_some.mpr ⟨mem, rfl⟩
    · exact fun found => (StoredRows.table_eq_some.mp found).1
  nodup parent := (store.entries volumeRowId).nodup_records.sublist (List.filter_sublist.map _)

/-! ## Comparison -/

/-- The counts and byte totals. -/
def FolderAggregate.figures (aggregate : FolderAggregate) : Nat × Nat × Nat × Nat × Nat :=
  (aggregate.itemCount, aggregate.totalSizeBytes, aggregate.totalAllocatedSizeBytes,
    aggregate.allocatedBytesKnownCount, aggregate.allocatedBytesTotalCount)

theorem itemCount_queryAggregate {rows : List EntryRecord} {aggregate : FolderAggregate}
    (returned : queryAggregate rows = some aggregate) : aggregate.itemCount = rows.length := by
  unfold queryAggregate at returned
  split at returned
  · cases returned
    rfl
  · cases returned

/-- The query's figures are the saturated totals exactly if both sums fit. -/
theorem figures_queryAggregate_iff (rows : List EntryRecord) :
    (queryAggregate rows).map figures = some (totalsOf rows).figures ↔
      SumFits (sizes rows) ∧ SumFits (allocations rows) := by
  unfold queryAggregate SumFits
  rw [← toUnsigned_signedTotal_eq_iff, ← toUnsigned_signedTotal_eq_iff]
  cases size : sqlSum (sizes rows) with
  | none =>
    refine iff_of_false nofun fun both => ?_
    have summed := sqlSum_eq_some.mpr ⟨both.1.1, rfl⟩
    rw [size] at summed
    cases summed
  | some sum =>
    obtain ⟨fits, rfl⟩ := sqlSum_eq_some.mp size
    cases allocated : sqlSum (allocations rows) with
    | none =>
      refine iff_of_false nofun fun both => ?_
      have summed := sqlSum_eq_some.mpr ⟨both.2.1, rfl⟩
      rw [allocated] at summed
      cases summed
    | some sum' =>
      obtain ⟨fits', rfl⟩ := sqlSum_eq_some.mp allocated
      simp [figures, totalsOf, fits, fits']

section Compare

variable {table : Table} {siblings : FileId → List EntryRecord}
  (lists : ListsChildren table siblings) (keyed : table.Keyed)

include lists keyed

theorem step_siblings :
    Worklist.Step (successors siblings fun _ => true) = Child table := by
  funext parent id
  refine propext ((mem_successors lists keyed).trans ?_)
  simp only [and_true]
  rfl

/-- The query lists every descendant once. -/
theorem enumerates_subtreeRows {fuel : Nat} {folder : FileId} {rows : List EntryRecord}
    (listed : subtreeRows siblings fuel folder = some rows) : Enumerates table folder rows := by
  obtain ⟨taken, ends, rfl⟩ := Option.map_eq_some_iff.mp listed
  refine ⟨nodup_walkedRows lists keyed ends, (walkedRows_complete_iff lists keyed ends).mpr ?_⟩
  intro id record _ _ _ stays
  cases stays

theorem exists_subtreeRows (finite : {id | (table id).isSome}.Finite)
    (acyclic : ∀ id, ¬ Descendant table id id) (folder : FileId) :
    ∃ fuel rows, subtreeRows siblings fuel folder = some rows := by
  have acc : Acc (fun successor node =>
      Worklist.Step (successors siblings fun _ => true) node successor) folder := by
    refine Worklist.acc_of_finite (finite.insert folder) ?_ (Set.mem_insert _ _) ?_
    · intro parent _ id step
      have child : Child table parent id := step_siblings lists keyed ▸ step
      obtain ⟨record, found, -⟩ := child
      exact Set.mem_insert_of_mem _ (Option.isSome_iff_exists.mpr ⟨record, found⟩)
    · rw [step_siblings lists keyed]
      exact fun id _ => acyclic id
  have ready : ∀ node ∈ [folder], Acc (fun successor node =>
      Worklist.Step (successors siblings fun _ => true) node successor) node := by
    simpa using acc
  obtain ⟨fuel, taken, ends⟩ := Worklist.exists_drain .queue ready
  exact ⟨fuel, taken.flatMap siblings, by rw [subtreeRows, ends]; rfl⟩

end Compare

/-- **When hot and cold folder totals agree**: both return on acyclic rows, and their figures
are the same exactly if rows below the folder that are not flagged as directories have no
children, and neither of the query's sums leaves the signed range or wraps around. -/
theorem hot_cold_agree_iff {projection : Projection} {store : Store} {volumeRowId : VolumeRowId}
    (same : projection.table volumeRowId = store.table volumeRowId)
    {siblings : FileId → List EntryRecord}
    (lists : ListsChildren (store.table volumeRowId) siblings)
    (acyclic : ∀ id, ¬ Descendant (store.table volumeRowId) id id) {folder : FileId}
    (present : (store.table volumeRowId folder).isSome) :
    ∃ hotFuel coldFuel hot cold rows,
      projection.getFolderAggregate hotFuel volumeRowId folder = some hot ∧
      store.getFolderAggregate siblings coldFuel volumeRowId folder = some cold ∧
      subtreeRows siblings coldFuel folder = some rows ∧
      (hot.map figures = cold.map figures ↔
        FilesAreLeaves (store.table volumeRowId) folder ∧
          SumFits (sizes rows) ∧ SumFits (allocations rows)) := by
  have keyed : (store.table volumeRowId).Keyed := same ▸ projection.keyed_table volumeRowId
  have resident : (projection.find volumeRowId folder).isSome := by
    rw [← same] at present
    simpa [Projection.table] using present
  have hotLists := projection.listsChildren volumeRowId
  rw [same] at hotLists
  obtain ⟨hotFuel, taken, ends⟩ := (projection.drains_iff volumeRowId folder).mpr
    (same ▸ noDirectoryCycle_of_acyclic acyclic folder)
  obtain ⟨coldFuel, rows, listed⟩ := exists_subtreeRows lists keyed
    (same ▸ projection.finite_table volumeRowId) acyclic folder
  have all := enumerates_subtreeRows lists keyed listed
  obtain ⟨row, found⟩ := Option.isSome_iff_exists.mp present
  set walked := taken.flatMap (projection.childRecords volumeRowId) with isWalked
  have nodup := nodup_walkedRows hotLists keyed ends
  refine ⟨hotFuel, coldFuel, some (totalsOf walked), queryAggregate rows, rows, ?_, ?_, listed, ?_⟩
  · rw [projection.getFolderAggregate_eq hotFuel resident, ends]
    rfl
  · rw [Store.getFolderAggregate, Store.findEntry, found, listed]
    rfl
  · -- Equal figures or no file with children: either way both list the same rows.
    have complete : walked.length = rows.length → Enumerates (store.table volumeRowId) folder
        walked := by
      refine enumerates_of_length all nodup fun record mem => ?_
      exact ⟨((mem_walkedRows hotLists ends).mp mem).1,
        descendant_of_mem_walkedRows hotLists keyed ends mem⟩
    have leaves : FilesAreLeaves (store.table volumeRowId) folder ↔ walked.Perm rows := by
      refine (walkedRows_complete_iff hotLists keyed ends).symm.trans ⟨fun mem_iff => ?_, fun perm => ?_⟩
      · refine (List.perm_ext_iff_of_nodup (nodup.of_map _) (all.nodup.of_map _)).mpr ?_
        exact fun record => (mem_iff record).trans (all.mem_iff record).symm
      · exact (complete perm.length_eq).mem_iff
    rw [leaves, ← figures_queryAggregate_iff rows]
    constructor
    · intro agree
      obtain ⟨cold, returned, figures⟩ := Option.map_eq_some_iff.mp agree.symm
      have counts : cold.itemCount = walked.length := congrArg Prod.fst figures
      have listsAll := complete (counts.symm.trans (itemCount_queryAggregate returned))
      have perm : walked.Perm rows :=
        leaves.mp ((walkedRows_complete_iff hotLists keyed ends).mp listsAll.mem_iff)
      refine ⟨perm, ?_⟩
      rw [← agree, totalsOf_perm perm]
      rfl
    · rintro ⟨perm, figures⟩
      rw [figures, totalsOf_perm perm]
      rfl

namespace Pipeline

/-- A scanned file of the given size in the root folder. -/
def sizedFile (frn size : UInt64) (name : Text) : MftRecordV2 :=
  let record := scanned frn 5 name 0
  { record with fixed := { record.fixed with sizeBytes := size } }

/-- A root folder with two files. -/
def twoFiles (first second : UInt64) : List Operation :=
  [.resolveVolume true ⟨[], 1⟩,
   .applyMftBatchV2 1 [scanned 5 5 [] 0x10, sizedFile 100 first [0x61], sizedFile 101 second [0x62]]
     ⟨true, true, []⟩]

/-- Two files in a folder are leaves and their sizes add up, so the figures are the same. -/
theorem hot_cold_agree_iff_twoFiles :
    ∃ hotFuel coldFuel hot cold,
      (after (twoFiles 1 2)).projection.getFolderAggregate hotFuel 1 (ntfsFileId 5) = some hot ∧
      (after (twoFiles 1 2)).store.getFolderAggregate ((after (twoFiles 1 2)).store.childRecords 1)
        coldFuel 1 (ntfsFileId 5) = some cold ∧
      hot.map figures = cold.map figures := by
  set store := (after (twoFiles 1 2)).store with here
  have flat : ∀ record ∈ (store.entries 1).records, record.parentId = ntfsFileId 5 := by
    decide +kernel
  have child : ∀ {parent id}, Child (store.table 1) parent id →
      parent = ntfsFileId 5 ∧ id ≠ ntfsFileId 5 := by
    rintro _ id ⟨record, found, rfl, differs⟩
    have root := flat record (StoredRows.table_eq_some.mp found).1
    exact ⟨root, root ▸ differs⟩
  have lists := store.listsChildren 1
  have agreed := agreed_of_reachable (reachable_after (twoFiles 1 2)) 1 (by decide +kernel)
  have keyed : (store.table 1).Keyed := fun id record found =>
    (StoredRows.table_eq_some.mp found).2
  obtain ⟨hotFuel, coldFuel, hot, cold, rows, isHot, isCold, listed, agree⟩ :=
    hot_cold_agree_iff agreed lists (acyclic_of_rank (fun id => if id = ntfsFileId 5 then 1 else 0)
      fun parent id below => by
        obtain ⟨rfl, differs⟩ := child below
        rw [if_neg differs, if_pos rfl]
        exact Nat.zero_lt_one)
      (show (store.table 1 (ntfsFileId 5)).isSome = true by decide +kernel)
  refine ⟨hotFuel, coldFuel, hot, cold, isHot, isCold, agree.mpr ⟨?_, ?_⟩⟩
  · intro id record _ differs _ _ lower below
    exact differs (child below).1
  · -- the query lists two rows, in some order
    have all := enumerates_subtreeRows lists keyed listed
    obtain ⟨known, isKnown, two⟩ := Option.map_eq_some_iff.mp (show (subtreeRows
      (store.childRecords 1) 5 (ntfsFileId 5)).map List.length = some 2 by decide +kernel)
    have same := enumerates_subtreeRows lists keyed isKnown
    have perm : rows.Perm known :=
      (List.perm_ext_iff_of_nodup (all.nodup.of_map _) (same.nodup.of_map _)).mpr fun record =>
        (all.mem_iff record).trans (same.mem_iff record).symm
    obtain ⟨first, second, rfl⟩ := List.length_eq_two.mp (perm.length_eq.trans two)
    have small : ∀ record ∈ (store.entries 1).records,
        record.sizeBytes ∈ [0, 1, 2] ∧ record.allocatedSizeBytes ∈ [0, 1, 2] ∧
          record.allocatedSizeKnown = true := by decide +kernel
    have ofRow : ∀ record ∈ [first, second], record ∈ (store.entries 1).records := fun record mem =>
      (StoredRows.table_eq_some.mp ((all.mem_iff record).mp mem).1).1
    have fits : ∀ x ∈ ([0, 1, 2] : List UInt64), ∀ y ∈ ([0, 1, 2] : List UInt64), SumFits [x, y] := by
      have sums : ∀ x ∈ ([0, 1, 2] : List UInt64), ∀ y ∈ ([0, 1, 2] : List UInt64),
          (sqlSum [x, y]).isSome ∧ total [x, y] ≤ maxUInt64 := by
        simp [sqlSum, sqlSumFrom, signed, fitsInt64, total, maxUInt64]
      intro x hx y hy
      obtain ⟨sum, summed⟩ := Option.isSome_iff_exists.mp (sums x hx y hy).1
      exact ⟨(sqlSum_eq_some.mp summed).1, .inl (sums x hx y hy).2⟩
    have left := small first (ofRow first (.head _))
    have right := small second (ofRow second (.tail _ (.head _)))
    have known : allocations [first, second] =
        [first.allocatedSizeBytes, second.allocatedSizeBytes] := by
      simp [allocations, left.2.2, right.2.2]
    rw [known]
    exact ⟨fits _ left.1 _ right.1, fits _ left.2.1 _ right.2.1⟩

/-- Two sizes whose sum is beyond the signed range: the resident walk returns it, the query
fails. -/
theorem hot_cold_disagree :
    Reachable (after (twoFiles 0x7fffffffffffffff 1)) ∧
      (after (twoFiles 0x7fffffffffffffff 1)).projection.getFolderAggregate 5 1 (ntfsFileId 5) =
        some (some ⟨2, 0x8000000000000000, 0, 2, 2, true⟩) ∧
      (after (twoFiles 0x7fffffffffffffff 1)).store.getFolderAggregate
        ((after (twoFiles 0x7fffffffffffffff 1)).store.childRecords 1) 5 1 (ntfsFileId 5) =
        some none :=
  ⟨reachable_after _, by decide +kernel, by decide +kernel⟩

end Pipeline

end FastFiles.Index
