import FastFiles.Index.Epochs
import FastFiles.Index.Reconciliation

/-!
# Pruning and paths

A batch is stored, and what the rules exclude of it is removed again, row by row.  The longest
rule decides, so a row may be included below an excluded folder; and a folder that is excluded
when it is seen again leaves behind what was stored below it.

Where the pruning commits, every row reaches the root after a batch exactly if each row whose
chain passes an excluded upsert of the batch is one itself (`pruned_rows_reach_root_iff`).  The
chains are those of the committed tree.  The verdicts are read from the resident rows with the
batch applied; on a hot volume these are the same tree (`verdictTree_of_hot`).
-/

namespace FastFiles.Index

namespace Table

variable {table : Table} {changes : List EntryChange}

/-- Every row reaches the root. -/
def Whole (table : Table) : Prop := ∀ id, (table id).isSome → ∃ chain, ParentChain table id chain

theorem applyAll_of_notMem {id : FileId} (other : ∀ change ∈ changes, change.record.id ≠ id) :
    table.applyAll changes id = table id := by
  induction changes generalizing table with
  | nil => rfl
  | cons change changes ih =>
    obtain ⟨first, rest⟩ := List.forall_mem_cons.mp other
    refine (ih rest).trans ?_
    unfold apply
    cases change.kind <;> exact Function.update_of_ne first.symm _ _

/-- Changes to rows that reach the root keep a tree whole. -/
theorem Whole.applyAll (whole : table.Whole) (reach : ∀ change ∈ changes,
    ∃ chain, ParentChain (table.applyAll changes) change.record.id chain) :
    (table.applyAll changes).Whole := by
  have old_or_new (id : FileId) : (∃ chain, ParentChain (table.applyAll changes) id chain) ∨
      table.applyAll changes id = table id := by
    by_cases touched : ∃ change ∈ changes, change.record.id = id
    · obtain ⟨change, mem, rfl⟩ := touched
      exact .inl (reach change mem)
    · exact .inr (applyAll_of_notMem fun change mem own => touched ⟨change, mem, own⟩)
  -- along the old chain, up to the first row that the changes touch
  have along {id : FileId} {chain : List EntryRecord} (complete : ParentChain table id chain) :
      ∃ chain, ParentChain (table.applyAll changes) id chain := by
    induction complete with
    | @root id _ found self =>
      rcases old_or_new id with reached | same
      · exact reached
      · exact ⟨_, .root (same.trans found) self⟩
    | @step id _ _ found parent _ ih =>
      rcases old_or_new id with reached | same
      · exact reached
      · obtain ⟨chain, above⟩ := ih
        exact ⟨_, .step (same.trans found) parent above⟩
  intro id present
  rcases old_or_new id with reached | same
  · exact reached
  · rw [same] at present
    obtain ⟨chain, complete⟩ := whole id present
    exact along complete

/-- What is left is whole exactly if nothing is left below what is removed. -/
theorem whole_removeAll_iff (keyed : table.Keyed) (whole : table.Whole) (ids : List FileId) :
    (table.removeAll ids).Whole ↔ ∀ id chain, ParentChain table id chain →
      (∃ record ∈ chain, record.id ∈ ids) → id ∈ ids := by
  constructor
  · rintro left id chain complete ⟨record, mem, gone⟩
    by_contra stays
    have present : (table.removeAll ids id).isSome := by
      rw [removeAll, if_neg stays]
      cases complete with
      | root found _ | step found _ _ =>
        rw [found]
        rfl
    obtain ⟨other, still⟩ := left id present
    obtain ⟨before, spared⟩ := (parentChain_removeAll_iff keyed).mp still
    exact spared record (before.unique complete ▸ mem) gone
  · intro below id present
    rw [removeAll] at present
    split_ifs at present with gone
    · cases present
    · obtain ⟨chain, complete⟩ := whole id present
      refine ⟨chain, (parentChain_removeAll_iff keyed).mpr ⟨complete, fun record mem lost => ?_⟩⟩
      exact gone (below id chain complete ⟨record, mem, lost⟩)

end Table

namespace Pipeline

theorem normal_of_batch {operation : Operation} {batch : Batch}
    (made : Operation.batch operation = some batch) :
    ∀ change ∈ batch.changes, change.record.Normal := by
  have converted {α : Type} {make : α → Option EntryChange} {source : α → EntryRecord}
      (from_ : ∀ record change, make record = some change → change.record = source record)
      (normal : ∀ record, (source record).Normal) {records : List α} {volumeId : VolumeRowId}
      {outcome : BatchOutcome}
      (made : (records.mapM make).map (usnBatch volumeId outcome) = some batch) :
      ∀ change ∈ batch.changes, change.record.Normal := by
    obtain ⟨changes, mapped, rfl⟩ := Option.map_eq_some_iff.mp made
    intro change mem
    obtain ⟨record, -, own⟩ := (mem_of_mapM mapped).1 _ mem
    rw [from_ record change own]
    exact normal record
  cases operation with
  | applyMftBatchV1 | applyMftBatchV2 =>
    cases made
    simp [mftBatch, changeOfMft, EntryRecord.Normal, toEntryRecordOfMftV1, toEntryRecordOfMftV2]
  | applyUsnBatchV1 | applyUsnBatchV2 =>
    exact converted (fun _ _ own => record_usnChange own) (fun _ _ => rfl) made
  | applyUsnBatchV3 =>
    exact converted (fun _ _ own => record_usnChange own) normal_toEntryRecordOfUsnV3 made
  | _ => cases made

/-- The tree a batch commits, before the rules. -/
def Batch.committedTree (batch : Batch) (pipeline : Pipeline) : Table :=
  (pipeline.store.table batch.volumeId).applyAll batch.changes

/-- The rows from which the rules read the paths: those in memory, with the batch. -/
def Batch.verdictTree (batch : Batch) (pipeline : Pipeline) : Table :=
  (pipeline.projection.table batch.volumeId).applyAll batch.changes

/-- The upserts of the batch that the rules exclude. -/
def Batch.excluded (batch : Batch) (pipeline : Pipeline) : List FileId :=
  (batch.changes.filter fun change => change.kind == .upsert &&
    !Index.isEntryIncluded (pipeline.volumeRules batch.volumeId) (batch.verdictTree pipeline)
      change.record.id).map (·.record.id)

theorem verdictTree_of_hot {pipeline : Pipeline} (reachable : Reachable pipeline) {batch : Batch}
    (hot : pipeline.projection.needsReload batch.volumeId = false) :
    batch.verdictTree pipeline = batch.committedTree pipeline := by
  rw [Batch.verdictTree, Batch.committedTree, agreed_of_reachable reachable batch.volumeId hot]

/-- **What a batch leaves**: its tree, without the excluded upserts if their removal commits. -/
theorem table_batch {pipeline : Pipeline} {operation : Operation} {batch : Batch}
    (made : Operation.batch operation = some batch)
    (commits : batch.outcome.committed = true)
    (listed : pipeline.store.hasVolume batch.volumeId = true) :
    (batch.apply pipeline).store.table batch.volumeId = (batch.committedTree pipeline).removeAll
      (if batch.outcome.pruned then batch.excluded pipeline else []) := by
  have normal := normal_of_batch made
  have verdicts (store : Store) : ((pipeline.projected batch.project store
      batch.changes).ruleExcluded batch.volumeId batch.changes).map (·.record.id) =
      batch.excluded pipeline := by
    have rows := (projects_of_batch made pipeline.projection).table
    simp only [ruleExcluded, Batch.excluded, List.map_map, Function.comp_def]
    rw [Batch.verdictTree, ← rows]
    rfl
  obtain ⟨store, committed⟩ := Store.exists_applyBatch batch.changes commits listed
  have tree : store.table batch.volumeId = batch.committedTree pipeline :=
    Store.table_applyBatch_self committed normal
  have still : store.hasVolume batch.volumeId = true :=
    ((Store.edits_applyBatch committed).hasVolume _).trans listed
  unfold Batch.apply
  obtain ⟨failed, -⟩ | ⟨store', applied, settled⟩ := applyBatchChanges_cases batch.project pipeline
    batch.volumeId batch.changes batch.outcome
  · cases failed.symm.trans committed
  · obtain rfl : store = store' := Option.some.inj (committed.symm.trans applied)
    obtain ⟨none, result⟩ | ⟨last, some_, rulesApplied, result⟩ | ⟨-, failed, result⟩ := settled
    · rw [result, (completeBatch_sides ..).1, ← verdicts store, none]
      simp only [List.map_nil, ite_self, Table.removeAll_nil]
      exact tree
    · have pruned : batch.outcome.pruned = true := by
        by_contra fails
        simp [Store.applyBatch, fails, some_] at rulesApplied
      rw [result, (completeBatch_sides ..).1, if_pos pruned, ← tree, ← verdicts store,
        ← Table.applyAll_removals _ fun _ => kind_of_mem_ruleExcluded]
      exact Store.table_applyBatch_self rulesApplied (normal_ruleExcluded normal)
    · have fails : batch.outcome.pruned ≠ true := by
        intro pruned
        obtain ⟨last, applied⟩ := Store.exists_applyBatch _ pruned still
        cases failed.symm.trans applied
      rw [result, (enforceMemoryLimitNow_sides ..).1, if_neg fails, Table.removeAll_nil]
      exact tree

/-- **When pruning keeps paths whole.** -/
theorem pruned_rows_reach_root_iff {pipeline : Pipeline} (reachable : Reachable pipeline)
    {operation : Operation} {batch : Batch} (made : Operation.batch operation = some batch)
    (commits : batch.outcome.committed = true)
    (listed : pipeline.store.hasVolume batch.volumeId = true)
    (whole : (pipeline.searchableRows batch.volumeId).Whole)
    (reach : ∀ change ∈ batch.changes,
      ∃ chain, ParentChain (batch.committedTree pipeline) change.record.id chain) :
    ((pipeline.perform operation).searchableRows batch.volumeId).Whole ↔
      (batch.outcome.pruned = true →
        ∀ id chain, ParentChain (batch.committedTree pipeline) id chain →
          (∃ record ∈ chain, record.id ∈ batch.excluded pipeline) → id ∈ batch.excluded pipeline) := by
  have agreed := agreed_of_reachable reachable
  have isBatch : operation.isBatch = true := by
    cases operation with
    | applyMftBatchV1 | applyMftBatchV2 | applyUsnBatchV1 | applyUsnBatchV2
    | applyUsnBatchV3 => rfl
    | _ => cases made
  have left : (pipeline.perform operation).searchableRows batch.volumeId =
      (batch.committedTree pipeline).removeAll
        (if batch.outcome.pruned then batch.excluded pipeline else []) := by
    rw [(agreed.perform operation).searchableRows, perform_of_isBatch pipeline isBatch, made]
    exact table_batch made commits listed
  rw [agreed.searchableRows] at whole
  have tree : (batch.committedTree pipeline).Whole := whole.applyAll reach
  have keyed : (batch.committedTree pipeline).Keyed := by
    obtain ⟨store, committed⟩ := Store.exists_applyBatch batch.changes commits listed
    have stored := Store.table_applyBatch_self committed (normal_of_batch made)
    exact fun id record found => keyed_stored store batch.volumeId id record (stored ▸ found)
  rw [left, Table.whole_removeAll_iff keyed tree]
  cases batch.outcome.pruned <;> simp

/-- A volume whose rules exclude the folder `C:\x` and include `C:\x\a`, with its root. -/
def nestedRules : List Operation :=
  [.resolveVolume true ⟨[], 1⟩,
   .setVolumeRules 1 ⟨[0x43, 0x3a], true,
     [⟨[0x43, 0x3a, 0x5c, 0x78], false⟩, ⟨[0x43, 0x3a, 0x5c, 0x78, 0x5c, 0x61], true⟩]⟩,
   .applyMftBatchV2 1 [scanned 5 5 [] 0x10] ⟨true, true, []⟩]

/-- The excluded folder and a file in it. -/
def scannedFolder (name : Text) : List Protocol.MftRecordV2 :=
  [scanned 100 5 [0x78] 0x10, scanned 101 100 name 0]

def scansFolder (name : Text) : Operation := .applyMftBatchV2 1 (scannedFolder name) ⟨true, true, []⟩

def folderBatch (name : Text) : Batch :=
  mftBatch 1 ((scannedFolder name).map toEntryRecordOfMftV2) ⟨true, true, []⟩

theorem rows_nestedRules : ((after nestedRules).store.entries 1).records =
    [toEntryRecordOfMftV2 (scanned 5 5 [] 0x10)] := by decide +kernel

theorem whole_nestedRules : ((after nestedRules).searchableRows 1).Whole := by
  rw [(agreed_of_reachable (reachable_after nestedRules)).searchableRows]
  intro id present
  obtain ⟨record, found⟩ := Option.isSome_iff_exists.mp present
  obtain ⟨mem, rfl⟩ := StoredRows.table_eq_some.mp found
  rw [rows_nestedRules, List.mem_singleton] at mem
  exact ⟨[record], .root found (by rw [mem]; rfl)⟩

theorem reach_scannedFolder {name : Text} {tree : Table}
    (root : tree (ntfsFileId 5) = some (toEntryRecordOfMftV2 (scanned 5 5 [] 0x10)))
    (folder : tree (ntfsFileId 100) = some (toEntryRecordOfMftV2 (scanned 100 5 [0x78] 0x10)))
    (file : tree (ntfsFileId 101) = some (toEntryRecordOfMftV2 (scanned 101 100 name 0))) :
    ∀ change ∈ (folderBatch name).changes, ∃ chain, ParentChain tree change.record.id chain := by
  have differs : ntfsFileId 100 ≠ ntfsFileId 101 := by decide
  have above := ParentChain.step folder (by decide) (.root root rfl)
  have below := ParentChain.step file differs above
  exact List.forall_mem_cons.mpr ⟨⟨_, above⟩, List.forall_mem_singleton.mpr ⟨_, below⟩⟩

/-- Another file in the folder is excluded with it, and what is left reaches the root. -/
theorem pruned_rows_reach_root_iff_nested :
    (folderBatch [0x62]).excluded (after nestedRules) = [ntfsFileId 100, ntfsFileId 101] ∧
      (((after nestedRules).perform (scansFolder [0x62])).searchableRows 1).Whole := by
  have excluded : (folderBatch [0x62]).excluded (after nestedRules) =
      [ntfsFileId 100, ntfsFileId 101] := by decide +kernel
  refine ⟨excluded, (pruned_rows_reach_root_iff (reachable_after nestedRules)
    (show (scansFolder [0x62]).batch = some (folderBatch [0x62]) from rfl) rfl (by decide +kernel)
    whole_nestedRules (reach_scannedFolder (by decide +kernel) (by decide +kernel)
      (by decide +kernel))).mpr ?_⟩
  rintro - id chain complete ⟨record, mem, gone⟩
  rw [excluded] at gone ⊢
  by_contra other
  -- Every other row is the root, which is its own chain.
  have old : (folderBatch [0x62]).committedTree (after nestedRules) id =
      (after nestedRules).store.table 1 id := by
    refine Table.applyAll_of_notMem (List.forall_mem_cons.mpr ⟨?_, List.forall_mem_singleton.mpr ?_⟩)
    · exact fun same => other (same ▸ .head _)
    · exact fun same => other (same ▸ .tail _ (.head _))
  have is_root {found : EntryRecord} (stored : (after nestedRules).store.table 1 id = some found) :
      found = toEntryRecordOfMftV2 (scanned 5 5 [] 0x10) ∧ id = found.id := by
    obtain ⟨mem, rfl⟩ := StoredRows.table_eq_some.mp stored
    rw [rows_nestedRules, List.mem_singleton] at mem
    exact ⟨mem, rfl⟩
  cases complete with
  | root found _ =>
    obtain ⟨rfl, -⟩ := is_root (old ▸ found)
    rw [List.mem_singleton.mp mem] at gone
    revert gone
    decide
  | step found parent _ =>
    obtain ⟨rfl, same⟩ := is_root (old ▸ found)
    exact parent same.symm

/-- The included file is left without the folder above it. -/
theorem included_below_excluded_orphaned :
    ((after nestedRules).searchableRows 1).Whole ∧
      (∀ change ∈ (folderBatch [0x61]).changes, ∃ chain, ParentChain
        ((folderBatch [0x61]).committedTree (after nestedRules)) change.record.id chain) ∧
      ¬(((after nestedRules).perform (scansFolder [0x61])).searchableRows 1).Whole := by
  refine ⟨whole_nestedRules, reach_scannedFolder (by decide +kernel) (by decide +kernel)
    (by decide +kernel), fun whole => ?_⟩
  have gone : ((after nestedRules).perform (scansFolder [0x61])).searchableRows 1 (ntfsFileId 100) =
      none := by decide +kernel
  have found : ((after nestedRules).perform (scansFolder [0x61])).searchableRows 1 (ntfsFileId 101) =
      some (toEntryRecordOfMftV2 (scanned 101 100 [0x61] 0)) := by decide +kernel
  obtain ⟨chain, complete⟩ := whole (ntfsFileId 101) (by rw [found]; rfl)
  cases complete with
  | root own self =>
    obtain rfl := Option.some.inj (found.symm.trans own)
    exact absurd self (by decide)
  | step own _ above =>
    obtain rfl := Option.some.inj (found.symm.trans own)
    cases above with
    | root lost _ | step lost _ _ =>
      exact absurd (gone.symm.trans lost) (Option.some_ne_none _).symm

end Pipeline

end FastFiles.Index
