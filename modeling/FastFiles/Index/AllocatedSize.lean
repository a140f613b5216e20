import FastFiles.Index.Agreement
import FastFiles.Protocol.JournalFrames

/-!
# Allocated sizes and old journal formats

A V1 or V2 journal record has no allocated size, and the sources say so where the formats
are converted.  The presence mask of a V2 record can still claim one: the batch parser
checks masks against all known bits, the bit of the allocated size among them.  The record
conversion then supplies an unknown size under a bit that makes it authoritative.

`allocation_applyAll` follows the allocated size of one row through a batch, and
`allocatedSize_kept_iff` says which batches leave every prior state alone.
-/

namespace FastFiles.Index

open Protocol

/-! ## The allocated size of a row -/

/-- The allocated size and its flag; a missing row has none. -/
def allocation (row : Option EntryRecord) : UInt64 × Bool :=
  row.elim (0, false) fun record => (record.allocatedSizeBytes, record.allocatedSizeKnown)

theorem allocation_merge (fields : EntryFieldMask) (existing : Option EntryRecord)
    (record : EntryRecord) :
    allocation (some (EntryRecord.merge fields existing record)) =
      if hasEntryField fields entryFieldAllocatedSizeBytes then allocation (some record)
      else allocation existing := by
  cases existing <;> cases held : hasEntryField fields entryFieldAllocatedSizeBytes <;>
    simp [allocation, EntryRecord.merge, EntryRecord.blank, held]

/-- What one change does to the allocated size of a row. -/
theorem allocation_apply (table : Table) (change : EntryChange) (id : FileId) :
    allocation (table.apply change id) =
      if id = change.record.id then
        match change.kind with
        | .remove => (0, false)
        | .upsert =>
          if hasEntryField change.fields entryFieldAllocatedSizeBytes then
            allocation (some change.record)
          else allocation (table id)
      else allocation (table id) := by
  unfold Table.apply
  by_cases same : id = change.record.id
  · subst same
    cases change.kind with
    | upsert => simp [allocation_merge]
    | remove => simp [allocation]
  · cases change.kind <;> simp [same]

variable {id : FileId} {changes : List EntryChange}

/-- A batch that neither removes a row nor carries its allocated size leaves it alone. -/
theorem allocation_applyAll (untouched : ∀ change ∈ changes, change.record.id = id →
      change.kind = .upsert ∧ hasEntryField change.fields entryFieldAllocatedSizeBytes = false)
    (table : Table) : allocation (table.applyAll changes id) = allocation (table id) := by
  induction changes generalizing table with
  | nil => rfl
  | cons change changes ih =>
    show allocation ((table.apply change).applyAll changes id) = _
    rw [ih (fun other mem => untouched other (List.mem_cons_of_mem _ mem)), allocation_apply]
    by_cases same : id = change.record.id
    · obtain ⟨kind, absent⟩ := untouched change (.head _) same.symm
      simp [same, kind, absent]
    · rw [if_neg same]

/-- The flag of a row is false after a batch of unknown sizes, once the row was removed or
its size was carried. -/
theorem unknown_applyAll (unknown : ∀ change ∈ changes, change.record.allocatedSizeKnown = false)
    (id : FileId) (table : Table) (cleared : (allocation (table id)).2 = false ∨
      ∃ change ∈ changes, change.record.id = id ∧ (change.kind = .remove ∨
        hasEntryField change.fields entryFieldAllocatedSizeBytes = true)) :
    (allocation (table.applyAll changes id)).2 = false := by
  induction changes generalizing table with
  | nil =>
    rcases cleared with clear | ⟨_, mem, _⟩
    · exact clear
    · cases mem
  | cons change changes ih =>
    refine ih (fun other mem => unknown other (.tail _ mem)) _ ?_
    have mine : (allocation (some change.record)).2 = false := unknown change (.head _)
    rw [allocation_apply]
    rcases cleared with clear | ⟨other, mem, isId, clears⟩
    · left
      by_cases same : id = change.record.id
      · rw [if_pos same]
        cases change.kind with
        | remove => rfl
        | upsert =>
          dsimp only
          split_ifs
          · exact mine
          · exact clear
      · rw [if_neg same]
        exact clear
    · rcases List.mem_cons.mp mem with rfl | later
      · left
        rw [if_pos isId.symm]
        rcases clears with removed | carried
        · rw [removed]
        · cases other.kind with
          | remove => rfl
          | upsert => simpa [carried] using mine
      · exact .inr ⟨other, later, isId, clears⟩

/-- A row that a batch upserts and never removes is there afterwards. -/
theorem isSome_applyAll (kept : ∀ change ∈ changes, change.record.id = id → change.kind = .upsert)
    {table : Table} (present : (table id).isSome) : (table.applyAll changes id).isSome := by
  induction changes generalizing table with
  | nil => exact present
  | cons change changes ih =>
    refine ih (fun other mem => kept other (.tail _ mem)) ?_
    unfold Table.apply
    by_cases same : id = change.record.id
    · subst same
      rw [kept change List.mem_cons_self rfl]
      simp
    · cases change.kind <;> simpa [same] using present

/-! ## Journal records -/

theorem hasEntryField_or (a b field : EntryFieldMask) :
    hasEntryField (a ||| b) field = (hasEntryField a field || hasEntryField b field) := by
  have split : (a ||| b) &&& field = (a &&& field) ||| (b &&& field) := by
    apply UInt32.eq_of_toBitVec_eq
    ext i
    simp [Bool.and_or_distrib_right]
  rw [Bool.eq_iff_iff]
  simp only [hasEntryField, split, bne_iff_ne, ne_eq, UInt32.or_eq_zero_iff, Bool.or_eq_true]
  tauto

theorem hasEntryField_ite (present : Bool) (bit field : EntryFieldMask) :
    hasEntryField (if present then bit else 0) field = (present && hasEntryField bit field) := by
  cases present <;> simp [hasEntryField]

/-- The bit of the allocated size is translated like the others. -/
theorem hasEntryField_toEntryFieldMask {mask : UInt32} {fields : EntryFieldMask}
    (translated : toEntryFieldMask mask = some fields) :
    hasEntryField fields entryFieldAllocatedSizeBytes =
      (mask &&& usnFieldAllocatedSizeBytes != 0) := by
  unfold toEntryFieldMask at translated
  split_ifs at translated
  cases translated
  simp only [hasEntryField_or, hasEntryField_ite]
  simp [show hasEntryField entryFieldParentId entryFieldAllocatedSizeBytes = false from rfl,
    show hasEntryField entryFieldName entryFieldAllocatedSizeBytes = false from rfl,
    show hasEntryField entryFieldSizeBytes entryFieldAllocatedSizeBytes = false from rfl,
    show hasEntryField entryFieldCreationTime entryFieldAllocatedSizeBytes = false from rfl,
    show hasEntryField entryFieldLastModifiedTime entryFieldAllocatedSizeBytes = false from rfl,
    show hasEntryField entryFieldLastAccessTime entryFieldAllocatedSizeBytes = false from rfl,
    show hasEntryField entryFieldAttributes entryFieldAllocatedSizeBytes = false from rfl,
    show hasEntryField entryFieldAllocatedSizeBytes entryFieldAllocatedSizeBytes = true from rfl]

def isDeletion (record : UsnDeltaV2) : Bool := record.fixed.reason &&& usnReasonFileDelete != 0

def claimsAllocatedSize (record : UsnDeltaV2) : Bool :=
  record.fixed.fieldMask &&& usnFieldAllocatedSizeBytes != 0

/-- The ids a batch deletes. -/
def deletedIds (records : List UsnDeltaV2) : List FileId :=
  (records.filter isDeletion).map fun record => ntfsFileId record.fixed.fileReferenceNumber

variable {change : EntryChange} {record : UsnDeltaV2}

/-- What a V2 record becomes. -/
theorem changeOfUsnV2_cases (made : changeOfUsnV2 record = some change) :
    change.record = toEntryRecordOfUsnV2 record ∧
      change.kind = (if isDeletion record then .remove else .upsert) ∧
      (isDeletion record = false →
        hasEntryField change.fields entryFieldAllocatedSizeBytes = claimsAllocatedSize record) := by
  have result : (if isDeletion record then
      some { kind := .remove, record := toEntryRecordOfUsnV2 record }
    else (toEntryFieldMask record.fixed.fieldMask).map fun fields =>
      { kind := .upsert, record := toEntryRecordOfUsnV2 record, fields }) = some change := made
  cases deletion : isDeletion record with
  | true =>
    rw [deletion] at result
    cases result
    simp
  | false =>
    rw [deletion] at result
    obtain ⟨fields, translated, rfl⟩ := Option.map_eq_some_iff.mp result
    exact ⟨rfl, rfl, fun _ => hasEntryField_toEntryFieldMask translated⟩

/-! ## What a batch leaves -/

/-- Rows that survive a batch keep their allocated size and its flag; rows the batch
creates, also in place of one it deletes, have an unknown one. -/
structure AllocationKept (records : List UsnDeltaV2) (before after : Table) : Prop where
  surviving : ∀ id old new, before id = some old → id ∉ deletedIds records →
    after id = some new → allocation (some new) = allocation (some old)
  created : ∀ id new, before id = none ∨ id ∈ deletedIds records → after id = some new →
    new.allocatedSizeKnown = false

/-- An update that claims an allocated size is in a batch that deletes its file. -/
def ClaimsOnlyDeleted (records : List UsnDeltaV2) : Prop :=
  ∀ record ∈ records, isDeletion record = false → claimsAllocatedSize record = true →
    ntfsFileId record.fixed.fileReferenceNumber ∈ deletedIds records

instance (records : List UsnDeltaV2) : Decidable (ClaimsOnlyDeleted records) :=
  inferInstanceAs (Decidable (∀ record ∈ records, _))

variable {records : List UsnDeltaV2}

theorem AllocationKept.of_sub {before middle after : Table}
    (kept : AllocationKept records before middle)
    (sub : ∀ id row, after id = some row → middle id = some row) :
    AllocationKept records before after where
  surviving id old new was lives now := kept.surviving id old new was lives (sub id new now)
  created id new was now := kept.created id new was (sub id new now)

section Converted

variable {records : List UsnDeltaV2} {changes : List EntryChange}
  (converted : records.mapM changeOfUsnV2 = some changes)

include converted

theorem unknown_of_converted (mem : change ∈ changes) :
    change.record.allocatedSizeKnown = false := by
  obtain ⟨record, -, made⟩ := (mem_of_mapM converted).1 _ mem
  rw [(changeOfUsnV2_cases made).1]
  rfl

/-- A removal of the batch is one of its deletions. -/
theorem mem_deletedIds_iff :
    id ∈ deletedIds records ↔
      ∃ change ∈ changes, change.record.id = id ∧ change.kind = .remove := by
  unfold deletedIds
  constructor
  · intro mem
    obtain ⟨record, kept, rfl⟩ := List.mem_map.mp mem
    obtain ⟨here, deletion⟩ := List.mem_filter.mp kept
    obtain ⟨change, listed, made⟩ := (mem_of_mapM converted).2 _ here
    obtain ⟨source, kind, -⟩ := changeOfUsnV2_cases made
    refine ⟨change, listed, by rw [source]; rfl, ?_⟩
    rw [kind, deletion]
    rfl
  · rintro ⟨change, mem, rfl, removed⟩
    obtain ⟨record, here, made⟩ := (mem_of_mapM converted).1 _ mem
    obtain ⟨source, kind, -⟩ := changeOfUsnV2_cases made
    refine List.mem_map.mpr ⟨record, List.mem_filter.mpr ⟨here, ?_⟩, by rw [source]; rfl⟩
    by_contra update
    rw [kind, if_neg update] at removed
    cases removed

/-- A batch whose claims are all about files it deletes leaves the sizes alone. -/
theorem allocationKept_applyAll (harmless : ClaimsOnlyDeleted records) (table : Table) :
    AllocationKept records table (table.applyAll changes) where
  surviving id old new was lives now := by
    have untouched : ∀ change ∈ changes, change.record.id = id → change.kind = .upsert ∧
        hasEntryField change.fields entryFieldAllocatedSizeBytes = false := by
      intro change mem isId
      obtain ⟨record, here, made⟩ := (mem_of_mapM converted).1 _ mem
      obtain ⟨source, kind, carried⟩ := changeOfUsnV2_cases made
      have frn : ntfsFileId record.fixed.fileReferenceNumber = id := by
        rw [← isId, source]
        rfl
      have update : isDeletion record = false := by
        by_contra deletion
        rw [Bool.not_eq_false] at deletion
        refine lives ((mem_deletedIds_iff converted).mpr ⟨change, mem, isId, ?_⟩)
        rw [kind, deletion]
        rfl
      refine ⟨by rw [kind, update]; rfl, ?_⟩
      rw [carried update, ← Bool.not_eq_true]
      exact fun claims => lives (frn ▸ harmless record here update claims)
    rw [← was, ← now]
    exact allocation_applyAll untouched table
  created id new was now := by
    have unknown := unknown_applyAll (fun _ => unknown_of_converted converted) id table <| by
        rcases was with absent | deleted
        · left
          rw [absent]
          rfl
        · obtain ⟨change, mem, isId, removed⟩ := (mem_deletedIds_iff converted).mp deleted
          exact .inr ⟨change, mem, isId, .inl removed⟩
    rw [now] at unknown
    exact unknown

end Converted

/-! ## Accepted payloads -/

/-- The payload of a V1 or V2 journal frame, and the records handed on. -/
def AcceptedAs (payload : List UInt8) (records : List UsnDeltaV2) : Prop :=
  ∃ batch, (receiveJournalRecordBatch payload = some batch ∨
    receiveJournalRecordBatchV2 payload = some batch) ∧ batch.records = .inl records

variable {payload : List UInt8}

theorem AcceptedAs.knownMask (accepted : AcceptedAs payload records) :
    ∀ record ∈ records, isKnownMask record.fixed.fieldMask = true := by
  obtain ⟨batch, received, format⟩ := accepted
  rcases received with old | new
  · unfold receiveJournalRecordBatch at old
    dsimp only at old
    split_ifs at old
    obtain ⟨parsed, -, rfl⟩ := Option.map_eq_some_iff.mp old
    cases format
    intro record mem
    obtain ⟨source, -, rfl⟩ := List.mem_map.mp mem
    show isKnownMask (usnFieldParentId ||| usnFieldName ||| usnFieldSizeBytes |||
      usnFieldLastModifiedTime ||| usnFieldAttributes) = true
    decide
  · unfold receiveJournalRecordBatchV2 at new
    dsimp only at new
    split_ifs at new
    obtain ⟨parsed, accepted, rfl⟩ := Option.map_eq_some_iff.mp new
    cases format
    obtain ⟨raw, -, checked⟩ := Option.bind_eq_some_iff.mp accepted
    obtain ⟨known, is⟩ := Option.ite_none_right_eq_some.mp checked
    cases is
    exact List.all_eq_true.mp known

theorem AcceptedAs.converts (accepted : AcceptedAs payload records) :
    ∃ changes, records.mapM changeOfUsnV2 = some changes := by
  refine exists_mapM fun record mem => ?_
  have known := accepted.knownMask record mem
  unfold changeOfUsnV2 usnChange toEntryFieldMask
  split_ifs with _ unknown
  · rfl
  · rw [known] at unknown
    cases unknown
  · rfl

namespace Pipeline

variable {volumeId : VolumeRowId} {pipeline : Pipeline}

/-- Without rules nothing is excluded. -/
theorem ruleExcluded_of_noRules (pipeline : Pipeline)
    (noRules : pipeline.volumeRules volumeId = none) (changes : List EntryChange) :
    pipeline.ruleExcluded volumeId changes = [] := by
  simp [ruleExcluded, isEntryIncluded, noRules, Index.isEntryIncluded]

variable {changes : List EntryChange}

variable {outcome : BatchOutcome}

/-- A batch whose transaction commits, on a volume of the store. -/
theorem store_committedBatch (project : Projection → EntryChange → Projection)
    (present : pipeline.store.hasVolume volumeId = true)
    (normal : ∀ change ∈ changes, change.record.Normal) (committed : outcome.committed = true) :
    ∃ removed : List FileId,
      (applyBatchChanges project pipeline volumeId changes outcome).1.store.table volumeId =
        ((pipeline.store.table volumeId).applyAll changes).removeAll removed ∧
      (pipeline.volumeRules volumeId = none → removed = []) := by
  obtain ⟨store, applied⟩ := Store.exists_applyBatch changes committed present
  obtain ⟨removed, rows, excluded⟩ := store_applyBatchChanges project normal applied
  refine ⟨removed, rows, fun noRules => List.eq_nil_iff_forall_not_mem.mpr fun id mem => ?_⟩
  have none : (pipeline.projected project store changes).ruleExcluded volumeId changes = [] :=
    ruleExcluded_of_noRules (pipeline.projected project store changes) noRules changes
  have listed := excluded id mem
  rw [none] at listed
  cases listed

theorem store_applyUsnBatchV2 (present : pipeline.store.hasVolume volumeId = true)
    (converted : records.mapM changeOfUsnV2 = some changes) (committed : outcome.committed = true) :
    ∃ removed : List FileId,
      (pipeline.applyUsnBatchV2 volumeId records outcome).1.store.table volumeId =
        ((pipeline.store.table volumeId).applyAll changes).removeAll removed ∧
      (pipeline.volumeRules volumeId = none → removed = []) := by
  unfold applyUsnBatchV2
  rw [converted]
  refine store_committedBatch (projectUsnChange volumeId) present (fun change mem => ?_) committed
  obtain ⟨record, -, made⟩ := (mem_of_mapM converted).1 _ mem
  rw [record_usnChange made]
  exact fun _ => rfl

/-- A volume with one scanned row, whose allocated size is known. -/
def scannedOnce (frn : UInt64) : Pipeline :=
  ((after [.resolveVolume true ⟨[], 1⟩]).applyMftBatchV2 1 [scanned frn frn [] 0]
    ⟨true, true, []⟩).1

theorem scannedOnce_reachable (frn : UInt64) : Reachable (scannedOnce frn) :=
  .next (a := .applyMftBatchV2 1 [scanned frn frn [] 0] ⟨true, true, []⟩)
    (reachable_after [.resolveVolume true ⟨[], 1⟩]) trivial rfl

theorem scannedOnce_row (frn : UInt64) : (scannedOnce frn).store.table 1 (ntfsFileId frn) =
      some (toEntryRecordOfMftV2 (scanned frn frn [] 0)) := by
  set record := toEntryRecordOfMftV2 (scanned frn frn [] 0)
  obtain ⟨removed, rows, none⟩ : ∃ removed : List FileId,
      (scannedOnce frn).store.table 1 =
        (((after [.resolveVolume true ⟨[], 1⟩]).store.table 1).applyAll
          [changeOfMft record]).removeAll removed ∧
      ((after [.resolveVolume true ⟨[], 1⟩]).volumeRules 1 = none → removed = []) :=
    store_committedBatch (fun projection change => projection.upsert 1 change.record) rfl
      (by simp [EntryRecord.Normal, changeOfMft, toEntryRecordOfMftV2]) rfl
  rw [rows, none rfl, Table.removeAll_nil]
  rw [Table.applyAll_changeOfMft, Function.update_apply, if_pos]
  rfl

/-- **Which V1 and V2 batches keep allocated sizes**: those in which an update that claims
an allocated size is for a file the same batch deletes. -/
theorem allocatedSize_kept_iff {payload : List UInt8} {records : List UsnDeltaV2}
    (accepted : AcceptedAs payload records) :
    (∀ (pipeline : Pipeline) (volumeId : VolumeRowId) (outcome : BatchOutcome),
      Reachable pipeline → pipeline.store.hasVolume volumeId = true → outcome.committed = true →
        AllocationKept records (pipeline.searchableRows volumeId)
          ((pipeline.applyUsnBatchV2 volumeId records outcome).1.searchableRows volumeId)) ↔
      ClaimsOnlyDeleted records := by
  obtain ⟨changes, converted⟩ := accepted.converts
  constructor
  · intro kept record mem update claims
    by_contra lives
    obtain ⟨change, listed, made⟩ := (mem_of_mapM converted).2 _ mem
    obtain ⟨source, kind, carried⟩ := changeOfUsnV2_cases made
    set id := ntfsFileId record.fixed.fileReferenceNumber with isId
    have changesId : change.record.id = id := by
      rw [source]
      rfl
    -- The row was scanned with a known size; the batch leaves it in place.
    set pipeline := scannedOnce record.fixed.fileReferenceNumber
    have reach : Reachable pipeline := scannedOnce_reachable _
    have row : pipeline.store.table 1 id = some _ := scannedOnce_row _
    have succeeds : (⟨true, true, []⟩ : BatchOutcome).committed = true := rfl
    have present : pipeline.store.hasVolume 1 = true := rfl
    obtain ⟨removed, rows, none⟩ := store_applyUsnBatchV2 present converted succeeds
    rw [none rfl, Table.removeAll_nil] at rows
    have both := kept pipeline 1 ⟨true, true, []⟩ reach rfl rfl
    have next : Reachable (pipeline.applyUsnBatchV2 1 records ⟨true, true, []⟩).1 :=
      .next (a := .applyUsnBatchV2 1 records ⟨true, true, []⟩) reach trivial rfl
    rw [(agreed_of_reachable reach).searchableRows, (agreed_of_reachable next).searchableRows,
      rows] at both
    have stays : ((pipeline.store.table 1).applyAll changes id).isSome := by
      refine isSome_applyAll (fun other here is => ?_) (by rw [row]; rfl)
      by_contra removal
      refine lives ((mem_deletedIds_iff converted).mpr ⟨other, here, is, ?_⟩)
      cases kindOther : other.kind with
      | remove => rfl
      | upsert => exact absurd kindOther removal
    obtain ⟨new, now⟩ := Option.isSome_iff_exists.mp stays
    have same := both.surviving id _ new row lives now
    have erased := unknown_applyAll (fun _ => unknown_of_converted converted) id
      (pipeline.store.table 1) (.inr ⟨change, listed, changesId, .inr ((carried update).trans
        claims)⟩)
    rw [now, same] at erased
    cases erased
  · intro harmless pipeline volumeId outcome reach present committed
    have next : Reachable (pipeline.applyUsnBatchV2 volumeId records outcome).1 :=
      .next (a := .applyUsnBatchV2 volumeId records outcome) reach trivial rfl
    obtain ⟨removed, rows, -⟩ := store_applyUsnBatchV2 present converted committed
    rw [(agreed_of_reachable reach).searchableRows, (agreed_of_reachable next).searchableRows, rows]
    refine (allocationKept_applyAll converted harmless _).of_sub fun id row now => ?_
    unfold Table.removeAll at now
    split_ifs at now
    exact now

/-- The payload of a V2 frame with one record. -/
def payloadOf (record : UsnDeltaV2) : List UInt8 :=
  JournalRecordBatchV2Header.codec.encode ⟨1, UInt32.ofNat [record].length, 0, 2⟩ ++
    serializeUsnDeltaV2Batch [record]

theorem acceptedAs_payloadOf (fits : record.isSerializable = true)
    (known : isKnownMask record.fixed.fieldMask = true) :
    AcceptedAs (payloadOf record) [record] := by
  have few : [record].length ≤ maxBatchRecordCount := by
    show 1 ≤ 8192
    omega
  have received : receiveJournalRecordBatchV2 (payloadOf record) = some ⟨1, 0, .inl [record]⟩ :=
    receiveJournalRecordBatchV2_encode (List.forall_mem_singleton.mpr fits)
      (List.forall_mem_singleton.mpr known) few
  exact ⟨_, .inr received, rfl⟩

/-- A rename leaves the scanned size of the file known. -/
theorem allocatedSize_kept_iff_rename :
    AllocationKept [journaled 100 5 [0x63] 0 usnFieldName] ((scannedOnce 100).searchableRows 1)
      (((scannedOnce 100).applyUsnBatchV2 1 [journaled 100 5 [0x63] 0 usnFieldName]
        ⟨true, true, []⟩).1.searchableRows 1) := by
  have accepted : AcceptedAs (payloadOf (journaled 100 5 [0x63] 0 usnFieldName))
      [journaled 100 5 [0x63] 0 usnFieldName] :=
    acceptedAs_payloadOf (by decide) (by decide)
  exact (allocatedSize_kept_iff accepted).mpr (by decide) _ 1 ⟨true, true, []⟩
    (scannedOnce_reachable 100) rfl rfl

/-- The engine accepts the bit of the allocated size in a V2 record, which has no such
field: the known size of a scanned file becomes unknown. -/
theorem allocatedSize_erased :
    ∃ record : UsnDeltaV2, AcceptedAs (payloadOf record) [record] ∧ isDeletion record = false ∧
      Reachable (scannedOnce 100) ∧
      ((scannedOnce 100).searchableRows 1 (ntfsFileId 100)).map (·.allocatedSizeKnown) = some true ∧
      (((scannedOnce 100).applyUsnBatchV2 1 [record] ⟨true, true, []⟩).1.searchableRows 1
        (ntfsFileId 100)).map (·.allocatedSizeKnown) = some false :=
  ⟨journaled 100 5 [0x63] 0 (usnFieldName ||| usnFieldAllocatedSizeBytes),
    acceptedAs_payloadOf (by decide) (by decide), by decide, scannedOnce_reachable 100,
    by decide +kernel, by decide +kernel⟩

end Pipeline

end FastFiles.Index
