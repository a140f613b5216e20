import FastFiles.Index.Table
import FastFiles.Index.Text

/-!
# The durable store

The `volumes` and `entries` tables of `Store.cpp`.  `entries` is kept apart by
`volume_id`, the first column of its primary key.  A transaction either commits or leaves
the store as it was; which of the two is chosen by the environment (`committed`).

An allocated size is nullable, and a name is UTF-8.  `Store.table` is the volume as a
table of records, and `table_applyBatch` says that a committed batch is `Table.applyAll`.
-/

namespace FastFiles.Index

/-! ## Rows -/

/-- A row of `entries` without its key. -/
structure StoredEntry where
  parentFrn : FileId
  name : List UInt8
  sizeBytes : UInt64
  /-- `NULL` is unknown. -/
  allocatedSizeBytes : Option UInt64
  creationTime : UInt64
  lastModifiedTime : UInt64
  lastAccessTime : UInt64
  attributes : UInt32
deriving DecidableEq

variable (rows : StoredRows) (fields : EntryFieldMask)

namespace StoredEntry

/-- The values an upsert binds: absent fields are zeros. -/
def excluded (record : EntryRecord) : StoredEntry where
  parentFrn := if hasEntryField fields entryFieldParentId then record.parentId else ⟨0, 0⟩
  name := if hasEntryField fields entryFieldName then utf16ToUtf8 record.name else []
  sizeBytes := if hasEntryField fields entryFieldSizeBytes then record.sizeBytes else 0
  allocatedSizeBytes :=
    if hasEntryField fields entryFieldAllocatedSizeBytes && record.allocatedSizeKnown then
      some record.allocatedSizeBytes
    else none
  creationTime := if hasEntryField fields entryFieldCreationTime then record.creationTime else 0
  lastModifiedTime :=
    if hasEntryField fields entryFieldLastModifiedTime then record.lastModifiedTime else 0
  lastAccessTime :=
    if hasEntryField fields entryFieldLastAccessTime then record.lastAccessTime else 0
  attributes := if hasEntryField fields entryFieldAttributes then record.attributes else 0

/-- `ON CONFLICT … DO UPDATE SET`: a field whose bit is set comes from the bound values. -/
def conflict (entry bound : StoredEntry) : StoredEntry where
  parentFrn := if hasEntryField fields entryFieldParentId then bound.parentFrn else entry.parentFrn
  name := if hasEntryField fields entryFieldName then bound.name else entry.name
  sizeBytes := if hasEntryField fields entryFieldSizeBytes then bound.sizeBytes else entry.sizeBytes
  allocatedSizeBytes :=
    if hasEntryField fields entryFieldAllocatedSizeBytes then bound.allocatedSizeBytes
    else entry.allocatedSizeBytes
  creationTime :=
    if hasEntryField fields entryFieldCreationTime then bound.creationTime else entry.creationTime
  lastModifiedTime :=
    if hasEntryField fields entryFieldLastModifiedTime then bound.lastModifiedTime
    else entry.lastModifiedTime
  lastAccessTime :=
    if hasEntryField fields entryFieldLastAccessTime then bound.lastAccessTime
    else entry.lastAccessTime
  attributes :=
    if hasEntryField fields entryFieldAttributes then bound.attributes else entry.attributes

/-- The upsert statement. -/
def upsert (record : EntryRecord) : Option StoredEntry → StoredEntry
  | none => excluded fields record
  | some entry => conflict fields entry (excluded fields record)

/-- `ReadEntryRecord`. -/
def record (id : FileId) (entry : StoredEntry) : EntryRecord where
  id := id
  parentId := entry.parentFrn
  name := utf8ToUtf16 entry.name
  sizeBytes := entry.sizeBytes
  allocatedSizeBytes := entry.allocatedSizeBytes.getD 0
  allocatedSizeKnown := entry.allocatedSizeBytes.isSome
  creationTime := entry.creationTime
  lastModifiedTime := entry.lastModifiedTime
  lastAccessTime := entry.lastAccessTime
  attributes := entry.attributes

theorem normal_record (id : FileId) (entry : StoredEntry) : (entry.record id).Normal := by
  intro unknown
  simp only [record, Option.isSome_eq_false_iff, Option.isNone_iff_eq_none] at unknown ⊢
  rw [unknown]
  rfl

/-- **The upsert statement merges.** -/
theorem record_upsert {fields : EntryFieldMask} {change : EntryRecord} (normal : change.Normal)
    (existing : Option StoredEntry) :
    (upsert fields change existing).record change.id =
      EntryRecord.merge fields (existing.map (record change.id)) change := by
  have known : change.allocatedSizeKnown = false → change.allocatedSizeBytes = 0 := normal
  cases existing with
  | none =>
    simp only [upsert, excluded, record, EntryRecord.merge, Option.map_none, Option.getD_none,
      EntryRecord.blank]
    congr 1
    · split_ifs
      · exact utf8ToUtf16_utf16ToUtf8 _
      · exact utf8ToUtf16_utf16ToUtf8 []
    · cases hasEntryField fields entryFieldAllocatedSizeBytes <;>
        cases flag : change.allocatedSizeKnown <;> simp [known, flag]
    · cases hasEntryField fields entryFieldAllocatedSizeBytes <;>
        cases change.allocatedSizeKnown <;> rfl
  | some entry =>
    simp only [upsert, conflict, excluded, record, EntryRecord.merge, Option.map_some,
      Option.getD_some]
    congr 1
    · split_ifs <;> rfl
    · split_ifs
      · exact utf8ToUtf16_utf16ToUtf8 _
      · rfl
    · split_ifs <;> rfl
    · cases hasEntryField fields entryFieldAllocatedSizeBytes <;>
        cases flag : change.allocatedSizeKnown <;> simp [known, flag]
    · cases hasEntryField fields entryFieldAllocatedSizeBytes <;>
        cases change.allocatedSizeKnown <;> simp
    iterate 4 split_ifs <;> rfl

end StoredEntry

/-! ## Tables -/

structure VolumeKey where
  volumeGuid : List UInt8
  serialNumber : UInt32
deriving DecidableEq

/-- A row of `volumes`. -/
structure VolumeMetadata where
  rowId : VolumeRowId
  key : VolumeKey
  available : Bool
deriving DecidableEq

/-- The rows of a volume by file id. -/
abbrev StoredRows := AList fun _ : FileId => StoredEntry

namespace StoredRows

def apply (change : EntryChange) : StoredRows :=
  match change.kind with
  | .upsert => rows.insert change.record.id
      (.upsert change.fields change.record (rows.lookup change.record.id))
  | .remove => rows.erase change.record.id

def table : Table :=
  fun id => (rows.lookup id).map (StoredEntry.record id)

/-- The rows as they are streamed. -/
def records : List EntryRecord :=
  rows.entries.map fun row => row.2.record row.1

theorem table_apply {change : EntryChange} (normal : change.record.Normal) :
    (rows.apply change).table = rows.table.apply change := by
  funext id
  unfold apply Table.apply
  cases change.kind with
  | upsert =>
    simp only [table]
    by_cases same : id = change.record.id
    · subst same
      simp [StoredEntry.record_upsert normal]
    · simp [same, table, AList.lookup_insert_ne same]
  | remove =>
    simp only [table]
    by_cases same : id = change.record.id
    · subst same
      simp
    · simp [same, table, AList.lookup_erase_ne same]

theorem table_foldl_apply {changes : List EntryChange}
    (normal : ∀ change ∈ changes, change.record.Normal) :
    (changes.foldl apply rows).table = rows.table.applyAll changes := by
  induction changes generalizing rows with
  | nil => rfl
  | cons change changes ih =>
    rw [List.foldl_cons, ih _ fun other mem => normal other (List.mem_cons_of_mem _ mem),
      table_apply rows (normal change List.mem_cons_self)]
    rfl

theorem table_eq_some {rows : StoredRows} {id : FileId} {record : EntryRecord} :
    rows.table id = some record ↔ record ∈ rows.records ∧ record.id = id := by
  unfold table records
  rw [Option.map_eq_some_iff, List.mem_map]
  constructor
  · rintro ⟨entry, found, rfl⟩
    exact ⟨⟨⟨id, entry⟩, AList.mem_lookup_iff.mp found, rfl⟩, rfl⟩
  · rintro ⟨⟨⟨other, entry⟩, mem, rfl⟩, rfl⟩
    exact ⟨entry, AList.mem_lookup_iff.mpr mem, rfl⟩

theorem nodup_records : (rows.records.map (·.id)).Nodup := by
  rw [records, List.map_map]
  exact rows.nodupKeys

/-- The stream of a volume has exactly its rows. -/
theorem insertAll_records : Table.insertAll (fun _ => none) rows.records = rows.table := by
  funext id
  cases found : rows.table id with
  | none =>
    rw [Table.insertAll_of_notMem]
    intro mem
    obtain ⟨record, here, is⟩ := List.mem_map.mp mem
    cases found.symm.trans (table_eq_some.mpr ⟨here, is⟩)
  | some record =>
    obtain ⟨mem, rfl⟩ := table_eq_some.mp found
    exact Table.insertAll_of_mem _ rows.nodup_records mem

theorem normal_table : rows.table.Regular := by
  intro id record found
  obtain ⟨entry, -, rfl⟩ := Option.map_eq_some_iff.mp found
  exact ⟨rfl, entry.normal_record id⟩

end StoredRows

structure Store where
  volumes : List VolumeMetadata
  /-- The largest row id ever used. -/
  lastVolumeRowId : VolumeRowId
  entries : VolumeRowId → StoredRows

namespace Store

def empty : Store where
  volumes := []
  lastVolumeRowId := 0
  entries := fun _ => ∅

variable (store : Store) (committed : Bool) (volumeRowId : VolumeRowId)

def hasVolume : Bool :=
  store.volumes.any (·.rowId == volumeRowId)

def table (store : Store) (volumeRowId : VolumeRowId) : Table := (store.entries volumeRowId).table

/-- `none` when the transaction is rolled back.  An upsert into a volume that is not there
violates the foreign key. -/
def applyBatch (changes : List EntryChange) : Option Store :=
  if changes = [] then some store
  else if !committed || (changes.any (·.kind == .upsert) && !store.hasVolume volumeRowId) then none
  else
    some { store with
      entries := Function.update store.entries volumeRowId
        (changes.foldl StoredRows.apply (store.entries volumeRowId)) }

def findEntry (frn : FileId) : Option EntryRecord :=
  store.table volumeRowId frn

def listEntryIds : List FileId :=
  (store.entries volumeRowId).keys

/-- The rows of `ForEachEntry`. -/
def forEachEntry : List EntryRecord :=
  (store.entries volumeRowId).records

/-- The row of a volume, and whether it was created; `none` when the insertion fails. -/
def getOrCreateVolume (inserted : Bool) (key : VolumeKey) : Option (VolumeRowId × Bool × Store) :=
  match store.volumes.find? (·.key == key) with
  | some metadata => some (metadata.rowId, false, store)
  | none =>
    if inserted then
      let rowId := store.lastVolumeRowId + 1
      some (rowId, true,
        { store with
          volumes := store.volumes ++ [{ rowId, key, available := true }]
          lastVolumeRowId := rowId })
    else none

/-- Only a volume that is not available is forgotten. -/
def forgetVolume : Option Store :=
  match store.volumes.find? (·.rowId == volumeRowId) with
  | some metadata =>
    if metadata.available || !committed then none
    else
      some { store with
        volumes := store.volumes.filter (·.rowId != volumeRowId)
        entries := Function.update store.entries volumeRowId ∅ }
  | none => none

/-- The new store and whether the visibility changed. -/
def setVolumeAvailable (available : Bool) : Store × Bool :=
  ({ store with
     volumes := store.volumes.map fun metadata =>
       if metadata.rowId = volumeRowId then { metadata with available } else metadata },
   store.volumes.any fun metadata =>
     metadata.rowId == volumeRowId && metadata.available != available)

variable {store next : Store} {committed : Bool} {volumeRowId : VolumeRowId}
  {changes : List EntryChange}

section

variable (applied : store.applyBatch committed volumeRowId changes = some next)

include applied

theorem entries_applyBatch_self :
    next.entries volumeRowId = changes.foldl StoredRows.apply (store.entries volumeRowId) := by
  unfold applyBatch at applied
  split_ifs at applied with none
  · cases applied
    rw [none]
    rfl
  · cases applied
    exact Function.update_self _ _ _

/-- **A committed batch is the batch of the table.** -/
theorem table_applyBatch_self (normal : ∀ change ∈ changes, change.record.Normal) :
    next.table volumeRowId = (store.table volumeRowId).applyAll changes := by
  rw [table, entries_applyBatch_self applied, StoredRows.table_foldl_apply _ normal]
  rfl

theorem applyBatch_frame :
    next.volumes = store.volumes ∧ next.lastVolumeRowId = store.lastVolumeRowId ∧
      ∀ other, other ≠ volumeRowId → next.entries other = store.entries other := by
  unfold applyBatch at applied
  split_ifs at applied
  · cases applied
    exact ⟨rfl, rfl, fun _ _ => rfl⟩
  · cases applied
    exact ⟨rfl, rfl, fun other differs => Function.update_of_ne differs _ _⟩

theorem table_applyBatch_of_ne
    {other : VolumeRowId} (differs : other ≠ volumeRowId) : next.table other = store.table other := by
  rw [table, (applyBatch_frame applied).2.2 other differs]
  rfl

end

/-- Nothing but the environment rolls back a batch on a volume of the store. -/
theorem exists_applyBatch (changes : List EntryChange) (commits : committed = true)
    (present : store.hasVolume volumeRowId = true) :
    ∃ next, store.applyBatch committed volumeRowId changes = some next := by
  unfold applyBatch
  split_ifs with _ fails
  · exact ⟨_, rfl⟩
  · simp [commits, present] at fails
  · exact ⟨_, rfl⟩

theorem mem_listEntryIds {frn : FileId} :
    frn ∈ store.listEntryIds volumeRowId ↔ (store.table volumeRowId frn).isSome := by
  rw [listEntryIds, ← AList.mem_keys, ← AList.lookup_isSome]
  simp [table, StoredRows.table]

end Store

end FastFiles.Index
