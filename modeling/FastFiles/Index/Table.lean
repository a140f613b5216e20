import FastFiles.Index.Entry

/-!
# What an index is for

The meaning of a batch, without storage: one volume is a table from file ids to records,
an upsert merges the fields present in its mask into the row, a missing row starts from
zeros with an unknown allocated size, and a removal takes the row away.

The store (`Index.Store`) and the projection (`Index.Projection`) implement this in two
independent ways; their refinement theorems are stated against it.
-/

namespace FastFiles.Index

open Function

/-- The row an upsert starts from when there is none. -/
def EntryRecord.blank (id : FileId) : EntryRecord where
  id := id
  parentId := ⟨0, 0⟩
  name := []
  sizeBytes := 0
  allocatedSizeBytes := 0
  allocatedSizeKnown := false
  creationTime := 0
  lastModifiedTime := 0
  lastAccessTime := 0
  attributes := 0

/-- An unknown allocated size has no value. -/
def EntryRecord.Normal (record : EntryRecord) : Prop :=
  record.allocatedSizeKnown = false → record.allocatedSizeBytes = 0

/-- The fields present in the mask come from the record, the others from the row. -/
def EntryRecord.merge (fields : EntryFieldMask) (existing : Option EntryRecord)
    (record : EntryRecord) : EntryRecord :=
  let old := existing.getD (.blank record.id)
  { id := record.id
    parentId := if hasEntryField fields entryFieldParentId then record.parentId else old.parentId
    name := if hasEntryField fields entryFieldName then record.name else old.name
    sizeBytes := if hasEntryField fields entryFieldSizeBytes then record.sizeBytes else old.sizeBytes
    allocatedSizeBytes :=
      if hasEntryField fields entryFieldAllocatedSizeBytes then record.allocatedSizeBytes
      else old.allocatedSizeBytes
    allocatedSizeKnown :=
      if hasEntryField fields entryFieldAllocatedSizeBytes then record.allocatedSizeKnown
      else old.allocatedSizeKnown
    creationTime :=
      if hasEntryField fields entryFieldCreationTime then record.creationTime else old.creationTime
    lastModifiedTime :=
      if hasEntryField fields entryFieldLastModifiedTime then record.lastModifiedTime
      else old.lastModifiedTime
    lastAccessTime :=
      if hasEntryField fields entryFieldLastAccessTime then record.lastAccessTime
      else old.lastAccessTime
    attributes :=
      if hasEntryField fields entryFieldAttributes then record.attributes else old.attributes }

theorem EntryRecord.merge_all (existing : Option EntryRecord) (record : EntryRecord) :
    EntryRecord.merge entryFieldMaskAll existing record = record := rfl

/-- The rows of one volume. -/
abbrev Table := FileId → Option EntryRecord

namespace Table

variable (table : Table)

def apply (change : EntryChange) : Table :=
  match change.kind with
  | .upsert => update table change.record.id
      (some (EntryRecord.merge change.fields (table change.record.id) change.record))
  | .remove => update table change.record.id none

def applyAll (changes : List EntryChange) : Table :=
  changes.foldl apply table

/-- Whole rows, one after the other. -/
def insertAll (records : List EntryRecord) : Table :=
  records.foldl (fun table record => update table record.id (some record)) table

def removeAll (ids : List FileId) : Table :=
  fun id => if id ∈ ids then none else table id

/-- Every row is its own id's. -/
def Keyed : Prop := ∀ id record, table id = some record → record.id = id

/-- Every row is its own id's and normal. -/
def Regular : Prop :=
  ∀ id record, table id = some record → record.id = id ∧ record.Normal

variable (table : Table)

theorem applyAll_changeOfMft (record : EntryRecord) :
    table.applyAll [changeOfMft record] = update table record.id (some record) := by
  show update table record.id
    (some (EntryRecord.merge entryFieldMaskAll (table record.id) record)) = _
  rw [EntryRecord.merge_all]

/-- A batch of removals. -/
theorem applyAll_removals {changes : List EntryChange}
    (removals : ∀ change ∈ changes, change.kind = .remove) :
    table.applyAll changes = table.removeAll (changes.map (·.record.id)) := by
  induction changes generalizing table with
  | nil =>
    funext id
    simp [applyAll, removeAll]
  | cons change changes ih =>
    have first : table.apply change = update table change.record.id none := by
      rw [Table.apply, removals change List.mem_cons_self]
    show (table.apply change).applyAll changes = _
    rw [ih _ fun other mem => removals other (List.mem_cons_of_mem _ mem), first]
    funext id
    by_cases here : id = change.record.id
    · simp [removeAll, here]
    · simp [removeAll, here]

variable {records : List EntryRecord}

theorem insertAll_of_notMem {id : FileId} (absent : id ∉ records.map (·.id)) :
    table.insertAll records id = table id := by
  induction records generalizing table with
  | nil => rfl
  | cons record records ih =>
    rw [List.map_cons, List.mem_cons, not_or] at absent
    show (Table.insertAll (update table record.id (some record)) records) id = _
    rw [ih _ absent.2, update_of_ne absent.1]

theorem insertAll_of_mem (distinct : (records.map (·.id)).Nodup) {record : EntryRecord}
    (mem : record ∈ records) : table.insertAll records record.id = some record := by
  induction records generalizing table with
  | nil => cases mem
  | cons first records ih =>
    obtain ⟨fresh, rest⟩ := List.nodup_cons.mp distinct
    show (Table.insertAll (update table first.id (some first)) records) record.id = _
    rcases List.mem_cons.mp mem with rfl | later
    · rw [insertAll_of_notMem _ fresh, update_self]
    · exact ih _ rest later

theorem removeAll_nil : table.removeAll [] = table := by
  funext id
  simp [Table.removeAll]

theorem removeAll_append (first second : List FileId) :
    table.removeAll (first ++ second) = (table.removeAll first).removeAll second := by
  funext id
  by_cases early : id ∈ first <;> by_cases late : id ∈ second <;>
    simp [Table.removeAll, early, late]

end Table

end FastFiles.Index
