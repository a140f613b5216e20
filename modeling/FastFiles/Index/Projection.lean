import FastFiles.Index.Slots

/-!
# The projection

`Projection.cpp` over the storage of `Index.Slots`.  A `Projection` carries the storage
invariant, so every operation below keeps it by construction.

The memory policy chooses its victims by access time and estimated size; here the
environment chooses them (`Eviction`), and likewise how many rows of a reload arrive
before it is abandoned (`Reload`).  A volume that lost rows this way is cold
(`needsReload`).  `Projection.table` is what is resident of a volume; `Keeps` says that
the memory policy only ever makes volumes cold.
-/

namespace FastFiles.Index

open Slots

/-! ## Subtrees -/

namespace Slots

variable {ν : Type} (slots : Slots ν) (visited : List EntryKey)

/-- The keys a list of slots holds. -/
def keysAt (indices : List Nat) : List EntryKey :=
  indices.filterMap fun index => slots.entries[index]?.map ProjectionEntry.key

/-- The ids that a traversal has not visited. -/
def unvisited : List EntryKey :=
  slots.idToIndex.keys.filter (· ∉ visited)

theorem unvisited_sublist (key : EntryKey) :
    (slots.unvisited (key :: visited)).Sublist (slots.unvisited visited) := by
  refine List.monotone_filter_right _ fun other absent => ?_
  simp only [List.mem_cons, not_or, decide_eq_true_eq] at absent ⊢
  exact absent.2

theorem length_unvisited_lt {visited : List EntryKey} {key : EntryKey} (fresh : key ∉ visited)
    (present : key ∈ slots.idToIndex.keys) :
    (slots.unvisited (key :: visited)).length < (slots.unvisited visited).length := by
  by_contra longer
  have same := (slots.unvisited_sublist visited key).eq_of_length_le (Nat.le_of_not_lt longer)
  have listed : key ∈ slots.unvisited visited := by
    simp [unvisited, present, fresh]
  rw [← same] at listed
  simp [unvisited] at listed

/-- The keys `EvictSubtree` removes: a depth-first walk through directories that visits no
key twice. -/
def subtreeKeys (slots : Slots ν) (pending visited : List EntryKey) : List EntryKey :=
  match pending with
  | [] => []
  | current :: pending =>
    if current ∈ visited then slots.subtreeKeys pending visited
    else
      match _present : slots.idToIndex.lookup current with
      | none => slots.subtreeKeys pending (current :: visited)
      | some index =>
        if (slots.entries[index]?.elim 0 (·.attributes)) &&& fileAttributeDirectory == 0 then
          current :: slots.subtreeKeys pending (current :: visited)
        else
          current :: slots.subtreeKeys
            ((slots.keysAt (slots.parentToChildren current)).reverse ++ pending)
            (current :: visited)
termination_by ((slots.unvisited visited).length, pending.length)
decreasing_by
  · exact Prod.Lex.right _ (Nat.lt_succ_self _)
  · have fewer := (slots.unvisited_sublist visited current).length_le
    rw [Prod.lex_iff]
    simp only [List.length_cons]
    omega
  iterate 2
    exact Prod.Lex.left _ _ (slots.length_unvisited_lt ‹_›
      (AList.mem_keys.mp (AList.lookup_isSome.mp (by simp [*]))))

variable {slots : Slots ν}

/-- The walk stays in the volume it starts in. -/
theorem volume_subtreeKeys (wf : slots.WellFormed) {pending : List EntryKey}
    (visited : List EntryKey) {volumeRowId : VolumeRowId}
    (own : ∀ key ∈ pending, key.volumeRowId = volumeRowId) :
    ∀ key ∈ slots.subtreeKeys pending visited, key.volumeRowId = volumeRowId := by
  fun_induction subtreeKeys slots pending visited with
  | case1 => exact nofun
  | case2 _ _ _ _ ih | case3 _ _ _ _ _ ih =>
    exact ih fun key mem => own key (.tail _ mem)
  | case4 visited current pending fresh index present file ih =>
    rw [List.forall_mem_cons]
    refine ⟨own current (.head _), ?_⟩
    exact ih fun key mem => own key (.tail _ mem)
  | case5 visited current pending fresh index present directory ih =>
    rw [List.forall_mem_cons]
    refine ⟨own current (.head _), ih fun key mem => ?_⟩
    rcases List.mem_append.mp mem with child | before
    · -- A child's link is the key of its parent, in the same volume.
      obtain ⟨slot, listed, at_⟩ := List.mem_filterMap.mp (List.mem_reverse.mp child)
      obtain ⟨entry, live, link⟩ :=
        Option.bind_eq_some_iff.mp ((wf.children.mem_iff current slot).mp listed)
      have parent := own current (.head _)
      rw [(live_eq_some.mp live).1] at at_
      cases at_
      rw [ProjectionEntry.link] at link
      split_ifs at link
      cases link
      exact parent
    · exact own key (.tail _ before)

/-! ## Batches of removals -/

def removeAll (slots : Slots ν) (keys : List EntryKey) : Slots ν :=
  keys.foldl (fun slots key => slots.remove key.volumeRowId key.frn) slots

theorem WellFormed.removeAll (wf : slots.WellFormed) (keys : List EntryKey) :
    (slots.removeAll keys).WellFormed := by
  induction keys generalizing slots with
  | nil => exact wf
  | cons key keys ih => exact ih (wf.remove key.volumeRowId key.frn)

theorem find_removeAll (slots : Slots ν) (keys : List EntryKey) (key : EntryKey) :
    (slots.removeAll keys).find key = if key ∈ keys then none else slots.find key := by
  induction keys generalizing slots with
  | nil => simp [removeAll]
  | cons first keys ih =>
    have step := ih (slots.remove first.volumeRowId first.frn)
    rw [find_remove] at step
    simp only [removeAll, List.foldl_cons, List.mem_cons] at step ⊢
    rw [step]
    by_cases same : key = first <;> by_cases later : key ∈ keys <;> simp [same, later]

/-- `EvictSubtree` and the compaction every caller runs next.  A large subtree only loses
its identities; a small one is unlinked row by row, descendants first. -/
def evict (slots : Slots ν) (keys : List EntryKey) : Slots ν :=
  if 256 < keys.length then (slots.eraseIds keys).compactStorage
  else (slots.removeAll keys.reverse).compactStorage

/-- Both ways of evicting leave the same rows. -/
theorem evict_spec (wf : slots.WellFormed) (keys : List EntryKey) : (slots.evict keys).WellFormed ∧
      ∀ key, (slots.evict keys).find key = if key ∈ keys then none else slots.find key := by
  unfold evict
  split_ifs
  · exact compactStorage_eraseIds wf keys
  · obtain ⟨wellFormed, kept⟩ :=
      compactStorage_spec (slots.removeAll keys.reverse) (wf.removeAll _).occupied
    refine ⟨wellFormed, fun key => ?_⟩
    rw [kept, find_removeAll]
    simp

end Slots

/-! ## The projection -/

/-- The rows, and the volumes that are not wholly resident. -/
@[ext] structure Projection (ν : Type := Text) where
  slots : Slots ν
  evictedVolumes : Finset VolumeRowId
  /-- Whether the trigram accelerator is current; its postings are those of the live rows. -/
  filenameIndexValid : Bool
  bulkScanActive : Bool
  wellFormed : slots.WellFormed

namespace Projection

variable {ν : Type}

def empty : Projection ν where
  slots := .empty
  evictedVolumes := ∅
  filenameIndexValid := true
  bulkScanActive := false
  wellFormed := wellFormed_empty

def find (projection : Projection ν) (volumeRowId : VolumeRowId) (frn : FileId) :
    Option (ProjectionEntry ν) :=
  projection.slots.find ⟨volumeRowId, frn⟩

variable (projection : Projection ν) (volumeRowId : VolumeRowId)

/-- The volume is cold. -/
def needsReload : Bool :=
  decide (volumeRowId ∈ projection.evictedVolumes)

/-- What is resident of a volume. -/
def table (projection : Projection) (volumeRowId : VolumeRowId) : Table :=
  fun id => (projection.find volumeRowId id).map ProjectionEntry.record

/-- The keys of a volume, in the order of iteration. -/
def volumeKeys : List EntryKey :=
  (projection.slots.rows.map Prod.fst).filter (·.volumeRowId = volumeRowId)

def upsert (projection : Projection ν) (volumeRowId : VolumeRowId) (record : EntryRecord ν) :
    Projection ν :=
  { projection with
    slots := projection.slots.upsert volumeRowId record
    wellFormed := projection.wellFormed.upsert volumeRowId record }

/-- A field of a partial update: present, kept from the row, or the default. -/
def partialField {α : Type} (fields field : EntryFieldMask) (value : α) (existing : Option α)
    (default : α) : α :=
  if hasEntryField fields field then value else existing.getD default

/-- The record `UpsertPartial` writes. -/
def mergePartial (existing : Option ProjectionEntry) (record : EntryRecord)
    (fields : EntryFieldMask) : EntryRecord where
  id := record.id
  parentId := partialField fields entryFieldParentId record.parentId
    (existing.map (·.parentFrn)) ⟨0, 0⟩
  name := partialField fields entryFieldName record.name (existing.map (·.name)) []
  sizeBytes := partialField fields entryFieldSizeBytes record.sizeBytes
    (existing.map (·.sizeBytes)) 0
  allocatedSizeBytes := partialField fields entryFieldAllocatedSizeBytes record.allocatedSizeBytes
    (existing.map (·.allocatedSizeBytes)) 0
  allocatedSizeKnown := partialField fields entryFieldAllocatedSizeBytes record.allocatedSizeKnown
    (existing.map (·.allocatedSizeKnown)) false
  creationTime := partialField fields entryFieldCreationTime record.creationTime
    (existing.map (·.creationTime)) 0
  lastModifiedTime := partialField fields entryFieldLastModifiedTime record.lastModifiedTime
    (existing.map (·.lastModifiedTime)) 0
  lastAccessTime := partialField fields entryFieldLastAccessTime record.lastAccessTime
    (existing.map (·.lastAccessTime)) 0
  attributes := partialField fields entryFieldAttributes record.attributes
    (existing.map (·.attributes)) 0

def upsertPartial (projection : Projection) (volumeRowId : VolumeRowId) (record : EntryRecord)
    (fields : EntryFieldMask) : Projection :=
  if fields = entryFieldMaskAll then projection.upsert volumeRowId record
  else
    projection.upsert volumeRowId
      (mergePartial (projection.find volumeRowId record.id) record fields)

def remove (projection : Projection ν) (volumeRowId : VolumeRowId) (frn : FileId) : Projection ν :=
  { projection with
    slots := projection.slots.remove volumeRowId frn
    wellFormed := projection.wellFormed.remove volumeRowId frn }

/-- A removal that does not keep the filename index drops it. -/
def removeBatch (frns : List FileId) (keepFilenameIndexCurrent : Bool) : Projection ν :=
  if frns = [] then projection
  else
    { projection with
      slots := projection.slots.removeAll (frns.map (⟨volumeRowId, ·⟩))
      filenameIndexValid := projection.filenameIndexValid && keepFilenameIndexCurrent
      wellFormed := projection.wellFormed.removeAll _ }

def removeVolume (keepFilenameIndexCurrent : Bool) : Projection ν :=
  projection.removeBatch volumeRowId ((projection.volumeKeys volumeRowId).map (·.frn))
    keepFilenameIndexCurrent

/-- Slots are renumbered: the live ones move together. -/
def compactStorage (projection : Projection ν) : Projection ν :=
  { projection with
    slots := projection.slots.compactStorage
    filenameIndexValid := false
    wellFormed :=
      (compactStorage_spec projection.slots projection.wellFormed.occupied).1 }

/-- A row leaves with the rows below it; its volume is cold. -/
def evictSubtree (root : EntryKey) : Projection ν :=
  if (projection.slots.idToIndex.lookup root).isNone then projection
  else
    { projection with
      slots := projection.slots.evict (projection.slots.subtreeKeys [root] [])
      evictedVolumes := insert root.volumeRowId projection.evictedVolumes
      filenameIndexValid := false
      wellFormed := (evict_spec projection.wellFormed _).1 }

def evictVolume : Projection ν :=
  if projection.volumeKeys volumeRowId = [] then projection
  else
    { projection with
      slots := (projection.slots.eraseIds (projection.volumeKeys volumeRowId)).compactStorage
      evictedVolumes := insert volumeRowId projection.evictedVolumes
      filenameIndexValid := false
      wellFormed := (compactStorage_eraseIds projection.wellFormed _).1 }

/-! ## The memory policy and reloads -/

/-- A victim: the subtree under a row, or a whole volume. -/
inductive Eviction
  | subtree (root : EntryKey)
  | volume (volumeRowId : VolumeRowId)
deriving DecidableEq

/-- One pass, and whether it evicted anything. -/
def evict : Eviction → Projection ν × Bool
  | .subtree root =>
    (projection.evictSubtree root, (projection.slots.idToIndex.lookup root).isSome)
  | .volume volumeRowId =>
    (projection.evictVolume volumeRowId, projection.volumeKeys volumeRowId != [])

/-- `EnforceMemoryLimit`: the victims of its passes, and whether any pass ran. -/
def enforceMemoryLimit (projection : Projection ν) : List Eviction → Projection ν × Bool
  | [] => (projection, false)
  | eviction :: evictions =>
    let (projection, ran) := projection.evict eviction
    let (projection, later) := projection.enforceMemoryLimit evictions
    (projection, ran || later)

/-- How a reload goes: how many rows arrive when the stream fails or is stopped at the
watermark, whether the whole volume then fits, and what the policy evicts afterwards. -/
structure Reload where
  stopsAfter : Option Nat
  fits : Bool
  evictions : List Eviction
deriving DecidableEq

def Reload.complete (reload : Reload) : Bool := reload.stopsAfter.isNone && reload.fits

/-- The rows are renumbered in the order of iteration, unless slots are free. -/
def compactEntriesForIterationOrder (projection : Projection ν) : Projection ν :=
  { projection with
    slots := projection.slots.compactEntriesForIterationOrder
    wellFormed := projection.wellFormed.compactEntriesForIterationOrder }

/-- Drop what is resident of a volume, if anything is or was. -/
def dropResident : Projection ν :=
  if projection.volumeKeys volumeRowId ≠ [] ∨ projection.needsReload volumeRowId then
    (projection.removeVolume volumeRowId false).compactStorage
  else projection

/-- The part of a rebuild before the rows are streamed. -/
def discardVolume : Projection ν :=
  let dropped := projection.dropResident volumeRowId
  { dropped with
    slots := { dropped.slots with denseIterationOrderValid := false }
    evictedVolumes := dropped.evictedVolumes.erase volumeRowId
    filenameIndexValid := false
    wellFormed := { dropped.wellFormed with dense := nofun } }

def upsertAll (records : List (EntryRecord ν)) : Projection ν :=
  records.foldl (fun projection record => projection.upsert volumeRowId record) projection

/-- `RebuildVolumeFromStore`, given the rows the store would stream.  An abandoned stream
leaves no row of the volume and keeps it cold. -/
def rebuildVolumeFromStore (stored : List (EntryRecord ν)) (reload : Reload) :
    Projection ν × Bool :=
  let discarded := projection.discardVolume volumeRowId
  if reload.complete then
    let streamed := (discarded.upsertAll volumeRowId stored).compactEntriesForIterationOrder
    let indexed := { streamed with
      filenameIndexValid := streamed.filenameIndexValid || !streamed.bulkScanActive }
    let enforced := (indexed.enforceMemoryLimit reload.evictions).1
    (enforced, !enforced.needsReload volumeRowId)
  else
    let streamed := discarded.upsertAll volumeRowId
      (stored.take (reload.stopsAfter.getD stored.length))
    let removed := (streamed.removeVolume volumeRowId false).compactStorage
    let cold := { removed with evictedVolumes := insert volumeRowId removed.evictedVolumes }
    ((cold.enforceMemoryLimit reload.evictions).1, false)

def setBulkScanActive (active : Bool) : Projection ν :=
  { projection with filenameIndexValid := !active, bulkScanActive := active }

/-! ## What the operations do to the rows -/

variable (projection : Projection) (volumeRowId : VolumeRowId)

theorem keyed_table : (projection.table volumeRowId).Keyed := by
  intro id record found
  obtain ⟨entry, here, rfl⟩ := Option.map_eq_some_iff.mp found
  exact congrArg EntryKey.frn (projection.wellFormed.find_eq_some.mp here).1

variable {other : VolumeRowId}

section

variable (record : EntryRecord)

theorem find_upsert (other : VolumeRowId) (frn : FileId) :
    (projection.upsert volumeRowId record).find other frn =
      if other = volumeRowId ∧ frn = record.id then some (.ofRecord volumeRowId record)
      else projection.find other frn := by
  show (projection.slots.upsert volumeRowId record).find ⟨other, frn⟩ = _
  rw [Slots.find_upsert projection.wellFormed]
  simp only [EntryKey.mk.injEq]
  rfl

theorem table_upsert_self :
    (projection.upsert volumeRowId record).table volumeRowId =
      Function.update (projection.table volumeRowId) record.id (some record) := by
  funext id
  rw [table, find_upsert]
  by_cases same : id = record.id
  · rw [if_pos ⟨rfl, same⟩, same, Function.update_self]
    rfl
  · simp [same, table]

theorem table_upsert_of_ne (differs : other ≠ volumeRowId) :
    (projection.upsert volumeRowId record).table other = projection.table other := by
  funext id
  rw [table, find_upsert, if_neg (fun is => differs is.1)]
  rfl

theorem table_upsertPartial_self (fields : EntryFieldMask) :
    (projection.upsertPartial volumeRowId record fields).table volumeRowId =
      (projection.table volumeRowId).apply { kind := .upsert, record, fields } := by
  unfold upsertPartial
  split_ifs with all
  · rw [table_upsert_self, all, Table.apply]
    simp [EntryRecord.merge_all]
  · -- the in-memory merge is the merge of the table
    rw [table_upsert_self, Table.apply, table]
    cases projection.find volumeRowId record.id <;> rfl

theorem table_upsertPartial_of_ne (fields : EntryFieldMask) (differs : other ≠ volumeRowId) :
    (projection.upsertPartial volumeRowId record fields).table other = projection.table other := by
  unfold upsertPartial
  split_ifs
  iterate 2 exact table_upsert_of_ne projection volumeRowId _ differs

end

theorem table_remove_self (frn : FileId) : (projection.remove volumeRowId frn).table volumeRowId =
      Function.update (projection.table volumeRowId) frn none := by
  funext id
  show ((projection.slots.remove volumeRowId frn).find ⟨volumeRowId, id⟩).map _ = _
  rw [find_remove]
  by_cases same : id = frn
  · simp [same]
  · simp [same, table, find]

theorem table_remove_of_ne (frn : FileId) (differs : other ≠ volumeRowId) :
    (projection.remove volumeRowId frn).table other = projection.table other := by
  funext id
  show ((projection.slots.remove volumeRowId frn).find ⟨other, id⟩).map _ = _
  rw [find_remove, if_neg fun is => differs (EntryKey.mk.inj is).1]
  rfl

theorem find_removeBatch (frns : List FileId) (keep : Bool) (other : VolumeRowId) (frn : FileId) :
    (projection.removeBatch volumeRowId frns keep).find other frn =
      if other = volumeRowId ∧ frn ∈ frns then none else projection.find other frn := by
  unfold removeBatch
  split_ifs with none mem mem
  · simp [none] at mem
  · rfl
  · show (projection.slots.removeAll _).find ⟨other, frn⟩ = _
    rw [find_removeAll, if_pos (by simpa [and_comm, eq_comm] using mem)]
  · show (projection.slots.removeAll _).find ⟨other, frn⟩ = _
    rw [find_removeAll, if_neg (by simpa [and_comm, eq_comm] using mem)]
    rfl

theorem table_removeBatch_self (frns : List FileId) (keep : Bool) :
    (projection.removeBatch volumeRowId frns keep).table volumeRowId =
      (projection.table volumeRowId).removeAll frns := by
  funext id
  rw [table, find_removeBatch, Table.removeAll]
  by_cases mem : id ∈ frns <;> simp [mem, table]

theorem table_removeBatch_of_ne (frns : List FileId) (keep : Bool) (differs : other ≠ volumeRowId) :
    (projection.removeBatch volumeRowId frns keep).table other = projection.table other := by
  funext id
  rw [table, find_removeBatch, if_neg fun is => differs is.1]
  rfl

theorem find_compactStorage (other : VolumeRowId) (frn : FileId) :
    projection.compactStorage.find other frn = projection.find other frn :=
  (compactStorage_spec projection.slots projection.wellFormed.occupied).2 ⟨other, frn⟩

theorem table_compactStorage : projection.compactStorage.table = projection.table := by
  funext other id
  rw [table, find_compactStorage]
  rfl

theorem mem_volumeKeys {key : EntryKey} :
    key ∈ projection.volumeKeys volumeRowId ↔
      key.volumeRowId = volumeRowId ∧ (projection.slots.find key).isSome := by
  have listed : key ∈ projection.slots.rows.map Prod.fst ↔ (projection.slots.find key).isSome := by
    constructor
    · intro mem
      obtain ⟨⟨_, index⟩, row, rfl⟩ := List.mem_map.mp mem
      obtain ⟨entry, live, is⟩ := projection.wellFormed.live_of_lookup (mem_rows.mp row)
      rw [projection.wellFormed.find_eq_some.mpr ⟨is, index, live⟩]
      rfl
    · intro present
      obtain ⟨entry, found⟩ := Option.isSome_iff_exists.mp present
      obtain ⟨index, lookup, -⟩ := Option.bind_eq_some_iff.mp found
      exact List.mem_map.mpr ⟨(key, index), mem_rows.mpr lookup, rfl⟩
  rw [volumeKeys, List.mem_filter, listed, decide_eq_true_eq, and_comm]

theorem table_removeVolume_self (keep : Bool) :
    (projection.removeVolume volumeRowId keep).table volumeRowId = fun _ => none := by
  rw [removeVolume, table_removeBatch_self]
  funext id
  rw [Table.removeAll]
  split_ifs with mem
  · rfl
  · by_contra present
    refine mem (List.mem_map.mpr ⟨⟨volumeRowId, id⟩, ?_, rfl⟩)
    rw [mem_volumeKeys, Option.isSome_iff_ne_none]
    exact ⟨rfl, fun absent => present (congrArg (Option.map _) absent)⟩

/-! ## What eviction keeps -/

/-- A volume that is not cold afterwards was not cold before and has the same rows. -/
def Keeps (projection next : Projection) : Prop :=
  ∀ volumeRowId, next.needsReload volumeRowId = false →
    projection.needsReload volumeRowId = false ∧ next.table volumeRowId = projection.table volumeRowId

theorem Keeps.refl : projection.Keeps projection := fun _ hot => ⟨hot, rfl⟩

variable {projection} {next last : Projection}

theorem Keeps.trans (first : projection.Keeps next) (second : next.Keeps last) :
    projection.Keeps last := by
  intro volumeRowId hot
  obtain ⟨between, later⟩ := second volumeRowId hot
  obtain ⟨before, earlier⟩ := first volumeRowId between
  exact ⟨before, later.trans earlier⟩

theorem Keeps.of_evicted {volumeRowId : VolumeRowId} {keys : List EntryKey}
    (cold : next.evictedVolumes = insert volumeRowId projection.evictedVolumes)
    (own : ∀ key ∈ keys, key.volumeRowId = volumeRowId)
    (kept : ∀ key, next.slots.find key = if key ∈ keys then none else projection.slots.find key) :
    projection.Keeps next := by
  intro other hot
  rw [needsReload, cold, decide_eq_false_iff_not, Finset.mem_insert, not_or] at hot
  refine ⟨decide_eq_false hot.2, funext fun id => ?_⟩
  have apart : (⟨other, id⟩ : EntryKey) ∉ keys := fun mem => hot.1 (own _ mem)
  show (next.slots.find ⟨other, id⟩).map _ = _
  rw [kept, if_neg apart]
  rfl

theorem keeps_evictSubtree (projection : Projection) (root : EntryKey) :
    projection.Keeps (projection.evictSubtree root) := by
  unfold evictSubtree
  split_ifs
  · exact Keeps.refl projection
  · refine Keeps.of_evicted rfl ?_ (evict_spec projection.wellFormed _).2
    exact volume_subtreeKeys projection.wellFormed [] (by simp)

theorem keeps_evictVolume (projection : Projection) (volumeRowId : VolumeRowId) :
    projection.Keeps (projection.evictVolume volumeRowId) := by
  unfold evictVolume
  split_ifs
  · exact Keeps.refl projection
  · refine Keeps.of_evicted rfl ?_ (compactStorage_eraseIds projection.wellFormed _).2
    exact fun key mem => ((mem_volumeKeys projection volumeRowId).mp mem).1

/-- **The memory policy only makes volumes cold.** -/
theorem keeps_enforceMemoryLimit (projection : Projection) (evictions : List Eviction) :
    projection.Keeps (projection.enforceMemoryLimit evictions).1 := by
  induction evictions generalizing projection with
  | nil => exact Keeps.refl projection
  | cons eviction evictions ih =>
    have first : projection.Keeps (projection.evict eviction).1 := by
      cases eviction with
      | subtree root => exact keeps_evictSubtree projection root
      | volume volumeRowId => exact keeps_evictVolume projection volumeRowId
    exact first.trans (ih _)

/-! ## Rebuilds -/

section

variable (projection : Projection)

theorem table_upsertAll_self (volumeRowId : VolumeRowId) (records : List EntryRecord) :
    (projection.upsertAll volumeRowId records).table volumeRowId =
      (projection.table volumeRowId).insertAll records := by
  induction records generalizing projection with
  | nil => rfl
  | cons record records ih =>
    show ((projection.upsert volumeRowId record).upsertAll volumeRowId records).table _ = _
    rw [ih, table_upsert_self]
    rfl

theorem table_upsertAll_of_ne (volumeRowId : VolumeRowId)
    (records : List EntryRecord) (differs : other ≠ volumeRowId) :
    (projection.upsertAll volumeRowId records).table other = projection.table other := by
  induction records generalizing projection with
  | nil => rfl
  | cons record records ih =>
    show ((projection.upsert volumeRowId record).upsertAll volumeRowId records).table _ = _
    rw [ih, table_upsert_of_ne projection volumeRowId record differs]

@[simp] theorem upsertAll_evictedVolumes (volumeRowId : VolumeRowId) (records : List EntryRecord) :
    (projection.upsertAll volumeRowId records).evictedVolumes = projection.evictedVolumes := by
  induction records generalizing projection with
  | nil => rfl
  | cons record records ih => exact ih (projection.upsert volumeRowId record)

@[simp] theorem removeBatch_evictedVolumes (volumeRowId : VolumeRowId)
    (frns : List FileId) (keep : Bool) :
    (projection.removeBatch volumeRowId frns keep).evictedVolumes = projection.evictedVolumes := by
  unfold removeBatch
  split_ifs <;> rfl

theorem table_discardVolume_self (volumeRowId : VolumeRowId) :
    (projection.discardVolume volumeRowId).table volumeRowId = fun _ => none := by
  show (projection.dropResident volumeRowId).table volumeRowId = _
  unfold dropResident
  split_ifs with present
  · rw [table_compactStorage, table_removeVolume_self]
  · funext id
    by_contra resident
    refine present (.inl (List.ne_nil_of_mem (a := ⟨volumeRowId, id⟩) ?_))
    rw [mem_volumeKeys, Option.isSome_iff_ne_none]
    exact ⟨rfl, fun absent => resident (congrArg (Option.map _) absent)⟩

theorem table_discardVolume_of_ne {volumeRowId other : VolumeRowId}
    (differs : other ≠ volumeRowId) :
    (projection.discardVolume volumeRowId).table other = projection.table other := by
  show (projection.dropResident volumeRowId).table other = _
  unfold dropResident
  split_ifs
  · rw [table_compactStorage]
    exact table_removeBatch_of_ne projection volumeRowId _ _ differs
  · rfl

theorem discardVolume_evictedVolumes (volumeRowId : VolumeRowId) :
    (projection.discardVolume volumeRowId).evictedVolumes =
      projection.evictedVolumes.erase volumeRowId := by
  show (projection.dropResident volumeRowId).evictedVolumes.erase volumeRowId = _
  unfold dropResident
  split_ifs
  · show (projection.removeVolume volumeRowId false).evictedVolumes.erase volumeRowId = _
    rw [removeVolume, removeBatch_evictedVolumes]
  · rfl

theorem table_compactEntriesForIterationOrder :
    projection.compactEntriesForIterationOrder.table = projection.table := by
  funext other id
  exact congrArg (Option.map _)
    (find_compactEntriesForIterationOrder projection.wellFormed ⟨other, id⟩)

variable (volumeRowId : VolumeRowId) (stored : List EntryRecord) (reload : Reload)

/-- A rebuild up to the memory policy. -/
def rebuilt : Projection :=
  (projection.rebuildVolumeFromStore volumeRowId stored { reload with evictions := [] }).1

/-- The policy runs last. -/
theorem rebuildVolumeFromStore_eq :
    (projection.rebuildVolumeFromStore volumeRowId stored reload).1 =
      ((projection.rebuilt volumeRowId stored reload).enforceMemoryLimit reload.evictions).1 := by
  unfold rebuilt rebuildVolumeFromStore
  show _ = ((if reload.complete = true then _ else _ : Projection × Bool).1.enforceMemoryLimit _).1
  split_ifs <;> rfl

theorem table_rebuilt_of_ne {other : VolumeRowId} (differs : other ≠ volumeRowId) :
    (projection.rebuilt volumeRowId stored reload).table other = projection.table other := by
  unfold rebuilt rebuildVolumeFromStore
  split_ifs
  · show ((projection.discardVolume volumeRowId).upsertAll volumeRowId
      stored).compactEntriesForIterationOrder.table other = _
    rw [table_compactEntriesForIterationOrder, table_upsertAll_of_ne _ _ _ differs,
      table_discardVolume_of_ne _ differs]
  · show (compactStorage _).table other = _
    rw [table_compactStorage, removeVolume, table_removeBatch_of_ne _ _ _ _ differs,
      table_upsertAll_of_ne _ _ _ differs, table_discardVolume_of_ne _ differs]

theorem needsReload_rebuilt_of_ne {other : VolumeRowId} (differs : other ≠ volumeRowId) :
    (projection.rebuilt volumeRowId stored reload).needsReload other = projection.needsReload other := by
  unfold rebuilt rebuildVolumeFromStore
  split_ifs
  · show decide (other ∈ ((projection.discardVolume volumeRowId).upsertAll volumeRowId
      stored).evictedVolumes) = _
    rw [upsertAll_evictedVolumes, discardVolume_evictedVolumes]
    simp [needsReload, differs]
  · show decide (other ∈ insert volumeRowId (Projection.evictedVolumes (removeVolume _ _ _))) = _
    rw [removeVolume, removeBatch_evictedVolumes,
      upsertAll_evictedVolumes, discardVolume_evictedVolumes]
    simp [needsReload, differs]

/-- A stream that arrives and fits is kept whole. -/
theorem rebuilt_of_complete (complete : reload.complete = true) :
    (projection.rebuilt volumeRowId stored reload).needsReload volumeRowId = false ∧
      (projection.rebuilt volumeRowId stored reload).table volumeRowId =
        Table.insertAll (fun _ => none) stored := by
  unfold rebuilt rebuildVolumeFromStore
  rw [if_pos (show Reload.complete { reload with evictions := [] } = true from complete)]
  let streamed := (projection.discardVolume volumeRowId).upsertAll volumeRowId stored
  constructor
  · show decide (volumeRowId ∈ streamed.evictedVolumes) = _
    simp [streamed, discardVolume_evictedVolumes]
  · show streamed.compactEntriesForIterationOrder.table volumeRowId = _
    rw [table_compactEntriesForIterationOrder, table_upsertAll_self, table_discardVolume_self]

/-- One that does not is undone. -/
theorem rebuilt_of_abandoned (abandoned : reload.complete = false) :
    (projection.rebuilt volumeRowId stored reload).needsReload volumeRowId = true ∧
      (projection.rebuilt volumeRowId stored reload).table volumeRowId = fun _ => none := by
  unfold rebuilt rebuildVolumeFromStore
  rw [if_neg (show ¬ Reload.complete { reload with evictions := [] } = true from
    Bool.eq_false_iff.mp abandoned)]
  refine ⟨decide_eq_true (Finset.mem_insert_self _ _), ?_⟩
  show (compactStorage _).table volumeRowId = _
  rw [table_compactStorage, table_removeVolume_self]

/-- **A rebuilt volume that is not cold has the stored rows; the others are as after the
memory policy.** -/
theorem rebuildVolumeFromStore_spec
    (hot : (projection.rebuildVolumeFromStore volumeRowId stored reload).1.needsReload other =
      false) :
    (other = volumeRowId →
      (projection.rebuildVolumeFromStore volumeRowId stored reload).1.table other =
        Table.insertAll (fun _ => none) stored) ∧
    (other ≠ volumeRowId → projection.needsReload other = false ∧
      (projection.rebuildVolumeFromStore volumeRowId stored reload).1.table other =
        projection.table other) := by
  rw [rebuildVolumeFromStore_eq] at hot ⊢
  obtain ⟨before, same⟩ := keeps_enforceMemoryLimit _ reload.evictions other hot
  rw [same]
  refine ⟨?_, fun differs => ?_⟩
  · rintro rfl
    cases complete : reload.complete with
    | true => exact (rebuilt_of_complete projection other stored reload complete).2
    | false =>
      rw [(rebuilt_of_abandoned projection other stored reload complete).1] at before
      cases before
  · rw [needsReload_rebuilt_of_ne _ _ _ _ differs] at before
    exact ⟨before, table_rebuilt_of_ne _ _ _ _ differs⟩

end

end Projection

end FastFiles.Index
