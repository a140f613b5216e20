import FastFiles.Index.Projection

/-!
# Runs of the projection

Any sequence of the projection's operations.  `Projection` carries `Slots.WellFormed`, which says
that a slot on the free list is not live; that every other slot is live (`Slots.Tight`) is kept by
each operation as well, and the two give the structure of the storage after every run
(`sound_of_run`).
-/

namespace FastFiles.Index

open Projection

/-! ## Operations -/

inductive ProjectionAction
  | upsert (volumeRowId : VolumeRowId) (record : EntryRecord)
  | upsertPartial (volumeRowId : VolumeRowId) (record : EntryRecord) (fields : EntryFieldMask)
  | remove (volumeRowId : VolumeRowId) (frn : FileId)
  | removeBatch (volumeRowId : VolumeRowId) (frns : List FileId) (keepFilenameIndexCurrent : Bool)
  | removeVolume (volumeRowId : VolumeRowId) (keepFilenameIndexCurrent : Bool)
  /-- An eviction, with the compaction that follows it. -/
  | evict (eviction : Eviction)
  /-- The passes of the memory policy, or of an explicit limit. -/
  | enforceMemoryLimit (evictions : List Eviction)
  | compactStorage
  | rebuildVolumeFromStore (volumeRowId : VolumeRowId) (stored : List EntryRecord)
      (reload : Reload)
  | setBulkScanActive (active : Bool)

namespace Projection

def perform (projection : Projection) : ProjectionAction → Projection
  | .upsert volumeRowId record => projection.upsert volumeRowId record
  | .upsertPartial volumeRowId record fields => projection.upsertPartial volumeRowId record fields
  | .remove volumeRowId frn => projection.remove volumeRowId frn
  | .removeBatch volumeRowId frns keep => projection.removeBatch volumeRowId frns keep
  | .removeVolume volumeRowId keep => projection.removeVolume volumeRowId keep
  | .evict eviction => (projection.evict eviction).1
  | .enforceMemoryLimit evictions => (projection.enforceMemoryLimit evictions).1
  | .compactStorage => projection.compactStorage
  | .rebuildVolumeFromStore volumeRowId stored reload =>
    (projection.rebuildVolumeFromStore volumeRowId stored reload).1
  | .setBulkScanActive active => projection.setBulkScanActive active

def run (projection : Projection) (actions : List ProjectionAction) : Projection :=
  actions.foldl perform projection

end Projection

/-! ## No slot is lost -/

namespace Slots

variable {slots : Slots}

theorem Tight.removeAll (tight : slots.Tight) (wf : slots.WellFormed)
    (keys : List EntryKey) : (slots.removeAll keys).Tight := by
  induction keys generalizing slots with
  | nil => exact tight
  | cons key keys ih =>
    exact ih (tight.remove wf key.volumeRowId key.frn) (wf.remove key.volumeRowId key.frn)

theorem tight_compactStorage (occupied : ∀ key index, slots.idToIndex.lookup key = some index →
      ∃ entry, slots.entries[index]? = some entry ∧ entry.key = key) :
    slots.compactStorage.Tight :=
  tight_of_full (full_compactStorage occupied)

theorem occupied_eraseIds (wf : slots.WellFormed) (keys : List EntryKey)
    (key : EntryKey) (index : Nat) (found : (slots.eraseIds keys).idToIndex.lookup key = some index) :
    ∃ entry, (slots.eraseIds keys).entries[index]? = some entry ∧ entry.key = key := by
  rw [lookup_eraseIds] at found
  split_ifs at found
  exact wf.occupied key index found

theorem tight_evict (wf : slots.WellFormed) (keys : List EntryKey) : (slots.evict keys).Tight := by
  unfold evict
  split_ifs
  · exact tight_compactStorage (occupied_eraseIds wf keys)
  · exact tight_compactStorage (wf.removeAll _).occupied

end Slots

namespace Projection

def Tight (projection : Projection) : Prop := projection.slots.Tight

variable {projection : Projection}

section

variable (tight : projection.Tight) (volumeRowId : VolumeRowId)

include tight

theorem Tight.upsert (record : EntryRecord) : (projection.upsert volumeRowId record).Tight :=
  Slots.Tight.upsert tight projection.wellFormed volumeRowId record

theorem Tight.upsertAll (records : List EntryRecord) :
    (projection.upsertAll volumeRowId records).Tight := by
  induction records generalizing projection with
  | nil => exact tight
  | cons record records ih => exact ih (tight.upsert volumeRowId record)

theorem Tight.removeBatch (frns : List FileId) (keep : Bool) :
    (projection.removeBatch volumeRowId frns keep).Tight := by
  unfold Projection.removeBatch
  split_ifs
  · exact tight
  · exact Slots.Tight.removeAll tight projection.wellFormed _

end

theorem tight_compactStorage (projection : Projection) : projection.compactStorage.Tight :=
  Slots.tight_compactStorage projection.wellFormed.occupied

section

variable (tight : projection.Tight)

include tight

theorem Tight.evict (eviction : Eviction) :
    (projection.evict eviction).1.Tight := by
  cases eviction with
  | subtree root =>
    show (projection.evictSubtree root).Tight
    unfold evictSubtree
    split_ifs
    · exact tight
    · exact Slots.tight_evict projection.wellFormed _
  | volume volumeRowId =>
    show (projection.evictVolume volumeRowId).Tight
    unfold evictVolume
    split_ifs
    · exact tight
    · exact Slots.tight_compactStorage (Slots.occupied_eraseIds projection.wellFormed _)

theorem Tight.enforceMemoryLimit (evictions : List Eviction) :
    (projection.enforceMemoryLimit evictions).1.Tight := by
  induction evictions generalizing projection with
  | nil => exact tight
  | cons eviction evictions ih => exact ih (tight.evict eviction)

theorem Tight.discardVolume (volumeRowId : VolumeRowId) :
    (projection.discardVolume volumeRowId).Tight := by
  show (projection.dropResident volumeRowId).Tight
  unfold dropResident
  split_ifs
  · exact tight_compactStorage _
  · exact tight

theorem Tight.rebuildVolumeFromStore (volumeRowId : VolumeRowId)
    (stored : List EntryRecord) (reload : Reload) :
    (projection.rebuildVolumeFromStore volumeRowId stored reload).1.Tight := by
  unfold Projection.rebuildVolumeFromStore
  split_ifs
  · have streamed := (tight.discardVolume volumeRowId).upsertAll volumeRowId stored
    refine Tight.enforceMemoryLimit ?_ reload.evictions
    exact Slots.Tight.compactEntriesForIterationOrder streamed (wellFormed _)
  · refine Tight.enforceMemoryLimit ?_ reload.evictions
    exact Slots.tight_compactStorage (wellFormed _).occupied

theorem Tight.perform (action : ProjectionAction) :
    (projection.perform action).Tight := by
  cases action with
  | upsert volumeRowId record => exact tight.upsert volumeRowId record
  | upsertPartial volumeRowId record fields =>
    show (projection.upsertPartial volumeRowId record fields).Tight
    unfold upsertPartial
    split_ifs
    · exact tight.upsert volumeRowId record
    · exact tight.upsert volumeRowId _
  | remove volumeRowId frn => exact Slots.Tight.remove tight projection.wellFormed volumeRowId frn
  | removeBatch volumeRowId frns keep => exact tight.removeBatch volumeRowId frns keep
  | removeVolume volumeRowId keep => exact tight.removeBatch volumeRowId _ keep
  | evict eviction => exact tight.evict eviction
  | enforceMemoryLimit evictions => exact tight.enforceMemoryLimit evictions
  | compactStorage => exact tight_compactStorage projection
  | rebuildVolumeFromStore volumeRowId stored reload =>
    exact tight.rebuildVolumeFromStore volumeRowId stored reload
  | setBulkScanActive active => exact tight

theorem Tight.run (actions : List ProjectionAction) :
    (projection.run actions).Tight := by
  induction actions generalizing projection with
  | nil => exact tight
  | cons action actions ih => exact ih (tight.perform action)

end

end Projection

/-! ## The structure of the storage -/

/-- A row in the array that its own key points to. -/
def Slots.Holds (slots : Slots) (index : Nat) (entry : ProjectionEntry) : Prop :=
  slots.entries[index]? = some entry ∧ slots.idToIndex.lookup entry.key = some index

/-- The structures say the same of the rows. -/
structure Slots.Sound (slots : Slots) : Prop where
  /-- A key points to the row with that key. -/
  matching : ∀ key index, slots.idToIndex.lookup key = some index →
    ∃ entry, slots.Holds index entry ∧ entry.key = key
  /-- No two keys share a slot. -/
  injective : ∀ key other index, slots.idToIndex.lookup key = some index →
    slots.idToIndex.lookup other = some index → key = other
  /-- A slot that no key points to is free, and no other is. -/
  free_iff : ∀ index, index ∈ slots.freeList ↔
    index < slots.entries.length ∧ ∀ key, slots.idToIndex.lookup key ≠ some index
  free_nodup : slots.freeList.Nodup
  /-- The children of a folder are the rows under it, the root not under itself. -/
  children_iff : ∀ parent index, index ∈ slots.parentToChildren parent ↔
    ∃ entry, slots.Holds index entry ∧ entry.parentFrn ≠ entry.frn ∧
      parent = ⟨entry.volumeRowId, entry.parentFrn⟩
  children_nodup : ∀ parent, (slots.parentToChildren parent).Nodup
  /-- A dense array has the rows and nothing else. -/
  dense : slots.denseIterationOrderValid = true →
    slots.freeList = [] ∧ ∀ index < slots.entries.length, ∃ entry, slots.Holds index entry

theorem Slots.WellFormed.live_eq_none_iff {slots : Slots} (wf : slots.WellFormed) {index : Nat} :
    slots.live index = none ↔ ∀ key, slots.idToIndex.lookup key ≠ some index := by
  constructor
  · intro dead key found
    obtain ⟨entry, live, -⟩ := wf.live_of_lookup found
    cases dead.symm.trans live
  · intro unused
    by_contra live
    obtain ⟨entry, live⟩ := Option.ne_none_iff_exists'.mp live
    exact unused entry.key (Slots.live_eq_some.mp live).2

theorem ProjectionEntry.link_eq_some {entry : ProjectionEntry} {parent : EntryKey} :
    entry.link = some parent ↔
      entry.parentFrn ≠ entry.frn ∧ parent = ⟨entry.volumeRowId, entry.parentFrn⟩ := by
  rw [link]
  split_ifs with root
  · exact iff_of_false (by simp) fun is => is.1 root
  · rw [Option.some.injEq, eq_comm]
    exact (and_iff_right root).symm

theorem Slots.Tight.sound {slots : Slots} (tight : slots.Tight) (wf : slots.WellFormed) :
    slots.Sound where
  matching key index found := by
    obtain ⟨entry, live, is⟩ := wf.live_of_lookup found
    exact ⟨entry, live_eq_some.mp live, is⟩
  injective _ _ _ found also := wf.key_unique found also
  free_iff index := by
    rw [← wf.live_eq_none_iff]
    exact ⟨wf.free index, fun dead => tight index dead.1 dead.2⟩
  free_nodup := wf.freeNodup
  children_iff parent index := by
    rw [wf.children.mem_iff, assigned, Option.bind_eq_some_iff]
    refine exists_congr fun entry => ?_
    rw [live_eq_some, ProjectionEntry.link_eq_some]
    rfl
  children_nodup := wf.children.nodup
  dense valid := by
    have full := wf.dense valid
    refine ⟨List.eq_nil_iff_forall_not_mem.mpr fun index free => ?_, fun index short => ?_⟩
    · obtain ⟨short, dead⟩ := wf.free index free
      have live := full index short
      rw [dead] at live
      cases live
    · obtain ⟨entry, live⟩ := Option.isSome_iff_exists.mp (full index short)
      exact ⟨entry, live_eq_some.mp live⟩

/-- **After every run of operations the structures of the projection agree.** -/
theorem Projection.sound_of_run (actions : List ProjectionAction) :
    (empty.run actions).slots.Sound := by
  have start : empty.Tight := Slots.tight_empty
  exact Slots.Tight.sound (start.run actions) (empty.run actions).wellFormed

end FastFiles.Index
