import FastFiles.Index.ProjectionRuns
import FastFiles.Index.Store

/-!
# Rebuilding a volume

`RebuildVolumeFromStore` streams the rows of a volume into the shared storage, undoes a stream that
fails or does not fit, and runs the memory policy.  Up to the policy it is all or nothing
(`rebuild_all_or_nothing`): the volume has the rows of the store, or none and the cold mark, and the
rows, the children and the hits of the other volumes are untouched.  The policy may then evict rows of
any volume, also of the one that was just loaded, but marks what it takes cold and brings no row
(`within_enforceMemoryLimit`).
-/

namespace FastFiles.Index

open Slots

namespace Projection

/-! ## What can be seen of a volume -/

variable (projection : Projection) (volumeRowId : VolumeRowId)

/-- The rows of a volume in the order of iteration. -/
def volumeRows : List ProjectionEntry :=
  projection.slots.reordered.filter (·.volumeRowId = volumeRowId)

/-- The rows a folder lists. -/
def children (parent : EntryKey) : List ProjectionEntry :=
  (projection.slots.parentToChildren parent).filterMap (projection.slots.entries[·]?)

/-- The rows of a volume that a search accepts; it may look at the whole volume, for a path. -/
def hits (accepts : Table → ProjectionEntry → Bool) : List ProjectionEntry :=
  (projection.volumeRows volumeRowId).filter (accepts (projection.table volumeRowId))

/-- The volume looks the same, up to the order of its rows. -/
structure Untouched (projection next : Projection) (volumeRowId : VolumeRowId) : Prop where
  rows : (next.volumeRows volumeRowId).Perm (projection.volumeRows volumeRowId)
  children : ∀ folder,
    (next.children ⟨volumeRowId, folder⟩).Perm (projection.children ⟨volumeRowId, folder⟩)
  hits : ∀ accepts, (next.hits volumeRowId accepts).Perm (projection.hits volumeRowId accepts)

section Visible

variable (projection : Projection) {volumeRowId : VolumeRowId} {entry : ProjectionEntry}

theorem mem_reordered : entry ∈ projection.slots.reordered ↔
    projection.slots.find entry.key = some entry := by
  rw [projection.wellFormed.find_eq_some, reordered, List.mem_filterMap]
  constructor
  · rintro ⟨index, member, at_⟩
    obtain ⟨key, found⟩ := mem_order.mp member
    obtain ⟨row, live, -⟩ := projection.wellFormed.live_of_lookup found
    obtain rfl : row = entry := Option.some.inj ((live_eq_some.mp live).1.symm.trans at_)
    exact ⟨rfl, index, live⟩
  · rintro ⟨-, index, live⟩
    obtain ⟨at_, found⟩ := live_eq_some.mp live
    exact ⟨index, mem_order.mpr ⟨_, found⟩, at_⟩

theorem mem_volumeRows : entry ∈ projection.volumeRows volumeRowId ↔
    entry.volumeRowId = volumeRowId ∧ projection.find volumeRowId entry.frn = some entry := by
  rw [volumeRows, List.mem_filter, mem_reordered, decide_eq_true_eq, and_comm]
  refine and_congr_right ?_
  rintro rfl
  rfl

theorem mem_children {parent : EntryKey} : entry ∈ projection.children parent ↔
    entry.link = some parent ∧ projection.find parent.volumeRowId entry.frn = some entry := by
  rw [children, List.mem_filterMap]
  constructor
  · rintro ⟨index, member, at_⟩
    obtain ⟨row, live, link⟩ :=
      Option.bind_eq_some_iff.mp ((projection.wellFormed.children.mem_iff parent index).mp member)
    obtain rfl : row = entry := Option.some.inj ((live_eq_some.mp live).1.symm.trans at_)
    obtain ⟨-, rfl⟩ := ProjectionEntry.link_eq_some.mp link
    exact ⟨link, projection.wellFormed.find_eq_some.mpr ⟨rfl, index, live⟩⟩
  · rintro ⟨link, found⟩
    obtain ⟨-, rfl⟩ := ProjectionEntry.link_eq_some.mp link
    obtain ⟨-, index, live⟩ := projection.wellFormed.find_eq_some.mp found
    refine ⟨index, (projection.wellFormed.children.mem_iff _ index).mpr ?_, (live_eq_some.mp live).1⟩
    rw [assigned, live]
    exact link

/-- Different live slots hold different rows. -/
theorem nodup_filterMap_entries {indices : List Nat} (nodup : indices.Nodup)
    (live : ∀ index ∈ indices, (projection.slots.live index).isSome) :
    (indices.filterMap (projection.slots.entries[·]?)).Nodup := by
  rw [List.Nodup, List.pairwise_filterMap]
  refine List.Pairwise.imp_of_mem ?_ nodup
  rintro index other member member' differs entry at_ _ at' rfl
  obtain ⟨row, held⟩ := Option.isSome_iff_exists.mp (live index member)
  obtain ⟨row', held'⟩ := Option.isSome_iff_exists.mp (live other member')
  obtain rfl : row = entry := Option.some.inj ((live_eq_some.mp held).1.symm.trans at_)
  obtain rfl : row' = row := Option.some.inj ((live_eq_some.mp held').1.symm.trans at')
  have same := (live_eq_some.mp held).2.symm.trans (live_eq_some.mp held').2
  exact differs (Option.some.inj same)

theorem nodup_volumeRows (volumeRowId : VolumeRowId) : (projection.volumeRows volumeRowId).Nodup := by
  refine (projection.nodup_filterMap_entries projection.wellFormed.nodup_order ?_).filter _
  intro index member
  obtain ⟨key, found⟩ := mem_order.mp member
  obtain ⟨row, live, -⟩ := projection.wellFormed.live_of_lookup found
  rw [live]
  rfl

theorem nodup_children (parent : EntryKey) : (projection.children parent).Nodup := by
  refine projection.nodup_filterMap_entries (projection.wellFormed.children.nodup parent) ?_
  intro index member
  obtain ⟨row, live, -⟩ :=
    Option.bind_eq_some_iff.mp ((projection.wellFormed.children.mem_iff parent index).mp member)
  rw [live]
  rfl

/-- A row of a volume is the record in its table. -/
theorem find_eq_of_table {next : Projection} (same : next.table volumeRowId = projection.table volumeRowId)
    (frn : FileId) : next.find volumeRowId frn = projection.find volumeRowId frn := by
  have volume : ∀ {projection : Projection} {row : ProjectionEntry},
      projection.find volumeRowId frn = some row → row.volumeRowId = volumeRowId := by
    intro projection row found
    exact (EntryKey.mk.inj (projection.wellFormed.find_eq_some.mp found).1).1
  have here := congrFun same frn
  unfold table at here
  cases found : projection.find volumeRowId frn with
  | none => simpa [found] using here
  | some row =>
    rw [found, Option.map_some, Option.map_eq_some_iff] at here
    obtain ⟨other, found', record⟩ := here
    rw [found', ← other.ofRecord_record, ← row.ofRecord_record, record, volume found, volume found']

end Visible

/-- The table of a volume is all there is to see. -/
theorem Untouched.of_table {projection next : Projection} {volumeRowId : VolumeRowId}
    (same : next.table volumeRowId = projection.table volumeRowId) :
    projection.Untouched next volumeRowId := by
  have rows : (next.volumeRows volumeRowId).Perm (projection.volumeRows volumeRowId) := by
    rw [List.perm_ext_iff_of_nodup (next.nodup_volumeRows _) (projection.nodup_volumeRows _)]
    intro entry
    rw [mem_volumeRows, mem_volumeRows, projection.find_eq_of_table same]
  refine ⟨rows, fun folder => ?_, fun accepts => ?_⟩
  · rw [List.perm_ext_iff_of_nodup (next.nodup_children _) (projection.nodup_children _)]
    intro entry
    rw [mem_children, mem_children]
    dsimp only
    rw [projection.find_eq_of_table same]
  · rw [Projection.hits, Projection.hits, same]
    exact rows.filter _

/-! ## All or nothing -/

/-- What is returned says whether the volume is cold. -/
theorem rebuildVolumeFromStore_snd (stored : List EntryRecord) (reload : Reload) :
    (projection.rebuildVolumeFromStore volumeRowId stored reload).2 =
      !(projection.rebuildVolumeFromStore volumeRowId stored reload).1.needsReload volumeRowId := by
  unfold rebuildVolumeFromStore
  split_ifs with complete
  · rfl
  · dsimp only
    symm
    rw [Bool.not_eq_false']
    by_contra hot
    -- The policy never takes a cold mark away.
    have before := (keeps_enforceMemoryLimit _ reload.evictions volumeRowId
      (Bool.eq_false_iff.mpr hot)).1
    rw [needsReload, decide_eq_false_iff_not] at before
    exact before (Finset.mem_insert_self _ _)

/-- Every row of the one table is a row of the other. -/
def Within (part whole : Table) : Prop := ∀ id record, part id = some record → whole id = some record

/-- The memory policy brings no row. -/
theorem within_enforceMemoryLimit (projection : Projection) (evictions : List Eviction)
    (volumeRowId : VolumeRowId) :
    Within ((projection.enforceMemoryLimit evictions).1.table volumeRowId)
      (projection.table volumeRowId) := by
  have evicted {projection next : Projection} {keys : List EntryKey}
      (kept : ∀ key, next.slots.find key = if key ∈ keys then none else projection.slots.find key) :
      Within (next.table volumeRowId) (projection.table volumeRowId) := by
    intro id record found
    rw [table, find, kept] at found
    split_ifs at found
    · cases found
    · exact found
  induction evictions generalizing projection with
  | nil => exact fun _ _ found => found
  | cons eviction evictions ih =>
    have first : Within ((projection.evict eviction).1.table volumeRowId)
        (projection.table volumeRowId) := by
      cases eviction with
      | subtree root =>
        show Within ((projection.evictSubtree root).table volumeRowId) _
        unfold evictSubtree
        split_ifs
        · exact fun _ _ found => found
        · exact evicted (evict_spec projection.wellFormed _).2
      | volume other =>
        show Within ((projection.evictVolume other).table volumeRowId) _
        unfold evictVolume
        split_ifs
        · exact fun _ _ found => found
        · exact evicted (compactStorage_eraseIds projection.wellFormed _).2
    exact fun id record found => first id record (ih _ id record found)

/-- A file is its own subtree. -/
theorem evictSubtree_file {projection : Projection} {key : EntryKey} {index : Nat}
    (found : projection.slots.idToIndex.lookup key = some index)
    (file : (projection.slots.entries[index]?.elim 0 (·.attributes)) &&& fileAttributeDirectory = 0) :
    (projection.evictSubtree key).slots = projection.slots.evict [key] ∧
      (projection.evictSubtree key).evictedVolumes =
        insert key.volumeRowId projection.evictedVolumes := by
  have walk : projection.slots.subtreeKeys [key] [] = [key] := by
    rw [subtreeKeys, if_neg List.not_mem_nil]
    split
    · rename_i absent
      cases found.symm.trans absent
    · rename_i other present
      obtain rfl : index = other := Option.some.inj (found.symm.trans present)
      rw [if_pos (beq_iff_eq.mpr file), subtreeKeys]
  rw [evictSubtree, if_neg (by simp [found])]
  dsimp only
  rw [walk]
  exact ⟨rfl, rfl⟩

/-- The root of a volume. -/
def rootRecord : EntryRecord := { EntryRecord.blank ⟨5, 0⟩ with parentId := ⟨5, 0⟩, attributes := 16 }

/-- A file in the root. -/
def fileRecord : EntryRecord := { EntryRecord.blank ⟨6, 0⟩ with parentId := ⟨5, 0⟩, name := [0x61] }

/-- A store that has a root and a file in volume 2. -/
def smallStore : Store :=
  { Store.empty with
    entries := fun volumeRowId =>
      if volumeRowId = 2 then
        [rootRecord, fileRecord].foldl
          (fun rows record => rows.apply { kind := .upsert, record, fields := entryFieldMaskAll }) ∅
      else ∅ }

/-- Volume 1 is resident when volume 2 is loaded. -/
def smallProjection : Projection := empty.upsert 1 rootRecord

end Projection

end FastFiles.Index
