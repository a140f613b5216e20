import FastFiles.Index.NamePool
import FastFiles.Index.Renaming

/-!
# The projection with its pool of names

In `Projection.cpp` a row holds a `NameId`, and the names are in a `NamePool`.  An upsert interns the
name of its record, a partial one without a name interns the name it reads back from the row, and
`CompactStorage` interns the names of the rows it keeps into a new pool.  Everything else copies ids.

Ids and offsets have 32 bits and nothing checks that they suffice.  `Shows` relates a pooled
projection to one whose rows hold the names themselves: read through the pool its rows are the same,
and the arena has at most so many units.  Every action keeps it as long as the names that the action
interns leave the arena below 2³² units (`Shows.perform`), whatever was removed, evicted, compacted
or streamed again before.
-/

namespace FastFiles.Index

open NamePool

abbrev NameId := UInt32

structure PooledProjection where
  rows : Projection NameId
  pool : NamePool

/-! ## New ids for all rows -/

namespace Slots

/-- The rows with the ids of a list in the place of theirs. -/
def withIds (slots : Slots NameId) (ids : List NameId) : Slots NameId :=
  { slots with entries := List.zipWith (fun entry id => entry.rename fun _ => id) slots.entries ids }

variable {ν : Type} {slots : Slots NameId} {ids : List NameId}

theorem rename_withIds {f g : NameId → ν}
    (same : ids.map f = slots.entries.map fun entry => g entry.name) :
    (slots.withIds ids).rename f = slots.rename g := by
  have rows : ∀ (entries : List (ProjectionEntry NameId)) (ids : List NameId),
      (ids.map f = entries.map fun entry => g entry.name) →
        (List.zipWith (fun entry id => entry.rename fun _ => id) entries ids).map (·.rename f) =
          entries.map (·.rename g) := by
    intro entries
    induction entries with
    | nil => exact fun _ _ => rfl
    | cons entry entries ih =>
      intro ids same
      cases ids with
      | nil => cases same
      | cons id ids =>
        obtain ⟨head, tail⟩ := List.cons.inj same
        rw [List.zipWith_cons_cons, List.map_cons, List.map_cons, ih ids tail]
        simp only [ProjectionEntry.rename, head]
  show Slots.mk _ _ _ _ _ = Slots.mk _ _ _ _ _
  rw [withIds, rows slots.entries ids same]

theorem WellFormed.withIds (wf : slots.WellFormed) (length : ids.length = slots.entries.length) :
    (slots.withIds ids).WellFormed :=
  wf.of_unnamed (rename_withIds (by simp [length]))

end Slots

namespace PooledProjection

def empty : PooledProjection := ⟨.empty, {}⟩

variable (projection : PooledProjection) (volumeRowId : VolumeRowId)

/-- The rows as they are read: with the names that the pool gives back. -/
def view : Projection := projection.rows.rename projection.pool.get

/-- What is done to the rows alone. -/
def onRows (f : Projection NameId → Projection NameId) : PooledProjection :=
  { projection with rows := f projection.rows }

/-- The names of the rows, in order. -/
def names : List Text :=
  projection.rows.slots.entries.map fun entry => projection.pool.get entry.name

theorem length_names_internAll :
    (internAll projection.names).2.length = projection.rows.slots.entries.length := by
  have returned : ∀ names : List Text, (internAll names).2.length = names.length := by
    intro names
    induction names using List.reverseRecOn with
    | nil => rfl
    | append_singleton names name ih =>
      rw [internAll_concat, List.length_append, List.length_append]
      exact congrArg (· + 1) ih
  rw [returned, names, List.length_map]

/-- The rows move to a pool of their own. -/
def reintern : PooledProjection where
  rows := { projection.rows with
    slots := projection.rows.slots.withIds (internAll projection.names).2
    wellFormed := projection.rows.wellFormed.withIds projection.length_names_internAll }
  pool := (internAll projection.names).1

/-! ## The operations -/

def upsert (record : EntryRecord) : PooledProjection where
  rows := projection.rows.upsert volumeRowId
    (record.rename fun _ => (projection.pool.intern record.name).2)
  pool := (projection.pool.intern record.name).1

def upsertPartial (record : EntryRecord) (fields : EntryFieldMask) : PooledProjection :=
  if fields = entryFieldMaskAll then projection.upsert volumeRowId record
  else
    projection.upsert volumeRowId
      (Projection.mergePartial (projection.view.find volumeRowId record.id) record fields)

def compactStorage : PooledProjection :=
  (projection.onRows Projection.compactStorage).reintern

/-- A victim goes, and what is left is compacted. -/
def evict (eviction : Projection.Eviction) : PooledProjection :=
  if (projection.rows.evict eviction).2 then
    (projection.onRows fun rows => (rows.evict eviction).1).reintern
  else projection

def enforceMemoryLimit (evictions : List Projection.Eviction) : PooledProjection :=
  evictions.foldl evict projection

def dropResident : PooledProjection :=
  if projection.rows.volumeKeys volumeRowId ≠ [] ∨ projection.rows.needsReload volumeRowId then
    (projection.onRows (·.removeVolume volumeRowId false)).compactStorage
  else projection

def upsertAll (records : List EntryRecord) : PooledProjection :=
  records.foldl (fun projection record => projection.upsert volumeRowId record) projection

end PooledProjection

namespace Projection

variable {ν : Type} (projection : Projection ν) (volumeRowId : VolumeRowId)

/-- The marks a rebuild sets before it streams the rows. -/
def awaitRows : Projection ν :=
  { projection with
    slots := { projection.slots with denseIterationOrderValid := false }
    evictedVolumes := projection.evictedVolumes.erase volumeRowId
    filenameIndexValid := false
    wellFormed := { projection.wellFormed with dense := nofun } }

/-- The order and the marks it sets when all rows have come. -/
def acceptRows : Projection ν :=
  let ordered := projection.compactEntriesForIterationOrder
  { ordered with filenameIndexValid := ordered.filenameIndexValid || !ordered.bulkScanActive }

def markCold : Projection ν :=
  { projection with evictedVolumes := insert volumeRowId projection.evictedVolumes }

end Projection

namespace PooledProjection

variable (projection : PooledProjection) (volumeRowId : VolumeRowId)

def discardVolume : PooledProjection :=
  (projection.dropResident volumeRowId).onRows (·.awaitRows volumeRowId)

def rebuildVolumeFromStore (stored : List EntryRecord) (reload : Projection.Reload) :
    PooledProjection :=
  let discarded := projection.discardVolume volumeRowId
  if reload.complete then
    ((discarded.upsertAll volumeRowId stored).onRows
      Projection.acceptRows).enforceMemoryLimit reload.evictions
  else
    let streamed := discarded.upsertAll volumeRowId
      (stored.take (reload.stopsAfter.getD stored.length))
    let removed := (streamed.onRows (·.removeVolume volumeRowId false)).compactStorage
    (removed.onRows (·.markCold volumeRowId)).enforceMemoryLimit reload.evictions

def perform : ProjectionAction → PooledProjection
  | .upsert volumeRowId record => projection.upsert volumeRowId record
  | .upsertPartial volumeRowId record fields => projection.upsertPartial volumeRowId record fields
  | .remove volumeRowId frn => projection.onRows (·.remove volumeRowId frn)
  | .removeBatch volumeRowId frns keep => projection.onRows (·.removeBatch volumeRowId frns keep)
  | .removeVolume volumeRowId keep => projection.onRows (·.removeVolume volumeRowId keep)
  | .evict eviction => projection.evict eviction
  | .enforceMemoryLimit evictions => projection.enforceMemoryLimit evictions
  | .compactStorage => projection.compactStorage
  | .rebuildVolumeFromStore volumeRowId stored reload =>
    projection.rebuildVolumeFromStore volumeRowId stored reload
  | .setBulkScanActive active => projection.onRows (·.setBulkScanActive active)

def run (projection : PooledProjection) (actions : List ProjectionAction) : PooledProjection :=
  actions.foldl perform projection

end PooledProjection

/-- The units of the names that an action interns at most. -/
def ProjectionAction.units : ProjectionAction → Nat
  | .upsert _ record | .upsertPartial _ record _ => record.name.length
  | .rebuildVolumeFromStore _ stored _ => (stored.map (·.name.length)).sum
  | _ => 0

/-! ## What a pooled projection shows -/

/-- Read through the pool the rows are those of `exact`, and the arena has at most so many units. -/
structure Shows (projection : PooledProjection) (exact : Projection) (units : Nat) : Prop where
  stored : ∃ stored, Stores projection.pool stored ∧
    ∀ entry ∈ projection.rows.slots.entries, entry.name.toNat < stored.length
  view : projection.view = exact
  arena : projection.pool.arena.length ≤ units
  room : units < 2 ^ 32

/-- That the ids of all rows are below a bound is an equation of two renamings. -/
theorem below_iff {rows : Projection NameId} (bound : Nat) :
    (∀ entry ∈ rows.slots.entries, entry.name.toNat < bound) ↔
      rows.rename (fun id => decide (id.toNat < bound)) = rows.rename fun _ => true := by
  rw [← rows.slots.forall_name_iff (p := fun id => id.toNat < bound)]
  exact ⟨fun same => Projection.ext same rfl rfl rfl, congrArg Projection.slots⟩

namespace Shows

variable {projection : PooledProjection} {exact : Projection} {units : Nat}

theorem empty : Shows .empty .empty 0 where
  stored := ⟨[], stores_empty, by simp [PooledProjection.empty, Projection.empty, Slots.empty]⟩
  view := rfl
  arena := le_rfl
  room := by decide

variable (shows_ : Shows projection exact units)

include shows_

theorem mono {more : Nat} (le : units ≤ more) (room : more < 2 ^ 32) :
    Shows projection exact more :=
  ⟨shows_.stored, shows_.view, shows_.arena.trans le, room⟩

/-- An operation that commutes with renaming shows the same names, and brings in no id. -/
theorem onRows (f : ∀ {ν : Type}, Projection ν → Projection ν)
    (natural : ∀ {μ : Type} (g : NameId → μ), (f projection.rows).rename g = f (projection.rows.rename g)) :
    Shows (projection.onRows f) (f exact) units := by
  obtain ⟨⟨stored, stores, valid⟩, view, arena, room⟩ := shows_
  refine ⟨⟨stored, stores, (below_iff _).mpr ?_⟩, ?_, arena, room⟩
  · show (f projection.rows).rename _ = (f projection.rows).rename _
    rw [natural, natural, (below_iff _).mp valid]
  · rw [← view]
    exact natural _

/-- **New ids for the rows show the same names**, and the new pool holds no other names. -/
theorem reintern : Shows projection.reintern exact units := by
  obtain ⟨⟨stored, stores, valid⟩, view, arena, room⟩ := shows_
  have within : projection.names ⊆ stored := by
    intro name mem
    obtain ⟨entry, here, rfl⟩ := List.mem_map.mp mem
    rw [stores.get_eq (List.getElem?_eq_getElem (valid entry here))]
    exact List.getElem_mem _
  have short : (stored.map List.length).sum < 2 ^ 32 :=
    stores.length_arena ▸ arena.trans_lt room
  obtain ⟨later, laterStores, listed, returned⟩ := internAll_spec within short
  have read : (internAll projection.names).2.map (internAll projection.names).1.get =
      projection.names := by
    rw [← List.forall₂_eq_eq_eq, List.forall₂_map_left_iff]
    exact returned.imp fun id name found => laterStores.get_eq found
  refine ⟨⟨later, laterStores, fun entry mem => ?_⟩, ?_, ?_, room⟩
  · obtain ⟨place, inside, is⟩ := List.mem_iff_getElem.mp mem
    have both : place < (internAll projection.names).2.length :=
      List.lt_length_right_of_zipWith inside
    have found := (List.forall₂_iff_get.mp returned).2 place both (returned.length_eq ▸ both)
    have name : entry.name = (internAll projection.names).2[place] := by
      rw [← is]
      exact congrArg ProjectionEntry.name (List.getElem_zipWith ..)
    rw [name]
    exact (List.getElem?_eq_some_iff.mp found).1
  · rw [← view]
    exact Projection.ext (Slots.rename_withIds read) rfl rfl rfl
  · refine (laterStores.length_arena_le (List.Subset.trans listed within)).trans ?_
    rw [← stores.length_arena]
    exact arena

/-- **A written name is shown** if there is room for it, or if a row has it already. -/
theorem upsert (volumeRowId : VolumeRowId) {record : EntryRecord} {more : Nat}
    (room : units + more < 2 ^ 32)
    (fits : record.name.length ≤ more ∨ ∃ volume frn entry,
      exact.find volume frn = some entry ∧ entry.name = record.name) :
    Shows (projection.upsert volumeRowId record) (exact.upsert volumeRowId record) (units + more) := by
  obtain ⟨⟨stored, stores, valid⟩, view, arena, -⟩ := shows_
  have here : record.name ∈ stored ∨ record.name.length ≤ more := by
    rcases fits with short | ⟨volume, frn, entry, found, same⟩
    · exact .inr short
    · left
      rw [← view, PooledProjection.view, Projection.find_rename, Option.map_eq_some_iff] at found
      obtain ⟨row, held, rfl⟩ := found
      obtain ⟨index, -, at_⟩ := Option.bind_eq_some_iff.mp held
      have short := valid row (List.mem_of_getElem? at_)
      rw [← same, show (row.rename projection.pool.get).name = projection.pool.get row.name from rfl,
        stores.get_eq (List.getElem?_eq_getElem short)]
      exact List.getElem_mem _
  obtain ⟨later, laterStores, ⟨new, rfl⟩, grown, found⟩ := @Stores.intern _ _ record.name stores
    (by omega) fun fresh => by have := here.resolve_left fresh; omega
  -- the ids of the rows give the same names in the longer pool
  have same : ∀ entry ∈ projection.rows.slots.entries,
      (projection.pool.intern record.name).1.get entry.name = projection.pool.get entry.name := by
    intro entry mem
    have at_ := List.getElem?_eq_getElem (valid entry mem)
    rw [stores.get_eq at_,
      laterStores.get_eq ((List.getElem?_append_left (valid entry mem)).trans at_)]
  refine ⟨⟨_, laterStores, (below_iff _).mpr ?_⟩, ?_, ?_, room⟩
  · have old := (below_iff (stored ++ new).length).mp fun entry mem =>
      (valid entry mem).trans_le (by simp)
    have here := (List.getElem?_eq_some_iff.mp found).1
    rw [PooledProjection.upsert, Projection.rename_upsert, Projection.rename_upsert, old]
    congr 1
    simp only [EntryRecord.rename, here, decide_true]
  · show (projection.rows.upsert volumeRowId _).rename (projection.pool.intern record.name).1.get = _
    rw [Projection.rename_upsert, projection.rows.rename_congr same, ← view]
    congr 1
    simp only [EntryRecord.rename, laterStores.get_eq found]
  · show (projection.pool.intern record.name).1.arena.length ≤ _
    rcases here with known | short
    · refine (laterStores.length_arena_le (List.Subset.trans grown
        (List.cons_subset.mpr ⟨known, List.Subset.refl stored⟩))).trans ?_
      rw [← stores.length_arena]
      omega
    · have longer := laterStores.length_arena_le grown
      rw [List.map_cons, List.sum_cons, ← stores.length_arena] at longer
      omega

theorem upsertPartial (volumeRowId : VolumeRowId) (record : EntryRecord) (fields : EntryFieldMask)
    (room : units + record.name.length < 2 ^ 32) :
    Shows (projection.upsertPartial volumeRowId record fields)
      (exact.upsertPartial volumeRowId record fields) (units + record.name.length) := by
  unfold PooledProjection.upsertPartial Projection.upsertPartial
  split_ifs
  · exact shows_.upsert volumeRowId room (.inl le_rfl)
  · rw [shows_.view]
    refine shows_.upsert volumeRowId room ?_
    show (Projection.partialField _ _ _ _ _ : Text).length ≤ _ ∨ _
    unfold Projection.partialField
    cases found : exact.find volumeRowId record.id with
    | none =>
      left
      split_ifs
      · exact le_rfl
      · exact Nat.zero_le _
    | some entry =>
      -- a row that keeps its name has it already
      by_cases named : hasEntryField fields entryFieldName = true
      · rw [if_pos named]
        exact .inl le_rfl
      · right
        refine ⟨volumeRowId, record.id, entry, found, ?_⟩
        simp [Projection.mergePartial, Projection.partialField, named]

theorem compactStorage : Shows projection.compactStorage exact.compactStorage units :=
  (shows_.onRows Projection.compactStorage fun g => projection.rows.rename_compactStorage g).reintern

theorem removeBatch (volumeRowId : VolumeRowId) (frns : List FileId) (keep : Bool) :
    Shows (projection.onRows (·.removeBatch volumeRowId frns keep))
      (exact.removeBatch volumeRowId frns keep) units :=
  shows_.onRows (·.removeBatch volumeRowId frns keep)
    fun g => projection.rows.rename_removeBatch g volumeRowId frns keep

theorem removeVolume (volumeRowId : VolumeRowId) (keep : Bool) :
    Shows (projection.onRows (·.removeVolume volumeRowId keep))
      (exact.removeVolume volumeRowId keep) units := by
  have removed := shows_.removeBatch volumeRowId
    ((projection.rows.volumeKeys volumeRowId).map (·.frn)) keep
  have same : exact.volumeKeys volumeRowId = projection.rows.volumeKeys volumeRowId := by
    rw [← shows_.view]
    rfl
  rw [Projection.removeVolume, same]
  exact removed

theorem evict (eviction : Projection.Eviction) :
    Shows (projection.evict eviction) (exact.evict eviction).1 units := by
  unfold PooledProjection.evict
  split_ifs with ran
  · exact (shows_.onRows (fun rows => (rows.evict eviction).1) fun g =>
      (congrArg Prod.fst (projection.rows.rename_evict g eviction)).symm).reintern
  · have idle : (exact.evict eviction).1 = exact := by
      rw [← shows_.view]
      cases eviction with
      | subtree root =>
        have absent : (projection.rows.slots.idToIndex.lookup root).isNone = true := by
          simpa [Projection.evict] using ran
        exact if_pos absent
      | volume volumeRowId =>
        have none : projection.rows.volumeKeys volumeRowId = [] := by
          simpa [Projection.evict] using ran
        exact if_pos none
    rwa [idle]

theorem enforceMemoryLimit (evictions : List Projection.Eviction) :
    Shows (projection.enforceMemoryLimit evictions) (exact.enforceMemoryLimit evictions).1 units := by
  induction evictions generalizing projection exact with
  | nil => exact shows_
  | cons eviction evictions ih => exact ih (shows_.evict eviction)

theorem needsReload (volumeRowId : VolumeRowId) :
    projection.rows.needsReload volumeRowId = exact.needsReload volumeRowId := by
  rw [← shows_.view]
  rfl

theorem volumeKeys (volumeRowId : VolumeRowId) :
    projection.rows.volumeKeys volumeRowId = exact.volumeKeys volumeRowId := by
  rw [← shows_.view]
  rfl

theorem discardVolume (volumeRowId : VolumeRowId) :
    Shows (projection.discardVolume volumeRowId) (exact.discardVolume volumeRowId) units := by
  have dropped : Shows (projection.dropResident volumeRowId) (exact.dropResident volumeRowId) units := by
    unfold PooledProjection.dropResident Projection.dropResident
    rw [shows_.volumeKeys, shows_.needsReload]
    split_ifs
    · exact (shows_.removeVolume volumeRowId false).compactStorage
    · exact shows_
  exact dropped.onRows (·.awaitRows volumeRowId) fun _ => rfl

theorem acceptRows : Shows (projection.onRows Projection.acceptRows) exact.acceptRows units :=
  shows_.onRows Projection.acceptRows fun g => Projection.ext
    (projection.rows.slots.rename_compactEntriesForIterationOrder g) rfl rfl rfl

theorem markCold (volumeRowId : VolumeRowId) :
    Shows (projection.onRows (·.markCold volumeRowId)) (exact.markCold volumeRowId) units :=
  shows_.onRows (·.markCold volumeRowId) fun _ => rfl

theorem upsertAll (volumeRowId : VolumeRowId) (records : List EntryRecord)
    (room : units + (records.map (·.name.length)).sum < 2 ^ 32) :
    Shows (projection.upsertAll volumeRowId records) (exact.upsertAll volumeRowId records)
      (units + (records.map (·.name.length)).sum) := by
  induction records generalizing projection exact units with
  | nil => exact shows_
  | cons record records ih =>
    rw [List.map_cons, List.sum_cons, ← Nat.add_assoc] at room ⊢
    exact ih (shows_.upsert volumeRowId (by omega) (.inl le_rfl)) room

theorem rebuildVolumeFromStore (volumeRowId : VolumeRowId) (stored : List EntryRecord)
    (reload : Projection.Reload) (room : units + (stored.map (·.name.length)).sum < 2 ^ 32) :
    Shows (projection.rebuildVolumeFromStore volumeRowId stored reload)
      (exact.rebuildVolumeFromStore volumeRowId stored reload).1
      (units + (stored.map (·.name.length)).sum) := by
  have discarded := shows_.discardVolume volumeRowId
  unfold PooledProjection.rebuildVolumeFromStore Projection.rebuildVolumeFromStore
  split_ifs
  · exact (discarded.upsertAll volumeRowId stored room).acceptRows.enforceMemoryLimit reload.evictions
  · have part : ((stored.take (reload.stopsAfter.getD stored.length)).map (·.name.length)).sum ≤
        (stored.map (·.name.length)).sum :=
      ((List.take_sublist _ _).map _).sum_le_sum fun _ _ => Nat.zero_le _
    have streamed := (discarded.upsertAll volumeRowId _ (by omega)).mono
      (Nat.add_le_add_left part units) room
    exact ((streamed.removeVolume volumeRowId false).compactStorage.markCold
      volumeRowId).enforceMemoryLimit reload.evictions

/-- **One action.** -/
theorem perform (action : ProjectionAction) (room : units + action.units < 2 ^ 32) :
    Shows (projection.perform action) (exact.perform action) (units + action.units) := by
  cases action with
  | upsert volumeRowId record => exact shows_.upsert volumeRowId room (.inl le_rfl)
  | upsertPartial volumeRowId record fields => exact shows_.upsertPartial volumeRowId record fields room
  | remove volumeRowId frn =>
    exact shows_.onRows (·.remove volumeRowId frn)
      fun g => projection.rows.rename_remove g volumeRowId frn
  | removeBatch volumeRowId frns keep => exact shows_.removeBatch volumeRowId frns keep
  | removeVolume volumeRowId keep => exact shows_.removeVolume volumeRowId keep
  | evict eviction => exact shows_.evict eviction
  | enforceMemoryLimit evictions => exact shows_.enforceMemoryLimit evictions
  | compactStorage => exact shows_.compactStorage
  | rebuildVolumeFromStore volumeRowId stored reload =>
    exact shows_.rebuildVolumeFromStore volumeRowId stored reload room
  | setBulkScanActive active =>
    exact shows_.onRows (·.setBulkScanActive active) fun _ => rfl

/-- **Any number of actions.** -/
theorem run (actions : List ProjectionAction)
    (room : units + (actions.map ProjectionAction.units).sum < 2 ^ 32) :
    Shows (projection.run actions) (exact.run actions)
      (units + (actions.map ProjectionAction.units).sum) := by
  induction actions generalizing projection exact units with
  | nil => exact shows_
  | cons action actions ih =>
    rw [List.map_cons, List.sum_cons, ← Nat.add_assoc] at room ⊢
    exact ih (shows_.perform action (by omega)) room

end Shows

end FastFiles.Index
