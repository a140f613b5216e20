import FastFiles.Index.FilenameIndex
import FastFiles.Index.ProjectionRuns

/-!
# The projection with its accelerator

The operations of `Index.Projection` together with what each does to the filename index: an upsert
removes the old name of a row and adds the new one, a small batch removes name by name, a large one
drops the index and rebuilds it, and everything that renumbers slots drops it.

Without the index an accelerated projection is the projection (`projection_perform`).  A valid index
tracks the names of the live rows after every run (`Current.run`), so it never misses a match
(`filename_candidates_complete`).
-/

namespace FastFiles.Index

open Projection FilenameIndex Function Slots

open Search (isAscii foldAscii16)

/-- The name a slot holds, unless it is free. -/
def Slots.names (slots : Slots) (index : Nat) : Option Text := (slots.live index).map (·.name)

/-- The rows a rebuild of the index goes through. -/
def Slots.named (slots : Slots) : List (Nat × Text) :=
  slots.order.filterMap fun index => slots.entries[index]?.map fun entry => (index, entry.name)

/-- The projection and its filename index. -/
structure Accelerated where
  projection : Projection
  index : FilenameIndex

variable (volumeRowId : VolumeRowId) (records : List EntryRecord)

namespace Accelerated

def empty : Accelerated where
  projection := .empty
  index := { invalidated with valid := true }

/-- `InvalidateFilenameIndex`. -/
def invalidate (state : Accelerated) : Accelerated where
  projection := { state.projection with filenameIndexValid := false }
  index := .invalidated

section Operations

variable (probe : UInt16 → UInt16 → Bool)

variable (state : Accelerated) (volumeRowId : VolumeRowId)

/-- `RebuildFilenameIndex`. -/
def rebuildIndex : Accelerated where
  projection := { state.projection with filenameIndexValid := true }
  index := .rebuild probe state.projection.slots.named

/-- The index without the name that a key's slot holds. -/
def unname (key : EntryKey) : FilenameIndex :=
  match state.projection.slots.idToIndex.lookup key with
  | none => state.index
  | some index =>
    match state.projection.slots.entries[index]? with
    | none => state.index
    | some entry => state.index.removeEntry probe index entry.name

/-- The old name of the slot leaves the index and the new one enters it. -/
def upsert (state : Accelerated) (volumeRowId : VolumeRowId) (record : EntryRecord) : Accelerated :=
  let projection := state.projection.upsert volumeRowId record
  { projection
    index :=
      match projection.slots.idToIndex.lookup ⟨volumeRowId, record.id⟩ with
      | none => state.unname probe ⟨volumeRowId, record.id⟩
      | some index => (state.unname probe ⟨volumeRowId, record.id⟩).addEntry probe false index record.name }

def upsertPartial (record : EntryRecord) (fields : EntryFieldMask) : Accelerated :=
  if fields = entryFieldMaskAll then state.upsert probe volumeRowId record
  else
    state.upsert probe volumeRowId
      (mergePartial (state.projection.find volumeRowId record.id) record fields)

def remove (state : Accelerated) (volumeRowId : VolumeRowId) (frn : FileId) : Accelerated where
  projection := state.projection.remove volumeRowId frn
  index := state.unname probe ⟨volumeRowId, frn⟩

def removeEach (frns : List FileId) : Accelerated :=
  frns.foldl (fun state frn => state.remove probe volumeRowId frn) state

/-- A batch above the threshold drops the index first and rebuilds it once. -/
def removeBatch (frns : List FileId) (keepFilenameIndexCurrent : Bool) : Accelerated :=
  if frns = [] then state
  else
    let wasValid := state.index.valid
    let bulk := decide (256 < frns.length)
    let started := if bulk && wasValid then state.invalidate else state
    let removed := started.removeEach probe volumeRowId frns
    let current :=
      if bulk && wasValid && keepFilenameIndexCurrent then removed.rebuildIndex probe else removed
    if !keepFilenameIndexCurrent then current.invalidate else current

def removeVolume (keepFilenameIndexCurrent : Bool) : Accelerated :=
  state.removeBatch probe volumeRowId ((state.projection.volumeKeys volumeRowId).map (·.frn))
    keepFilenameIndexCurrent

def compactStorage (state : Accelerated) : Accelerated where
  projection := state.projection.compactStorage
  index := .invalidated

/-- An eviction ends in a compaction, if it finds its victim. -/
def evict (state : Accelerated) (eviction : Eviction) : Accelerated where
  projection := (state.projection.evict eviction).1
  index := if (state.projection.evict eviction).2 then .invalidated else state.index

def enforceMemoryLimit (evictions : List Eviction) : Accelerated :=
  evictions.foldl evict state

def upsertAll (records : List EntryRecord) : Accelerated :=
  records.foldl (fun state record => state.upsert probe volumeRowId record) state

/-- The part of a rebuild before the rows are streamed; the lists of a dropped index may stay. -/
def discardVolume (state : Accelerated) (volumeRowId : VolumeRowId) : Accelerated :=
  let dropped :=
    if state.projection.volumeKeys volumeRowId ≠ [] ∨ state.projection.needsReload volumeRowId then
      (state.removeVolume probe volumeRowId false).compactStorage
    else state
  { projection := state.projection.discardVolume volumeRowId
    index := { dropped.index with valid := false } }

/-- A reload that completes rebuilds the index, unless a bulk scan will. -/
def rebuildVolumeFromStore (stored : List EntryRecord) (reload : Reload) : Accelerated :=
  let discarded := state.discardVolume probe volumeRowId
  if reload.complete then
    let streamed := discarded.upsertAll probe volumeRowId stored
    let ordered : Accelerated :=
      { streamed with projection := streamed.projection.compactEntriesForIterationOrder }
    let indexed := if ordered.projection.bulkScanActive then ordered else ordered.rebuildIndex probe
    indexed.enforceMemoryLimit reload.evictions
  else
    let streamed := discarded.upsertAll probe volumeRowId
      (stored.take (reload.stopsAfter.getD stored.length))
    let removed := (streamed.removeVolume probe volumeRowId false).compactStorage
    let cold : Accelerated :=
      { removed with
        projection := { removed.projection with
          evictedVolumes := insert volumeRowId removed.projection.evictedVolumes } }
    cold.enforceMemoryLimit reload.evictions

def setBulkScanActive (state : Accelerated) (active : Bool) : Accelerated :=
  let next := if active then state.invalidate else state.rebuildIndex probe
  { next with projection := state.projection.setBulkScanActive active }

def perform : ProjectionAction → Accelerated
  | .upsert volumeRowId record => state.upsert probe volumeRowId record
  | .upsertPartial volumeRowId record fields => state.upsertPartial probe volumeRowId record fields
  | .remove volumeRowId frn => state.remove probe volumeRowId frn
  | .removeBatch volumeRowId frns keep => state.removeBatch probe volumeRowId frns keep
  | .removeVolume volumeRowId keep => state.removeVolume probe volumeRowId keep
  | .evict eviction => state.evict eviction
  | .enforceMemoryLimit evictions => state.enforceMemoryLimit evictions
  | .compactStorage => state.compactStorage
  | .rebuildVolumeFromStore volumeRowId stored reload =>
    state.rebuildVolumeFromStore probe volumeRowId stored reload
  | .setBulkScanActive active => state.setBulkScanActive probe active

def run (actions : List ProjectionAction) : Accelerated :=
  actions.foldl (perform probe) state

end Operations

/-! ## A valid index tracks the live rows -/

/-- The flag of the projection is the index's, and a valid index tracks the names of the live rows. -/
structure Current (probe : UInt16 → UInt16 → Bool) (state : Accelerated) : Prop where
  flag : state.projection.filenameIndexValid = state.index.valid
  tracks : state.index.valid = true → state.index.Tracks probe state.projection.slots.names

section Steps

variable {probe : UInt16 → UInt16 → Bool} {state : Accelerated}

theorem current_of_invalid (flag : state.projection.filenameIndexValid = false)
    (invalid : state.index.valid = false) : state.Current probe where
  flag := flag.trans invalid.symm
  tracks valid := by
    rw [invalid] at valid
    cases valid

theorem current_empty (probe : UInt16 → UInt16 → Bool) : empty.Current probe where
  flag := rfl
  tracks _ := by
    refine ⟨fun trigram slot => ?_, fun trigram => ?_, fun slot => ?_, .nil⟩
    · exact iff_of_false List.not_mem_nil fun ⟨_, held, _⟩ => nomatch held
    · exact .nil
    · exact iff_of_false List.not_mem_nil fun ⟨_, held, _⟩ => nomatch held

variable {index : Nat} {slots : Slots} {name : Text} {entry : ProjectionEntry}

theorem names_eq_some :
    slots.names index = some name ↔ ∃ entry, slots.live index = some entry ∧ entry.name = name :=
  Option.map_eq_some_iff

theorem mem_named (wf : slots.WellFormed) :
    (index, name) ∈ slots.named ↔ slots.names index = some name := by
  rw [names_eq_some, named, List.mem_filterMap]
  constructor
  · rintro ⟨slot, member, is⟩
    obtain ⟨entry, at_, same⟩ := Option.map_eq_some_iff.mp is
    obtain ⟨rfl, rfl⟩ := Prod.mk.inj same
    obtain ⟨key, found⟩ := mem_order.mp member
    obtain ⟨row, live, -⟩ := wf.live_of_lookup found
    obtain rfl : row = entry := Option.some.inj ((live_eq_some.mp live).1.symm.trans at_)
    exact ⟨row, live, rfl⟩
  · rintro ⟨entry, live, rfl⟩
    obtain ⟨at_, found⟩ := live_eq_some.mp live
    exact ⟨index, mem_order.mpr ⟨_, found⟩, by rw [at_]; rfl⟩

theorem current_rebuildIndex (state : Accelerated) : (state.rebuildIndex probe).Current probe where
  flag := ((lists_start probe).foldl _).valid.symm
  tracks _ := tracks_rebuild probe fun _ _ => mem_named state.projection.wellFormed

@[simp] theorem valid_unname (key : EntryKey) : (state.unname probe key).valid = state.index.valid := by
  unfold unname
  split
  · rfl
  · split
    · rfl
    · exact valid_removeEntry _ _ _

/-- Without the name of a key's row the index tracks the other rows. -/
theorem Current.unname (current : state.Current probe) (valid : state.index.valid = true)
    (live : state.projection.slots.live index = some entry) :
    (state.unname probe entry.key).Tracks probe
      (update state.projection.slots.names index none) := by
  obtain ⟨at_, found⟩ := live_eq_some.mp live
  have result : state.unname probe entry.key = state.index.removeEntry probe index entry.name := by
    rw [Accelerated.unname, found]
    dsimp only
    rw [at_]
  rw [result]
  exact (current.tracks valid).remove valid (names_eq_some.mpr ⟨entry, live, rfl⟩)

theorem unname_of_absent {key : EntryKey} (absent : state.projection.slots.idToIndex.lookup key = none) :
    state.unname probe key = state.index := by
  rw [unname, absent]

theorem names_of_writes {next : Slots} (writes : Writes slots next index entry) :
    next.names = update slots.names index (some entry.name) := by
  funext other
  rw [names, writes.live]
  by_cases same : other = index
  · rw [same, update_self, update_self]
    rfl
  · rw [update_of_ne same, update_of_ne same]
    rfl

theorem valid_upsert (record : EntryRecord) :
    (state.upsert probe volumeRowId record).index.valid = state.index.valid := by
  unfold Accelerated.upsert
  dsimp only
  split
  · exact valid_unname _
  · rw [valid_addEntry, valid_unname]

section

variable (current : state.Current probe) (volumeRowId : VolumeRowId)

include current

theorem Current.upsert (record : EntryRecord) :
    (state.upsert probe volumeRowId record).Current probe := by
  refine ⟨current.flag.trans (valid_upsert volumeRowId record).symm, fun valid => ?_⟩
  rw [valid_upsert] at valid
  set slots := state.projection.slots with slotsIs
  -- In both cases the slot that is written holds no name of the index before the name is added.
  obtain ⟨index, writes, before⟩ : ∃ index,
      Writes slots (slots.upsert volumeRowId record) index (.ofRecord volumeRowId record) ∧
        (state.unname probe ⟨volumeRowId, record.id⟩).Tracks probe
          (update slots.names index none) := by
    cases found : slots.idToIndex.lookup ⟨volumeRowId, record.id⟩ with
    | some index =>
      obtain ⟨entry, live, key⟩ := state.projection.wellFormed.live_of_lookup found
      have tracks := current.unname valid live
      rw [key] at tracks
      exact ⟨index, (upsert_existing state.projection.wellFormed live key).1, tracks⟩
    | none =>
      obtain ⟨index, writes, -⟩ := upsert_new state.projection.wellFormed found
      have free : slots.names index = none := by
        rw [names, Option.map_eq_none_iff]
        by_contra held
        obtain ⟨old, live⟩ := Option.ne_none_iff_exists'.mp held
        have lookup := (live_eq_some.mp live).2
        rw [writes.own old live] at lookup
        cases found.symm.trans lookup
      refine ⟨index, writes, ?_⟩
      rw [unname_of_absent found, ← free, update_eq_self]
      exact current.tracks valid
  have placed : (slots.upsert volumeRowId record).idToIndex.lookup ⟨volumeRowId, record.id⟩ = some index := by
    have here := writes.lookup (ProjectionEntry.ofRecord volumeRowId record).key
    rw [if_pos rfl] at here
    exact here
  have result : (state.upsert probe volumeRowId record).index =
      (state.unname probe ⟨volumeRowId, record.id⟩).addEntry probe false index record.name := by
    unfold Accelerated.upsert
    dsimp only [Projection.upsert]
    rw [← slotsIs, placed]
  have names : (state.upsert probe volumeRowId record).projection.slots.names =
      update slots.names index (some record.name) := names_of_writes writes
  rw [result, names]
  have added := before.add ((valid_unname _).trans valid) (update_self index none slots.names)
    record.name
  rw [update_idem] at added
  exact added

theorem Current.remove (frn : FileId) : (state.remove probe volumeRowId frn).Current probe := by
  refine ⟨current.flag.trans (valid_unname _).symm, fun valid => ?_⟩
  have valid' : state.index.valid = true := (valid_unname _).symm.trans valid
  show (state.unname probe ⟨volumeRowId, frn⟩).Tracks probe
    (state.projection.slots.remove volumeRowId frn).names
  cases found : state.projection.slots.idToIndex.lookup ⟨volumeRowId, frn⟩ with
  | none =>
    rw [unname_of_absent found, Slots.remove, found]
    exact current.tracks valid'
  | some index =>
    obtain ⟨entry, live, key⟩ := state.projection.wellFormed.live_of_lookup found
    obtain ⟨rfl, rfl⟩ := EntryKey.mk.inj key
    have names : (state.projection.slots.remove entry.volumeRowId entry.frn).names =
        update state.projection.slots.names index none := by
      funext other
      rw [Slots.names, Slots.live_remove live]
      by_cases same : other = index
      · rw [same, update_self, update_self]
        rfl
      · rw [update_of_ne same, update_of_ne same]
        rfl
    rw [names]
    exact current.unname valid' live

theorem Current.removeEach (frns : List FileId) :
    (state.removeEach probe volumeRowId frns).Current probe := by
  induction frns generalizing state with
  | nil => exact current
  | cons frn frns ih => exact ih (current.remove volumeRowId frn)

end

theorem current_ite {condition : Prop} [Decidable condition] {first second : Accelerated}
    (yes : first.Current probe) (no : second.Current probe) :
    (if condition then first else second).Current probe := by
  split_ifs
  · exact yes
  · exact no

section

variable (current : state.Current probe)

include current

theorem Current.removeBatch (volumeRowId : VolumeRowId) (frns : List FileId) (keep : Bool) :
    (state.removeBatch probe volumeRowId frns keep).Current probe := by
  have started : (if (decide (256 < frns.length) && state.index.valid) = true then state.invalidate
      else state).Current probe := current_ite (current_of_invalid rfl rfl) current
  have removed := started.removeEach volumeRowId frns
  exact current_ite current
    (current_ite (current_of_invalid rfl rfl) (current_ite (current_rebuildIndex _) removed))

theorem Current.evict (eviction : Projection.Eviction) : (state.evict eviction).Current probe := by
  -- What runs ends in a compaction; what does not leaves everything as it was.
  have idle_or_dropped :
      (state.projection.evict eviction).2 = false ∧
          (state.projection.evict eviction).1 = state.projection ∨
        (state.projection.evict eviction).2 = true ∧
          (state.projection.evict eviction).1.filenameIndexValid = false := by
    cases eviction with
    | subtree root =>
      simp only [Projection.evict, Projection.evictSubtree]
      cases state.projection.slots.idToIndex.lookup root with
      | none => exact .inl ⟨rfl, rfl⟩
      | some index => exact .inr ⟨rfl, rfl⟩
    | volume volumeRowId =>
      simp only [Projection.evict, Projection.evictVolume]
      split_ifs with none
      · exact .inl ⟨by simp [none], rfl⟩
      · exact .inr ⟨by simp [none], rfl⟩
  rcases idle_or_dropped with ⟨idle, same⟩ | ⟨ran, dropped⟩
  · have unchanged : state.evict eviction = state := by
      rw [Accelerated.evict, idle, same, if_neg Bool.false_ne_true]
    rw [unchanged]
    exact current
  · refine current_of_invalid dropped ?_
    rw [Accelerated.evict, ran, if_pos rfl]
    rfl

theorem Current.enforceMemoryLimit (evictions : List Eviction) :
    (state.enforceMemoryLimit evictions).Current probe := by
  induction evictions generalizing state with
  | nil => exact current
  | cons eviction evictions ih => exact ih (current.evict eviction)

theorem Current.upsertAll (volumeRowId : VolumeRowId) (records : List EntryRecord) :
    (state.upsertAll probe volumeRowId records).Current probe := by
  induction records generalizing state with
  | nil => exact current
  | cons record records ih => exact ih (current.upsert volumeRowId record)

end

theorem valid_upsertAll :
    (state.upsertAll probe volumeRowId records).index.valid = state.index.valid := by
  induction records generalizing state with
  | nil => rfl
  | cons record records ih => exact ih.trans (valid_upsert volumeRowId record)

theorem current_discardVolume (state : Accelerated) (volumeRowId : VolumeRowId) :
    (state.discardVolume probe volumeRowId).Current probe :=
  current_of_invalid rfl rfl

theorem current_rebuildVolumeFromStore (state : Accelerated) (volumeRowId : VolumeRowId)
    (stored : List EntryRecord) (reload : Reload) :
    (state.rebuildVolumeFromStore probe volumeRowId stored reload).Current probe := by
  unfold Accelerated.rebuildVolumeFromStore
  split_ifs
  · -- The rows are renumbered while the index is dropped.
    refine Current.enforceMemoryLimit ?_ reload.evictions
    dsimp only
    have discarded : (state.discardVolume probe volumeRowId).Current probe :=
      current_discardVolume state volumeRowId
    have streamed := discarded.upsertAll volumeRowId stored
    have invalid : ((state.discardVolume probe volumeRowId).upsertAll probe volumeRowId
        stored).index.valid = false := valid_upsertAll volumeRowId stored
    split_ifs
    · exact current_of_invalid (streamed.flag.trans invalid) invalid
    · exact current_rebuildIndex _
  · refine Current.enforceMemoryLimit ?_ reload.evictions
    exact current_of_invalid rfl rfl

theorem current_setBulkScanActive (state : Accelerated) (active : Bool) :
    (state.setBulkScanActive probe active).Current probe := by
  cases active with
  | true => exact current_of_invalid rfl rfl
  | false =>
    have rebuilt : (state.rebuildIndex probe).Current probe := current_rebuildIndex state
    exact ⟨rebuilt.flag, rebuilt.tracks⟩

theorem Current.perform (current : state.Current probe) (action : ProjectionAction) :
    (state.perform probe action).Current probe := by
  cases action with
  | upsert volumeRowId record => exact current.upsert volumeRowId record
  | upsertPartial volumeRowId record fields =>
    exact current_ite (current.upsert volumeRowId record) (current.upsert volumeRowId _)
  | remove volumeRowId frn => exact current.remove volumeRowId frn
  | removeBatch volumeRowId frns keep => exact current.removeBatch volumeRowId frns keep
  | removeVolume volumeRowId keep => exact current.removeBatch volumeRowId _ keep
  | evict eviction => exact current.evict eviction
  | enforceMemoryLimit evictions => exact current.enforceMemoryLimit evictions
  | compactStorage => exact current_of_invalid rfl rfl
  | rebuildVolumeFromStore volumeRowId stored reload =>
    exact current_rebuildVolumeFromStore state volumeRowId stored reload
  | setBulkScanActive active => exact current_setBulkScanActive state active

/-- **Every run** keeps a valid index current. -/
theorem Current.run (current : state.Current probe) (actions : List ProjectionAction) :
    (state.run probe actions).Current probe := by
  induction actions generalizing state with
  | nil => exact current
  | cons action actions ih => exact ih (current.perform action)

end Steps

/-! ## Without the index -/

section Projected

variable {probe : UInt16 → UInt16 → Bool} {state : Accelerated}

theorem projection_removeEach (frns : List FileId) :
    (state.removeEach probe volumeRowId frns).projection =
      { state.projection with
        slots := state.projection.slots.removeAll (frns.map (⟨volumeRowId, ·⟩))
        wellFormed := state.projection.wellFormed.removeAll _ } := by
  induction frns generalizing state with
  | nil => rfl
  | cons frn frns ih => exact ih

theorem projection_removeBatch (current : state.Current probe) (volumeRowId : VolumeRowId)
    (frns : List FileId) (keep : Bool) :
    (state.removeBatch probe volumeRowId frns keep).projection =
      state.projection.removeBatch volumeRowId frns keep := by
  have flag := current.flag
  unfold Accelerated.removeBatch Projection.removeBatch
  by_cases none : frns = []
  · rw [if_pos none, if_pos none]
  rw [if_neg none, if_neg none]
  cases keep with
  | false =>
    simp only [Bool.and_false, Bool.false_eq_true, if_false, Bool.not_false, if_true, invalidate,
      projection_removeEach]
    split_ifs <;> rfl
  | true =>
    cases valid : state.index.valid with
    | false =>
      rw [valid] at flag
      simp [projection_removeEach, flag]
    | true =>
      rw [valid] at flag
      by_cases bulk : 256 < frns.length
      · simp [bulk, rebuildIndex, projection_removeEach, invalidate, flag]
      · simp [bulk, projection_removeEach, flag]

theorem projection_enforceMemoryLimit (evictions : List Eviction) :
    (state.enforceMemoryLimit evictions).projection =
      (state.projection.enforceMemoryLimit evictions).1 := by
  induction evictions generalizing state with
  | nil => rfl
  | cons eviction evictions ih => exact ih

theorem projection_upsertAll :
    (state.upsertAll probe volumeRowId records).projection =
      state.projection.upsertAll volumeRowId records := by
  induction records generalizing state with
  | nil => rfl
  | cons record records ih => exact ih

theorem filenameIndexValid_upsertAll (projection : Projection) (volumeRowId : VolumeRowId)
    (records : List EntryRecord) :
    (projection.upsertAll volumeRowId records).filenameIndexValid = projection.filenameIndexValid := by
  induction records generalizing projection with
  | nil => rfl
  | cons record records ih => exact ih (projection.upsert volumeRowId record)

theorem projection_rebuildVolumeFromStore (stored : List EntryRecord) (reload : Projection.Reload) :
    (state.rebuildVolumeFromStore probe volumeRowId stored reload).projection =
      (state.projection.rebuildVolumeFromStore volumeRowId stored reload).1 := by
  unfold Accelerated.rebuildVolumeFromStore Projection.rebuildVolumeFromStore
  have discarded : (state.discardVolume probe volumeRowId).Current probe :=
    current_discardVolume state volumeRowId
  by_cases complete : reload.complete = true
  · rw [if_pos complete, if_pos complete]
    dsimp only
    rw [projection_enforceMemoryLimit]
    congr 2
    set streamed := ((state.projection.discardVolume volumeRowId).upsertAll volumeRowId
      stored).compactEntriesForIterationOrder with streamedIs
    have ordered : ((state.discardVolume probe volumeRowId).upsertAll probe volumeRowId
        stored).projection.compactEntriesForIterationOrder = streamed := by
      rw [projection_upsertAll]
      rfl
    have dropped : streamed.filenameIndexValid = false :=
      filenameIndexValid_upsertAll (state.projection.discardVolume volumeRowId) volumeRowId stored
    rw [ordered]
    by_cases bulk : streamed.bulkScanActive = true
    · rw [if_pos bulk]
      have kept : (streamed.filenameIndexValid || !streamed.bulkScanActive) =
          streamed.filenameIndexValid := by
        rw [dropped, bulk]
        rfl
      rw [kept]
    · rw [if_neg bulk]
      show { streamed with filenameIndexValid := true } = _
      rw [dropped, Bool.eq_false_iff.mpr bulk]
      rfl
  · rw [if_neg complete, if_neg complete]
    dsimp only
    rw [projection_enforceMemoryLimit]
    have streamed :=
      discarded.upsertAll volumeRowId (stored.take (reload.stopsAfter.getD stored.length))
    have removed := projection_removeBatch streamed volumeRowId
    simp only [projection_upsertAll] at removed
    simp only [Accelerated.removeVolume, Accelerated.compactStorage, removed, projection_upsertAll]
    rfl

/-- **Without the index an accelerated projection is the projection.** -/
theorem projection_perform (current : state.Current probe) (action : ProjectionAction) :
    (state.perform probe action).projection = state.projection.perform action := by
  cases action with
  | upsert volumeRowId record => rfl
  | upsertPartial volumeRowId record fields =>
    show (state.upsertPartial probe volumeRowId record fields).projection =
      state.projection.upsertPartial volumeRowId record fields
    unfold Accelerated.upsertPartial Projection.upsertPartial
    split_ifs <;> rfl
  | remove volumeRowId frn => rfl
  | removeBatch volumeRowId frns keep => exact projection_removeBatch current volumeRowId frns keep
  | removeVolume volumeRowId keep => exact projection_removeBatch current volumeRowId _ keep
  | evict eviction => rfl
  | enforceMemoryLimit evictions => exact projection_enforceMemoryLimit evictions
  | compactStorage => rfl
  | rebuildVolumeFromStore volumeRowId stored reload =>
    exact projection_rebuildVolumeFromStore volumeRowId stored reload
  | setBulkScanActive active => rfl

/-- A run projects to a run. -/
theorem projection_run (current : state.Current probe) (actions : List ProjectionAction) :
    (state.run probe actions).projection = state.projection.run actions := by
  induction actions generalizing state with
  | nil => rfl
  | cons action actions ih =>
    have next := ih (current.perform action)
    rw [projection_perform current action] at next
    exact next

end Projected

/-- **A valid index never misses.**  After every run of operations its candidates for an ASCII needle
contain every live row whose name contains the needle, under any case folding whose foldings onto
ASCII are classified, and contain live slots only. -/
theorem filename_candidates_complete (probe : UInt16 → UInt16 → Bool) (actions : List ProjectionAction)
    {same : UInt16 → UInt16 → Prop} (folds : CaseFold probe same) {needle : Text}
    (ascii : isAscii needle = true) (long : 3 ≤ needle.length)
    (valid : (empty.run probe actions).index.valid = true) :
    (∃ slots, (empty.run probe actions).index.candidates (foldAscii16 needle) 0 = some slots) ∧
    ∀ maximumCandidates slots,
      (empty.run probe actions).index.candidates (foldAscii16 needle) maximumCandidates = some slots →
        (∀ slot entry, (Projection.empty.run actions).slots.Holds slot entry →
          Contains same needle entry.name → slot ∈ slots) ∧
        ∀ slot ∈ slots, ∃ entry, (Projection.empty.run actions).slots.Holds slot entry := by
  have current := (current_empty probe).run actions
  have tracks := current.tracks valid
  rw [projection_run (current_empty probe) actions] at tracks
  refine ⟨exists_candidates valid ascii long, fun maximumCandidates slots found => ⟨?_, ?_⟩⟩
  · intro slot entry holds contains
    refine mem_candidates_of_contains folds tracks ascii found ?_ contains
    exact names_eq_some.mpr ⟨entry, live_eq_some.mpr holds, rfl⟩
  · intro slot member
    have size : (foldAscii16 needle).length = needle.length := List.length_map _
    obtain ⟨name, held⟩ := held_of_mem_candidates tracks found (size ▸ long) member
    obtain ⟨entry, live, -⟩ := names_eq_some.mp held
    exact ⟨entry, live_eq_some.mp live⟩

/-- A file named `README`. -/
def readme : EntryRecord :=
  { EntryRecord.blank ⟨6, 0⟩ with parentId := ⟨5, 0⟩, name := [0x52, 0x45, 0x41, 0x44, 0x4d, 0x45] }

/-- A renamed file is found under its new name. -/
theorem filename_candidates_complete_readme :
    ∃ slots, (empty.run (fun _ _ => false)
        [.upsert 1 { readme with name := [0x61] }, .upsert 1 readme]).index.candidates
          (foldAscii16 [0x65, 0x61, 0x64]) 0 = some slots ∧ 0 ∈ slots := by
  have folds : CaseFold (fun _ _ => false) fun left right =>
      left.toNat ≤ 0x7f ∧ Search.foldAsciiChar left = Search.foldAsciiChar right :=
    ⟨fun _ _ small _ => and_iff_right small,
      fun _ _ large _ both => absurd both.1 (Nat.not_le.mpr large)⟩
  obtain ⟨⟨slots, found⟩, complete⟩ := filename_candidates_complete (fun _ _ => false)
    [.upsert 1 { readme with name := [0x61] }, .upsert 1 readme] folds
    (show isAscii [0x65, 0x61, 0x64] = true by decide) (by decide) (by decide)
  refine ⟨slots, found, (complete 0 slots found).1 0 (.ofRecord 1 readme) ?_ ?_⟩
  · exact ⟨by decide +kernel, by decide +kernel⟩
  · refine ⟨[0x45, 0x41, 0x44], ⟨[0x52], [0x4d, 0x45], rfl⟩, ?_⟩
    exact .cons (by decide) (.cons (by decide) (.cons (by decide) .nil))

end Accelerated

end FastFiles.Index
