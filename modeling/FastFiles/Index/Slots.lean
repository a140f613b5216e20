import FastFiles.Foundations.Buckets
import FastFiles.Index.Table

/-!
# The rows of the projection

The storage of `Projection.cpp`: a dense array of entries with a free list, the map from
keys to slots, and the child lists by parent key.  A removed entry stays in its slot until
the slot is handed out again, so a slot is `live` only when the key map points back to it.

Every operation changes what is live in one slot (`live_upsert`, `live_remove`) or packs
the live rows into new slots (`find_compactStorage`).  `WellFormed` is the storage
invariant; the child lists are the inverse of the parent links of the live rows.
-/

namespace FastFiles.Index

open Function

/-! ## Entries -/

/-- A row.  The source has the id of a pooled name; here the name is the text itself, unless a
projection with ids is meant (`Index.PooledProjection`). -/
structure ProjectionEntry (ν : Type := Text) where
  volumeRowId : VolumeRowId
  frn : FileId
  parentFrn : FileId
  name : ν
  sizeBytes : UInt64
  allocatedSizeBytes : UInt64
  allocatedSizeKnown : Bool
  creationTime : UInt64
  lastModifiedTime : UInt64
  lastAccessTime : UInt64
  attributes : UInt32
deriving DecidableEq

variable {ν : Type} (entry : ProjectionEntry ν)

namespace ProjectionEntry

def key : EntryKey := ⟨entry.volumeRowId, entry.frn⟩

def ofRecord (volumeRowId : VolumeRowId) (record : EntryRecord ν) : ProjectionEntry ν where
  volumeRowId := volumeRowId
  frn := record.id
  parentFrn := record.parentId
  name := record.name
  sizeBytes := record.sizeBytes
  allocatedSizeBytes := record.allocatedSizeBytes
  allocatedSizeKnown := record.allocatedSizeKnown
  creationTime := record.creationTime
  lastModifiedTime := record.lastModifiedTime
  lastAccessTime := record.lastAccessTime
  attributes := record.attributes

def record : EntryRecord ν where
  id := entry.frn
  parentId := entry.parentFrn
  name := entry.name
  sizeBytes := entry.sizeBytes
  allocatedSizeBytes := entry.allocatedSizeBytes
  allocatedSizeKnown := entry.allocatedSizeKnown
  creationTime := entry.creationTime
  lastModifiedTime := entry.lastModifiedTime
  lastAccessTime := entry.lastAccessTime
  attributes := entry.attributes

/-- The list the entry is a child in; the volume root, its own parent, is in none. -/
def link : Option EntryKey :=
  if entry.parentFrn = entry.frn then none else some ⟨entry.volumeRowId, entry.parentFrn⟩

@[simp] theorem key_ofRecord (volumeRowId : VolumeRowId) (record : EntryRecord ν) :
    (ofRecord volumeRowId record).key = ⟨volumeRowId, record.id⟩ := rfl

theorem ofRecord_record :
    ofRecord entry.volumeRowId entry.record = entry := rfl

end ProjectionEntry

/-! ## Storage -/

/-- The index of a slot is a `uint32_t` in the source; below 2³² rows a `Nat` is exact.  `idToIndex` is
a `FlatHashMap`, here the finite map that `Index.FlatHashMap` shows it to be, and
`parentToChildren` what `Index.ChildrenMap` refines. -/
structure Slots (ν : Type := Text) where
  entries : List (ProjectionEntry ν)
  /-- The top of the stack first. -/
  freeList : List Nat
  idToIndex : AList fun _ : EntryKey => Nat
  parentToChildren : Buckets EntryKey Nat
  denseIterationOrderValid : Bool

namespace Slots

def empty : Slots ν where
  entries := []
  freeList := []
  idToIndex := ∅
  parentToChildren := fun _ => []
  denseIterationOrderValid := false

variable (slots : Slots ν) (index : Nat) (entry : ProjectionEntry ν)

def find (key : EntryKey) : Option (ProjectionEntry ν) :=
  (slots.idToIndex.lookup key).bind (slots.entries[·]?)

/-- What a slot holds, unless it is free. -/
def live : Option (ProjectionEntry ν) :=
  slots.entries[index]?.filter fun entry => slots.idToIndex.lookup entry.key == some index

/-- The child list a slot belongs to. -/
def assigned : Option EntryKey :=
  (slots.live index).bind ProjectionEntry.link

/-- Keys and slots in the order of iteration, the oldest insertion first. -/
def rows : List (EntryKey × Nat) :=
  (slots.idToIndex.entries.map fun row => (row.1, row.2)).reverse

/-- Enter the key of a new entry, and the entry into its parent's list. -/
def register : Slots ν :=
  { slots with
    idToIndex := slots.idToIndex.insert entry.key index
    parentToChildren := match entry.link with
      | some parent => slots.parentToChildren.insert parent index
      | none => slots.parentToChildren }

/-- A free slot, or one more at the end. -/
def allocate : Nat × Slots ν :=
  match slots.freeList with
  | index :: freeList =>
    (index, { slots with entries := slots.entries.set index entry, freeList })
  | [] => (slots.entries.length, { slots with entries := slots.entries ++ [entry] })

/-- Move a slot to the list of a new parent. -/
def reparent (record : EntryRecord ν) : Slots ν :=
  if entry.parentFrn ≠ record.parentId then
    let unlinked := slots.parentToChildren.remove ⟨entry.volumeRowId, entry.parentFrn⟩ index
    { slots with
      parentToChildren :=
        if record.parentId ≠ record.id then
          unlinked.insert ⟨entry.volumeRowId, record.parentId⟩ index
        else unlinked }
  else slots

def upsert (volumeRowId : VolumeRowId) (record : EntryRecord ν) : Slots ν :=
  match slots.idToIndex.lookup ⟨volumeRowId, record.id⟩ with
  | some index =>
    match slots.entries[index]? with
    | some entry =>
      let slots := slots.reparent index entry record
      { slots with entries := slots.entries.set index (.ofRecord volumeRowId record) }
    | none => slots
  | none =>
    let entry := ProjectionEntry.ofRecord volumeRowId record
    let (index, slots) := { slots with denseIterationOrderValid := false }.allocate entry
    slots.register index entry

def remove (volumeRowId : VolumeRowId) (frn : FileId) : Slots ν :=
  match slots.idToIndex.lookup ⟨volumeRowId, frn⟩ with
  | none => slots
  | some index =>
    { slots with
      denseIterationOrderValid := false
      parentToChildren := match slots.entries[index]? with
        | some entry => slots.parentToChildren.remove ⟨volumeRowId, entry.parentFrn⟩ index
        | none => slots.parentToChildren
      idToIndex := slots.idToIndex.erase ⟨volumeRowId, frn⟩
      freeList := index :: slots.freeList }

/-- Pack a row behind those already packed. -/
def pack (packed : Slots ν) (row : EntryKey × Nat) : Slots ν :=
  match slots.entries[row.2]? with
  | some entry =>
    { packed with entries := packed.entries ++ [entry] }.register packed.entries.length entry
  | none => packed

def compactStorage : Slots ν :=
  { slots.rows.foldl slots.pack empty with denseIterationOrderValid := true }

/-- Erase identities only; the caller packs what is left. -/
def eraseIds (keys : List EntryKey) : Slots ν :=
  { slots with idToIndex := keys.foldl (fun ids key => ids.erase key) slots.idToIndex }

/-! ## The invariant -/

structure WellFormed (slots : Slots ν) : Prop where
  /-- A key points to its own entry. -/
  occupied : ∀ key index, slots.idToIndex.lookup key = some index →
    ∃ entry, slots.entries[index]? = some entry ∧ entry.key = key
  /-- A slot on the free list is not live. -/
  free : ∀ index ∈ slots.freeList, index < slots.entries.length ∧ slots.live index = none
  freeNodup : slots.freeList.Nodup
  children : slots.parentToChildren.Tracks slots.assigned
  /-- Dense iteration visits live rows only. -/
  dense : slots.denseIterationOrderValid = true →
    ∀ index < slots.entries.length, (slots.live index).isSome

variable {entry : ProjectionEntry ν} {index : Nat} {slots : Slots ν}

theorem live_eq_some :
    slots.live index = some entry ↔
      slots.entries[index]? = some entry ∧ slots.idToIndex.lookup entry.key = some index := by
  simp [live, Option.filter_eq_some_iff]

variable {key : EntryKey}

theorem WellFormed.live_of_lookup (wf : slots.WellFormed)
    (found : slots.idToIndex.lookup key = some index) :
    ∃ entry, slots.live index = some entry ∧ entry.key = key := by
  obtain ⟨entry, at_, rfl⟩ := wf.occupied key index found
  exact ⟨entry, live_eq_some.mpr ⟨at_, found⟩, rfl⟩

theorem WellFormed.find_eq_some (wf : slots.WellFormed) :
    slots.find key = some entry ↔ entry.key = key ∧ ∃ index, slots.live index = some entry := by
  constructor
  · intro found
    obtain ⟨index, lookup, at_⟩ := Option.bind_eq_some_iff.mp found
    obtain ⟨other, live, rfl⟩ := wf.live_of_lookup lookup
    obtain rfl : other = entry := Option.some.inj ((live_eq_some.mp live).1.symm.trans at_)
    exact ⟨rfl, index, live⟩
  · rintro ⟨rfl, index, live⟩
    obtain ⟨at_, lookup⟩ := live_eq_some.mp live
    rw [find, lookup]
    exact at_

theorem wellFormed_empty : (empty : Slots ν).WellFormed where
  occupied _ _ found := by cases found
  free _ mem := by cases mem
  freeNodup := List.nodup_nil
  children := Buckets.Tracks.empty
  dense := nofun

/-! ## Writing one slot -/

variable {next : Slots ν}

/-- A slot is as live as before when the same keys point to it. -/
theorem live_congr (same : next.entries[index]? = slots.entries[index]?)
    (lookup : ∀ key, next.idToIndex.lookup key = some index ↔
      slots.idToIndex.lookup key = some index) : next.live index = slots.live index := by
  ext entry
  rw [live_eq_some, live_eq_some, same, lookup]

theorem assigned_of_live {row : Option (ProjectionEntry ν)}
    (live : next.live = update slots.live index row) :
    next.assigned = update slots.assigned index (row.bind ProjectionEntry.link) := by
  show (·.bind ProjectionEntry.link) ∘ next.live = _
  rw [live, comp_update]
  rfl

/-- A live slot is in the list of its parent, or in none. -/
theorem parent_of_assigned (live : slots.live index = some entry) (parent : EntryKey)
    (linked : slots.assigned index = some parent) :
    parent = ⟨entry.volumeRowId, entry.parentFrn⟩ := by
  rw [assigned, live, Option.bind_some, ProjectionEntry.link] at linked
  split_ifs at linked
  exact (Option.some.inj linked).symm

/-- The slot of `entry` is written: it was the entry's own, or nobody's. -/
structure Writes (slots next : Slots ν) (index : Nat) (entry : ProjectionEntry ν) : Prop where
  here : next.entries[index]? = some entry
  elsewhere : ∀ other, other ≠ index → next.entries[other]? = slots.entries[other]?
  lookup : ∀ key, next.idToIndex.lookup key =
    if key = entry.key then some index else slots.idToIndex.lookup key
  own : ∀ old, slots.live index = some old → old.key = entry.key
  single : ∀ other, slots.idToIndex.lookup entry.key = some other → other = index
  freeList : next.freeList = slots.freeList.erase index

section

variable (writes : Writes slots next index entry)

include writes

theorem Writes.live : next.live = update slots.live index (some entry) := by
  funext other
  by_cases same : other = index
  · subst same
    rw [update_self, live_eq_some, writes.lookup, if_pos rfl]
    exact ⟨writes.here, rfl⟩
  · rw [update_of_ne same]
    refine live_congr (writes.elsewhere other same) fun key => ?_
    -- The written key pointed to no other slot before, and points to none now.
    rw [writes.lookup]
    split_ifs with written
    · subst written
      exact iff_of_false (fun is => same (Option.some.inj is).symm)
        fun found => same (writes.single other found)
    · rfl

/-- No slot but the written one is added or lost. -/
theorem Writes.short {other : Nat} (differs : other ≠ index) :
    other < next.entries.length ↔ other < slots.entries.length := by
  rw [← not_iff_not, not_lt, not_lt, ← List.getElem?_eq_none_iff, ← List.getElem?_eq_none_iff,
    writes.elsewhere other differs]

theorem Writes.full (full : ∀ other < slots.entries.length, (slots.live other).isSome) :
    ∀ other < next.entries.length, (next.live other).isSome := by
  intro other short
  rw [writes.live]
  by_cases here : other = index
  · rw [here, update_self]
    rfl
  · rw [update_of_ne here]
    exact full other ((writes.short here).mp short)

theorem Writes.wellFormed (wf : slots.WellFormed)
    (children : next.parentToChildren.Tracks (update slots.assigned index entry.link))
    (dense : next.denseIterationOrderValid = true → slots.denseIterationOrderValid = true) :
    next.WellFormed where
  occupied key other found := by
    rw [writes.lookup] at found
    split_ifs at found with written
    · cases found
      exact ⟨entry, writes.here, written.symm⟩
    · obtain ⟨row, at_, is⟩ := wf.occupied key other found
      have distinct : other ≠ index := by
        rintro rfl
        have live : slots.live other = some row := live_eq_some.mpr ⟨at_, is ▸ found⟩
        exact written (is.symm.trans (writes.own row live))
      exact ⟨row, (writes.elsewhere other distinct).trans at_, is⟩
  free other mem := by
    rw [writes.freeList, wf.freeNodup.mem_erase_iff] at mem
    obtain ⟨short, dead⟩ := wf.free other mem.2
    refine ⟨(writes.short mem.1).mpr short, ?_⟩
    rw [writes.live, update_of_ne mem.1]
    exact dead
  freeNodup := writes.freeList ▸ wf.freeNodup.erase index
  children := by
    rw [assigned_of_live writes.live]
    exact children
  dense valid := writes.full (wf.dense (dense valid))

end

/-! ## Upsert -/

/-- Entering an entry in a slot that is not live writes the slot. -/
theorem register_writes {prior : Slots ν} (wf : prior.WellFormed)
    (here : slots.entries[index]? = some entry)
    (elsewhere : ∀ other, other ≠ index → slots.entries[other]? = prior.entries[other]?)
    (same : slots = { prior with entries := slots.entries, freeList := prior.freeList.erase index })
    (loose : prior.denseIterationOrderValid = false)
    (fresh : prior.idToIndex.lookup entry.key = none) (dead : prior.live index = none) :
    Writes prior (slots.register index entry) index entry ∧
      (slots.register index entry).WellFormed := by
  have unassigned : prior.assigned index = none := by
    rw [assigned, dead]
    rfl
  have writes : Writes prior (slots.register index entry) index entry := by
    refine ⟨here, elsewhere, fun key => ?_, fun old live => ?_, fun other found => ?_, ?_⟩
    · show (slots.idToIndex.insert entry.key index).lookup key = _
      split_ifs with written
      · subst written
        exact AList.lookup_insert _
      · rw [AList.lookup_insert_ne written, same]
    · cases dead.symm.trans live
    · cases fresh.symm.trans found
    · exact congrArg Slots.freeList same
  refine ⟨writes, writes.wellFormed wf ?_ fun valid => ?_⟩
  · unfold register
    cases entry.link with
    | none =>
      have kept : update prior.assigned index none = prior.assigned := by
        rw [← unassigned, update_eq_self]
      rw [kept, same]
      exact wf.children
    | some parent =>
      rw [same]
      exact wf.children.insert unassigned parent
  · have invalid : slots.denseIterationOrderValid = prior.denseIterationOrderValid := by rw [same]
    cases valid.symm.trans (invalid.trans loose)

section

variable (wf : slots.WellFormed)

include wf

theorem allocate_writes (loose : slots.denseIterationOrderValid = false)
    (fresh : slots.idToIndex.lookup entry.key = none) :
    Writes slots ((slots.allocate entry).2.register (slots.allocate entry).1 entry)
        (slots.allocate entry).1 entry ∧
      ((slots.allocate entry).2.register (slots.allocate entry).1 entry).WellFormed := by
  unfold allocate
  cases stack : slots.freeList with
  | nil =>
    refine register_writes wf (by simp) (fun other differs => ?_) (by simp [stack]) loose fresh
      (by simp [live])
    rcases Nat.lt_or_gt_of_ne differs with before | beyond
    · exact List.getElem?_append_left before
    · rw [List.getElem?_eq_none (by simpa using beyond), List.getElem?_eq_none beyond.le]
  | cons index freeList =>
    obtain ⟨short, dead⟩ := wf.free index (by simp [stack])
    exact register_writes wf (by simp [short])
      (fun other differs => List.getElem?_set_ne differs.symm) (by simp [stack]) loose fresh dead

variable {record : EntryRecord ν}

/-- Moving a slot to its new list assigns it the new link. -/
theorem reparent_children (live : slots.live index = some entry) (id : record.id = entry.frn) :
    (slots.reparent index entry record).parentToChildren.Tracks
      (update slots.assigned index
        (ProjectionEntry.ofRecord entry.volumeRowId record).link) := by
  have unlinked := wf.children.remove (parent_of_assigned live)
  unfold reparent
  split_ifs with moved child
  · have linked := unlinked.insert (update_self _ _ _)
      (⟨entry.volumeRowId, record.parentId⟩ : EntryKey)
    rw [update_idem] at linked
    have link : (ProjectionEntry.ofRecord entry.volumeRowId record).link =
        some ⟨entry.volumeRowId, record.parentId⟩ := if_neg child
    rw [link]
    exact linked
  · have link : (ProjectionEntry.ofRecord entry.volumeRowId record).link = none :=
      if_pos (not_not.mp child)
    rw [link]
    exact unlinked
  · rw [not_not] at moved
    have same : (ProjectionEntry.ofRecord entry.volumeRowId record).link = slots.assigned index := by
      rw [assigned, live]
      simp [ProjectionEntry.link, ProjectionEntry.ofRecord, id, moved]
    rw [same, update_eq_self]
    exact wf.children

omit wf in
theorem reparent_eq (slots : Slots ν) (index : Nat) (entry : ProjectionEntry ν)
    (record : EntryRecord ν) :
    slots.reparent index entry record =
      { slots with parentToChildren := (slots.reparent index entry record).parentToChildren } := by
  unfold reparent
  split_ifs <;> rfl

variable {volumeRowId : VolumeRowId} {packed : Slots ν}

theorem upsert_existing (live : slots.live index = some entry)
    (key : entry.key = ⟨volumeRowId, record.id⟩) :
    Writes slots (slots.upsert volumeRowId record) index (.ofRecord volumeRowId record) ∧
      (slots.upsert volumeRowId record).WellFormed := by
  obtain ⟨at_, lookup⟩ := live_eq_some.mp live
  obtain ⟨rfl, id⟩ : entry.volumeRowId = volumeRowId ∧ entry.frn = record.id :=
    EntryKey.mk.inj key
  have short : index < slots.entries.length := (List.getElem?_eq_some_iff.mp at_).1
  have result : slots.upsert entry.volumeRowId record =
      { slots with
        entries := slots.entries.set index (.ofRecord entry.volumeRowId record)
        parentToChildren := (slots.reparent index entry record).parentToChildren } := by
    rw [upsert, ← key, lookup]
    simp only [at_]
    rw [reparent_eq]
  have writes : Writes slots (slots.upsert entry.volumeRowId record) index
      (.ofRecord entry.volumeRowId record) := by
    rw [result]
    refine ⟨by simp [short], fun other differs => List.getElem?_set_ne differs.symm,
      fun other => ?_, fun old is => ?_, fun other is => ?_, ?_⟩
    · split_ifs with same
      · rw [same, ProjectionEntry.key_ofRecord, ← key, lookup]
      · rfl
    · cases live.symm.trans is
      exact key
    · rw [ProjectionEntry.key_ofRecord, ← key, lookup] at is
      exact (Option.some.inj is).symm
    · refine (List.erase_of_not_mem fun mem => ?_).symm
      cases live.symm.trans (wf.free index mem).2
  refine ⟨writes, writes.wellFormed wf ?_ fun valid => ?_⟩
  · rw [result]
    exact reparent_children wf live id.symm
  · rw [result] at valid
    exact valid

theorem upsert_new (fresh : slots.idToIndex.lookup ⟨volumeRowId, record.id⟩ = none) :
    ∃ index, Writes slots (slots.upsert volumeRowId record) index (.ofRecord volumeRowId record) ∧
      (slots.upsert volumeRowId record).WellFormed := by
  have loosened : { slots with denseIterationOrderValid := false }.WellFormed :=
    { wf with dense := nofun }
  obtain ⟨writes, wellFormed⟩ :=
    @allocate_writes _ (.ofRecord volumeRowId record) _ loosened rfl fresh
  rw [upsert, fresh]
  exact ⟨_, { writes with }, wellFormed⟩

/-- **An upsert writes one slot.** -/
theorem upsert_writes (volumeRowId : VolumeRowId) (record : EntryRecord ν) :
    ∃ index, Writes slots (slots.upsert volumeRowId record) index (.ofRecord volumeRowId record) ∧
      (slots.upsert volumeRowId record).WellFormed := by
  cases found : slots.idToIndex.lookup ⟨volumeRowId, record.id⟩ with
  | none => exact upsert_new wf found
  | some index =>
    obtain ⟨entry, live, key⟩ := wf.live_of_lookup found
    exact ⟨index, upsert_existing wf live key⟩

theorem WellFormed.upsert (volumeRowId : VolumeRowId) (record : EntryRecord ν) :
    (slots.upsert volumeRowId record).WellFormed := by
  obtain ⟨_, _, wellFormed⟩ := upsert_writes wf volumeRowId record
  exact wellFormed

theorem Writes.find (writes : Writes slots next index entry) (key : EntryKey) :
    next.find key = if key = entry.key then some entry else slots.find key := by
  unfold Slots.find
  rw [writes.lookup]
  split_ifs with same
  · exact writes.here
  · cases found : slots.idToIndex.lookup key with
    | none => rfl
    | some other =>
      obtain ⟨row, live, is⟩ := wf.live_of_lookup found
      have distinct : other ≠ index := by
        rintro rfl
        exact same (is.symm.trans (writes.own row live))
      exact writes.elsewhere other distinct

theorem find_upsert (volumeRowId : VolumeRowId) (record : EntryRecord ν) (key : EntryKey) :
    (slots.upsert volumeRowId record).find key =
      if key = ⟨volumeRowId, record.id⟩ then some (.ofRecord volumeRowId record)
      else slots.find key := by
  obtain ⟨index, writes, -⟩ := upsert_writes wf volumeRowId record
  exact writes.find wf key

end

/-! ## Removal -/

theorem remove_eq (live : slots.live index = some entry) :
    slots.remove entry.volumeRowId entry.frn =
      { slots with
        denseIterationOrderValid := false
        parentToChildren :=
          slots.parentToChildren.remove ⟨entry.volumeRowId, entry.parentFrn⟩ index
        idToIndex := slots.idToIndex.erase entry.key
        freeList := index :: slots.freeList } := by
  obtain ⟨at_, lookup⟩ := live_eq_some.mp live
  have found : slots.idToIndex.lookup ⟨entry.volumeRowId, entry.frn⟩ = some index := lookup
  rw [remove, found]
  simp only [at_]
  rfl

theorem live_remove (live : slots.live index = some entry) :
    (slots.remove entry.volumeRowId entry.frn).live = update slots.live index none := by
  obtain ⟨at_, lookup⟩ := live_eq_some.mp live
  rw [remove_eq live]
  funext other
  by_cases same : other = index
  · subst same
    simp [Slots.live, at_]
  · rw [update_of_ne same]
    refine live_congr rfl fun key => ?_
    by_cases gone : key = entry.key
    · rw [gone, AList.lookup_erase, lookup]
      exact iff_of_false nofun fun is => same (Option.some.inj is).symm
    · rw [AList.lookup_erase_ne gone]

theorem WellFormed.remove (wf : slots.WellFormed) (volumeRowId : VolumeRowId) (frn : FileId) :
    (slots.remove volumeRowId frn).WellFormed := by
  cases found : slots.idToIndex.lookup ⟨volumeRowId, frn⟩ with
  | none =>
    rw [Slots.remove, found]
    exact wf
  | some index =>
    obtain ⟨entry, live, key⟩ := wf.live_of_lookup found
    obtain ⟨rfl, rfl⟩ := EntryKey.mk.inj key
    have after := live_remove live
    have links := assigned_of_live after
    rw [remove_eq live] at after links ⊢
    refine ⟨fun key other lookup => ?_, fun other mem => ?_, ?_, ?_, nofun⟩
    · by_cases gone : key = entry.key
      · rw [gone, AList.lookup_erase] at lookup
        cases lookup
      · rw [AList.lookup_erase_ne gone] at lookup
        exact wf.occupied key other lookup
    · rw [after]
      rcases List.mem_cons.mp mem with rfl | before
      · exact ⟨(List.getElem?_eq_some_iff.mp (live_eq_some.mp live).1).1, update_self ..⟩
      · obtain ⟨short, dead⟩ := wf.free other before
        refine ⟨short, ?_⟩
        by_cases same : other = index
        · rw [same, update_self]
        · rw [update_of_ne same, dead]
    · refine List.nodup_cons.mpr ⟨fun mem => ?_, wf.freeNodup⟩
      cases live.symm.trans (wf.free index mem).2
    · rw [links]
      exact wf.children.remove (parent_of_assigned live)

theorem find_remove (slots : Slots ν) (volumeRowId : VolumeRowId) (frn : FileId) (key : EntryKey) :
    (slots.remove volumeRowId frn).find key =
      if key = ⟨volumeRowId, frn⟩ then none else slots.find key := by
  unfold Slots.remove Slots.find
  cases found : slots.idToIndex.lookup ⟨volumeRowId, frn⟩ with
  | none =>
    split_ifs with same
    · rw [same, found]
      rfl
    · rfl
  | some index =>
    split_ifs with same
    · rw [same]
      simp
    · simp [AList.lookup_erase_ne same]

/-! ## Compaction -/

/-- A storage without gaps: what packing builds. -/
structure Packed (slots : Slots ν) : Prop where
  wellFormed : slots.WellFormed
  freeList : slots.freeList = []
  full : ∀ index < slots.entries.length, (slots.live index).isSome
  dense : slots.denseIterationOrderValid = false

theorem packed_empty : (empty : Slots ν).Packed where
  wellFormed := wellFormed_empty
  freeList := rfl
  full _ short := by cases short
  dense := rfl

/-- A row goes behind those already packed. -/
theorem Packed.pack (before : packed.Packed) (at_ : slots.entries[index]? = some entry)
    (is : entry.key = key) (fresh : packed.idToIndex.lookup key = none) :
    (slots.pack packed (key, index)).Packed ∧
      ∀ other, (slots.pack packed (key, index)).find other =
        if other = key then some entry else packed.find other := by
  subst is
  have result : slots.pack packed (entry.key, index) =
      (packed.allocate entry).2.register (packed.allocate entry).1 entry := by
    simp [Slots.pack, at_, allocate, before.freeList]
  obtain ⟨writes, wellFormed⟩ := allocate_writes before.wellFormed before.dense fresh
  rw [result]
  refine ⟨⟨wellFormed, ?_, writes.full before.full, ?_⟩, writes.find before.wellFormed⟩
  · rw [writes.freeList, before.freeList]
    rfl
  · simp only [allocate, before.freeList]
    exact before.dense

/-- Packing a list of rows with distinct keys, none of them packed before. -/
theorem Packed.foldl_pack (slots : Slots ν) {rows : List (EntryKey × Nat)}
    (occupied : ∀ row ∈ rows, ∃ entry, slots.entries[row.2]? = some entry ∧ entry.key = row.1)
    (distinct : (rows.map Prod.fst).Nodup) (before : packed.Packed)
    (fresh : ∀ row ∈ rows, packed.find row.1 = none) :
    (rows.foldl slots.pack packed).Packed ∧
      (∀ row ∈ rows, (rows.foldl slots.pack packed).find row.1 = slots.entries[row.2]?) ∧
      ∀ key, key ∉ rows.map Prod.fst → (rows.foldl slots.pack packed).find key = packed.find key := by
  induction rows generalizing packed with
  | nil => exact ⟨before, nofun, fun _ _ => rfl⟩
  | cons row rows ih =>
    obtain ⟨key, index⟩ := row
    obtain ⟨entry, at_, is⟩ := occupied _ (.head _)
    obtain ⟨missing, rest⟩ := List.nodup_cons.mp distinct
    have unused : packed.idToIndex.lookup key = none := by
      cases found : packed.idToIndex.lookup key with
      | none => rfl
      | some other =>
        obtain ⟨old, live, same⟩ := before.wellFormed.live_of_lookup found
        have present := before.wellFormed.find_eq_some.mpr ⟨same, other, live⟩
        cases (fresh _ (.head _)).symm.trans present
    obtain ⟨next, found⟩ := before.pack at_ is unused
    have apart : ∀ row ∈ rows, row.1 ≠ key := by
      rintro row mem rfl
      exact missing (List.mem_map.mpr ⟨row, mem, rfl⟩)
    obtain ⟨packedAll, filled, kept⟩ := ih
      (fun row mem => occupied row (.tail _ mem)) rest next fun row mem => by
        rw [found, if_neg (apart row mem)]
        exact fresh row (.tail _ mem)
    refine ⟨packedAll, fun row mem => ?_, fun other absent => ?_⟩
    · rcases List.mem_cons.mp mem with rfl | later
      · rw [List.foldl_cons, kept _ missing, found, if_pos rfl, at_]
      · exact filled row later
    · rw [List.map_cons, List.mem_cons, not_or] at absent
      rw [List.foldl_cons, kept other absent.2, found, if_neg absent.1]

theorem mem_rows : (key, index) ∈ slots.rows ↔ slots.idToIndex.lookup key = some index := by
  rw [← Option.mem_def, AList.mem_lookup_iff, rows, List.mem_reverse, List.mem_map]
  constructor
  · rintro ⟨⟨_, _⟩, mem, is⟩
    cases is
    exact mem
  · exact fun mem => ⟨_, mem, rfl⟩

theorem nodup_rows (slots : Slots ν) : (slots.rows.map Prod.fst).Nodup := by
  rw [rows, List.map_reverse, List.nodup_reverse, List.map_map]
  exact slots.idToIndex.nodupKeys

/-- **Compaction keeps every row**, also when the child lists are no longer those of the
rows left. -/
theorem compactStorage_spec (slots : Slots ν)
    (occupied : ∀ key index, slots.idToIndex.lookup key = some index →
      ∃ entry, slots.entries[index]? = some entry ∧ entry.key = key) :
    slots.compactStorage.WellFormed ∧
      ∀ key, slots.compactStorage.find key = slots.find key := by
  obtain ⟨packed, filled, kept⟩ := packed_empty.foldl_pack slots
    (fun row mem => occupied row.1 row.2 (mem_rows.mp mem)) slots.nodup_rows fun _ _ => rfl
  refine ⟨{ packed.wellFormed with dense := fun _ => packed.full }, fun key => ?_⟩
  show (slots.rows.foldl slots.pack empty).find key = slots.find key
  cases found : slots.idToIndex.lookup key with
  | none =>
    have absent : key ∉ slots.rows.map Prod.fst := by
      intro mem
      obtain ⟨row, here, rfl⟩ := List.mem_map.mp mem
      cases found.symm.trans (mem_rows.mp here)
    have none : slots.find key = none := by
      rw [find, found]
      rfl
    rw [kept key absent, none]
    rfl
  | some index =>
    rw [filled (key, index) (mem_rows.mpr found), find, found]
    rfl

theorem lookup_eraseIds (slots : Slots ν) (keys : List EntryKey) (key : EntryKey) :
    (slots.eraseIds keys).idToIndex.lookup key =
      if key ∈ keys then none else slots.idToIndex.lookup key := by
  unfold eraseIds
  induction keys generalizing slots with
  | nil => simp
  | cons first keys ih =>
    have step := ih { slots with idToIndex := slots.idToIndex.erase first }
    simp only [List.foldl_cons] at step ⊢
    rw [step]
    by_cases same : key = first
    · subst same
      simp
    · simp [AList.lookup_erase_ne same, same]

/-- Erasing identities and packing the rest removes exactly the erased rows. -/
theorem compactStorage_eraseIds (wf : slots.WellFormed) (keys : List EntryKey) :
    (slots.eraseIds keys).compactStorage.WellFormed ∧
      ∀ key, (slots.eraseIds keys).compactStorage.find key =
        if key ∈ keys then none else slots.find key := by
  obtain ⟨wellFormed, kept⟩ := compactStorage_spec (slots.eraseIds keys) <| by
    intro key index found
    rw [lookup_eraseIds] at found
    split_ifs at found
    exact wf.occupied key index found
  refine ⟨wellFormed, fun key => ?_⟩
  rw [kept, find, lookup_eraseIds]
  split_ifs <;> rfl

/-! ## Renumbering

`CompactEntriesForIterationOrder` moves no row out of memory: the slots change their numbers, and
the key map and the child lists follow. -/

/-- The slots in the order of iteration. -/
def order (slots : Slots ν) : List Nat := slots.rows.map Prod.snd

/-- The entries in the order of iteration. -/
def reordered (slots : Slots ν) : List (ProjectionEntry ν) := slots.order.filterMap (slots.entries[·]?)

/-- Give each slot its place in the order of iteration as its new number. -/
def renumber (slots : Slots ν) : Slots ν where
  entries := slots.reordered
  freeList := slots.freeList
  idToIndex :=
    ⟨slots.idToIndex.entries.map (Sigma.map id fun _ => slots.order.idxOf),
      List.NodupKeys.map₂ _ _ slots.idToIndex.nodupKeys⟩
  parentToChildren parent := (slots.parentToChildren parent).map slots.order.idxOf
  denseIterationOrderValid := true

def compactEntriesForIterationOrder (slots : Slots ν) : Slots ν :=
  if slots.freeList ≠ [] ∨ slots.entries = [] ∨ slots.reordered.length ≠ slots.entries.length then
    slots
  else slots.renumber

theorem mem_order : index ∈ slots.order ↔ ∃ key, slots.idToIndex.lookup key = some index := by
  rw [order, List.mem_map]
  constructor
  · rintro ⟨⟨key, _⟩, row, rfl⟩
    exact ⟨key, mem_rows.mp row⟩
  · rintro ⟨key, found⟩
    exact ⟨(key, index), mem_rows.mpr found, rfl⟩

/-- Two keys never share a slot. -/
theorem WellFormed.key_unique (wf : slots.WellFormed) {key other : EntryKey}
    (found : slots.idToIndex.lookup key = some index)
    (also : slots.idToIndex.lookup other = some index) : key = other := by
  obtain ⟨entry, at_, rfl⟩ := wf.occupied key index found
  obtain ⟨same, at', rfl⟩ := wf.occupied other index also
  obtain rfl : entry = same := Option.some.inj (at_.symm.trans at')
  rfl

theorem WellFormed.nodup_order (wf : slots.WellFormed) : slots.order.Nodup := by
  refine List.Nodup.map_on ?_ (List.Nodup.of_map _ slots.nodup_rows)
  rintro ⟨key, index⟩ row ⟨other, _⟩ row' rfl
  rw [wf.key_unique (mem_rows.mp row) (mem_rows.mp row')]

theorem getElem?_filterMap_of_isSome {α β : Type*} {f : α → Option β} {items : List α}
    (total : ∀ item ∈ items, (f item).isSome) (position : Nat) :
    (items.filterMap f)[position]? = items[position]?.bind f := by
  induction items generalizing position with
  | nil => rfl
  | cons item items ih =>
    obtain ⟨value, is⟩ := Option.isSome_iff_exists.mp (total item (.head _))
    rw [List.filterMap_cons_some is]
    cases position with
    | zero => exact is.symm
    | succ position => exact ih (fun other member => total other (.tail _ member)) position

theorem lookup_renumber (slots : Slots ν) (key : EntryKey) :
    slots.renumber.idToIndex.lookup key = (slots.idToIndex.lookup key).map slots.order.idxOf :=
  List.dlookup_map₂ key

theorem mem_order_of_assigned {parent : EntryKey}
    (linked : slots.assigned index = some parent) : index ∈ slots.order := by
  obtain ⟨entry, live, -⟩ := Option.bind_eq_some_iff.mp linked
  exact mem_order.mpr ⟨_, (live_eq_some.mp live).2⟩

section Renumber

variable (wf : slots.WellFormed) {position : Nat}

include wf

theorem getElem?_reordered (position : Nat) :
    slots.reordered[position]? = slots.order[position]?.bind (slots.entries[·]?) := by
  refine getElem?_filterMap_of_isSome (fun index member => ?_) position
  obtain ⟨key, found⟩ := mem_order.mp member
  obtain ⟨entry, at_, -⟩ := wf.occupied key index found
  rw [at_]
  rfl

theorem getElem?_reordered_idxOf (member : index ∈ slots.order) :
    slots.reordered[slots.order.idxOf index]? = slots.entries[index]? := by
  rw [getElem?_reordered wf, List.getElem?_idxOf member]
  rfl

/-- A row keeps its entry under its new number. -/
theorem live_renumber :
    slots.renumber.live position = some entry ↔
      ∃ index, slots.live index = some entry ∧ slots.order.idxOf index = position := by
  rw [live_eq_some, lookup_renumber, Option.map_eq_some_iff]
  constructor
  · rintro ⟨at_, index, found, rfl⟩
    have member : index ∈ slots.order := mem_order.mpr ⟨_, found⟩
    have here := (getElem?_reordered_idxOf wf member).symm.trans at_
    exact ⟨index, live_eq_some.mpr ⟨here, found⟩, rfl⟩
  · rintro ⟨index, live, rfl⟩
    obtain ⟨at_, found⟩ := live_eq_some.mp live
    exact ⟨(getElem?_reordered_idxOf wf (mem_order.mpr ⟨_, found⟩)).trans at_, index, found, rfl⟩

theorem assigned_renumber {parent : EntryKey} :
    slots.renumber.assigned position = some parent ↔
      ∃ index, slots.assigned index = some parent ∧ slots.order.idxOf index = position := by
  simp only [assigned, Option.bind_eq_some_iff, live_renumber wf]
  constructor
  · rintro ⟨entry, ⟨index, live, is⟩, link⟩
    exact ⟨index, ⟨entry, live, link⟩, is⟩
  · rintro ⟨index, ⟨entry, live, link⟩, is⟩
    exact ⟨entry, ⟨index, live, is⟩, link⟩

theorem full_renumber (short : position < slots.renumber.entries.length) :
    (slots.renumber.live position).isSome := by
  have at_ : slots.reordered[position]? = some slots.reordered[position] :=
    List.getElem?_eq_getElem short
  rw [getElem?_reordered wf, Option.bind_eq_some_iff] at at_
  obtain ⟨index, placed, at_⟩ := at_
  obtain ⟨inside, rfl⟩ := List.getElem?_eq_some_iff.mp placed
  obtain ⟨key, found⟩ := mem_order.mp (List.getElem_mem inside)
  obtain ⟨row, live, -⟩ := wf.live_of_lookup found
  rw [(live_renumber wf).mpr ⟨_, live, List.Nodup.idxOf_getElem wf.nodup_order _ inside⟩]
  rfl

theorem WellFormed.renumber (none_free : slots.freeList = []) : slots.renumber.WellFormed where
  occupied key position found := by
    rw [lookup_renumber, Option.map_eq_some_iff] at found
    obtain ⟨index, found, rfl⟩ := found
    obtain ⟨entry, at_, is⟩ := wf.occupied key index found
    exact ⟨entry, (getElem?_reordered_idxOf wf (mem_order.mpr ⟨key, found⟩)).trans at_, is⟩
  free index member := by
    rw [show slots.renumber.freeList = [] from none_free] at member
    exact absurd member List.not_mem_nil
  freeNodup := by
    rw [show slots.renumber.freeList = [] from none_free]
    exact List.nodup_nil
  children := by
    refine ⟨fun parent position => ?_, fun parent => ?_⟩
    · rw [assigned_renumber wf]
      show position ∈ (slots.parentToChildren parent).map slots.order.idxOf ↔ _
      rw [List.mem_map]
      exact exists_congr fun index => and_congr_left fun _ => wf.children.mem_iff parent index
    · refine List.Nodup.map_on (fun index member other member' same => ?_) (wf.children.nodup parent)
      have here := mem_order_of_assigned ((wf.children.mem_iff parent index).mp member)
      exact (List.idxOf_inj here).mp same
  dense _ _ short := full_renumber wf short

theorem find_renumber (key : EntryKey) : slots.renumber.find key = slots.find key := by
  rw [find, find, lookup_renumber]
  cases found : slots.idToIndex.lookup key with
  | none => rfl
  | some index => exact getElem?_reordered_idxOf wf (mem_order.mpr ⟨key, found⟩)

theorem WellFormed.compactEntriesForIterationOrder :
    slots.compactEntriesForIterationOrder.WellFormed := by
  unfold Slots.compactEntriesForIterationOrder
  split_ifs with kept
  · exact wf
  · rw [not_or, not_not] at kept
    exact wf.renumber kept.1

theorem find_compactEntriesForIterationOrder (key : EntryKey) :
    slots.compactEntriesForIterationOrder.find key = slots.find key := by
  unfold Slots.compactEntriesForIterationOrder
  split_ifs
  · rfl
  · exact find_renumber wf key

end Renumber

/-! ## Every other slot is free -/

/-- A slot that is not live is on the free list. -/
def Tight (slots : Slots ν) : Prop :=
  ∀ index < slots.entries.length, slots.live index = none → index ∈ slots.freeList

theorem tight_empty : (empty : Slots ν).Tight := fun _ short => absurd short (Nat.not_lt_zero _)

theorem tight_of_full (full : ∀ index < slots.entries.length, (slots.live index).isSome) :
    slots.Tight := by
  intro index short dead
  have live := full index short
  rw [dead] at live
  cases live

theorem Tight.upsert (tight : slots.Tight) (wf : slots.WellFormed) (volumeRowId : VolumeRowId)
    (record : EntryRecord ν) : (slots.upsert volumeRowId record).Tight := by
  obtain ⟨index, writes, -⟩ := upsert_writes wf volumeRowId record
  intro other short dead
  have differs : other ≠ index := by
    rintro rfl
    rw [writes.live, update_self] at dead
    cases dead
  rw [writes.live, update_of_ne differs] at dead
  rw [writes.freeList, List.mem_erase_of_ne differs]
  exact tight other ((writes.short differs).mp short) dead

theorem Tight.remove (tight : slots.Tight) (wf : slots.WellFormed) (volumeRowId : VolumeRowId)
    (frn : FileId) : (slots.remove volumeRowId frn).Tight := by
  cases found : slots.idToIndex.lookup ⟨volumeRowId, frn⟩ with
  | none =>
    rw [Slots.remove, found]
    exact tight
  | some index =>
    obtain ⟨entry, live, key⟩ := wf.live_of_lookup found
    obtain ⟨rfl, rfl⟩ := EntryKey.mk.inj key
    intro other short dead
    rw [live_remove live] at dead
    rw [remove_eq live] at short ⊢
    by_cases same : other = index
    · exact List.mem_cons.mpr (.inl same)
    · rw [update_of_ne same] at dead
      exact .tail _ (tight other short dead)

/-- Packing leaves no slot free. -/
theorem full_compactStorage (occupied : ∀ key index, slots.idToIndex.lookup key = some index →
      ∃ entry, slots.entries[index]? = some entry ∧ entry.key = key) :
    ∀ index < slots.compactStorage.entries.length, (slots.compactStorage.live index).isSome :=
  (packed_empty.foldl_pack slots (fun row mem => occupied row.1 row.2 (mem_rows.mp mem))
    slots.nodup_rows fun _ _ => rfl).1.full

theorem Tight.compactEntriesForIterationOrder (tight : slots.Tight) (wf : slots.WellFormed) :
    slots.compactEntriesForIterationOrder.Tight := by
  unfold Slots.compactEntriesForIterationOrder
  split_ifs
  · exact tight
  · exact tight_of_full fun _ short => full_renumber wf short

end Slots

end FastFiles.Index
