import FastFiles.Index.ProjectionRuns

/-!
# Renaming rows

No operation on the storage looks at a name: names are copied, and nothing else.  The storage is
therefore written for any type of names, and `rename` replaces every name by its image under a
function.  Each operation commutes with it (`rename_upsert`, `rename_compactStorage`, …), so a
projection whose rows carry ids of pooled names goes through the same states, row by row, as the one
whose rows carry the names themselves.

Which names are left afterwards needs no lemmas of its own.  A property of names is a function to
`Bool`, and that all names have it is an equation of two renamings (`forall_name_iff`), which an
operation that commutes with renaming keeps.
-/

namespace FastFiles.Index

variable {ν μ : Type} (f : ν → μ)

/-! ## Records and rows -/

def EntryRecord.rename (record : EntryRecord ν) : EntryRecord μ :=
  { record with name := f record.name }

namespace ProjectionEntry

def rename (entry : ProjectionEntry ν) : ProjectionEntry μ :=
  { entry with name := f entry.name }

@[simp] theorem key_rename (entry : ProjectionEntry ν) : (entry.rename f).key = entry.key := rfl

end ProjectionEntry

/-! ## Storage -/

namespace Slots

variable (slots : Slots ν) (index : Nat) (entry : ProjectionEntry ν)

def rename : Slots μ :=
  { slots with entries := slots.entries.map (·.rename f) }

theorem rename_congr {f g : ν → μ} (same : ∀ entry ∈ slots.entries, f entry.name = g entry.name) :
    slots.rename f = slots.rename g := by
  unfold rename
  congr 1
  refine List.map_congr_left fun entry mem => ?_
  rw [ProjectionEntry.rename, ProjectionEntry.rename, same entry mem]

@[simp] theorem getElem?_rename :
    (slots.rename f).entries[index]? = slots.entries[index]?.map (·.rename f) :=
  List.getElem?_map ..

theorem find_rename (key : EntryKey) :
    (slots.rename f).find key = (slots.find key).map (·.rename f) := by
  show (slots.idToIndex.lookup key).bind ((slots.rename f).entries[·]?) = _
  rw [find]
  cases slots.idToIndex.lookup key with
  | none => rfl
  | some index => exact slots.getElem?_rename f index

theorem live_rename : (slots.rename f).live index = (slots.live index).map (·.rename f) := by
  rw [live, live, getElem?_rename, Option.filter_map]
  rfl

theorem assigned_rename : (slots.rename f).assigned = slots.assigned := by
  funext index
  rw [assigned, assigned, live_rename, Option.bind_map]
  rfl

/-- The storage invariant speaks of keys and links only. -/
theorem wellFormed_rename_iff : (slots.rename f).WellFormed ↔ slots.WellFormed := by
  have occupied : ∀ (key : EntryKey) (index : Nat),
      (∃ entry : ProjectionEntry μ, (slots.rename f).entries[index]? = some entry ∧ entry.key = key) ↔
        ∃ entry : ProjectionEntry ν, slots.entries[index]? = some entry ∧ entry.key = key := by
    intro key index
    rw [getElem?_rename]
    cases slots.entries[index]? with
    | none => simp
    | some entry => simp
  have dead : ∀ index, (slots.rename f).live index = none ↔ slots.live index = none := by
    intro index
    rw [live_rename, Option.map_eq_none_iff]
  have alive : ∀ index, ((slots.rename f).live index).isSome ↔ (slots.live index).isSome := by
    intro index
    rw [live_rename, Option.isSome_map]
  have length : (slots.rename f).entries.length = slots.entries.length := List.length_map ..
  constructor
  · rintro ⟨pointed, free, nodup, children, dense⟩
    rw [assigned_rename] at children
    exact ⟨fun key index found => (occupied key index).mp (pointed key index found),
      fun index mem => ⟨length ▸ (free index mem).1, (dead index).mp (free index mem).2⟩, nodup,
      children, fun valid index short => (alive index).mp (dense valid index (length.symm ▸ short))⟩
  · rintro ⟨pointed, free, nodup, children, dense⟩
    refine ⟨fun key index found => (occupied key index).mpr (pointed key index found),
      fun index mem => ⟨length.symm ▸ (free index mem).1, (dead index).mpr (free index mem).2⟩, nodup,
      ?_, fun valid index short => (alive index).mpr (dense valid index (length ▸ short))⟩
    rw [assigned_rename]
    exact children

/-- Rows that differ in their names only are well formed together. -/
theorem WellFormed.of_unnamed {slots : Slots ν} {other : Slots μ} (wf : slots.WellFormed)
    (same : other.rename (fun _ => ()) = slots.rename fun _ => ()) : other.WellFormed := by
  rw [← wellFormed_rename_iff fun _ => (), same, wellFormed_rename_iff]
  exact wf

theorem lookup_rename (key : EntryKey) :
    (slots.rename f).idToIndex.lookup key = slots.idToIndex.lookup key := rfl

theorem rename_register :
    (slots.register index entry).rename f = (slots.rename f).register index (entry.rename f) := rfl

theorem rename_allocate : (slots.rename f).allocate (entry.rename f) =
    ((slots.allocate entry).1, (slots.allocate entry).2.rename f) := by
  unfold allocate rename
  cases slots.freeList with
  | nil => simp
  | cons index freeList => simp [List.map_set]

theorem rename_reparent (record : EntryRecord ν) : (slots.reparent index entry record).rename f =
    (slots.rename f).reparent index (entry.rename f) (record.rename f) := by
  unfold reparent
  rw [apply_ite (rename f)]
  rfl

theorem rename_upsert (volumeRowId : VolumeRowId) (record : EntryRecord ν) :
    (slots.upsert volumeRowId record).rename f =
      (slots.rename f).upsert volumeRowId (record.rename f) := by
  unfold upsert
  rw [lookup_rename, show (record.rename f).id = record.id from rfl]
  cases slots.idToIndex.lookup ⟨volumeRowId, record.id⟩ with
  | none =>
    dsimp only
    have loosened : rename f { slots with denseIterationOrderValid := false } =
      { slots.rename f with denseIterationOrderValid := false } := rfl
    rw [rename_register, ← loosened,
      show ProjectionEntry.ofRecord volumeRowId (record.rename f) =
        (ProjectionEntry.ofRecord volumeRowId record).rename f from rfl, rename_allocate]
  | some index =>
    dsimp only
    rw [getElem?_rename]
    cases slots.entries[index]? with
    | none => rfl
    | some entry =>
      rw [Option.map_some]
      dsimp only
      rw [← rename_reparent]
      simp only [rename, List.map_set]
      rfl

theorem rename_remove (volumeRowId : VolumeRowId) (frn : FileId) :
    (slots.remove volumeRowId frn).rename f = (slots.rename f).remove volumeRowId frn := by
  unfold remove
  rw [lookup_rename]
  cases slots.idToIndex.lookup ⟨volumeRowId, frn⟩ with
  | none => rfl
  | some index =>
    dsimp only
    rw [getElem?_rename]
    cases slots.entries[index]? <;> rfl

theorem rename_removeAll (keys : List EntryKey) :
    (slots.removeAll keys).rename f = (slots.rename f).removeAll keys := by
  induction keys generalizing slots with
  | nil => rfl
  | cons key keys ih =>
    show ((slots.remove _ _).removeAll keys).rename f = ((slots.rename f).remove _ _).removeAll keys
    rw [ih, rename_remove]

theorem rename_pack (packed : Slots ν) (row : EntryKey × Nat) :
    (slots.pack packed row).rename f = (slots.rename f).pack (packed.rename f) row := by
  unfold pack
  rw [getElem?_rename]
  cases slots.entries[row.2]? with
  | none => rfl
  | some entry =>
    rw [Option.map_some]
    simp only [register, rename, List.map_append, List.length_map]
    rfl

theorem rename_compactStorage :
    slots.compactStorage.rename f = (slots.rename f).compactStorage := by
  have packs : ∀ (rows : List (EntryKey × Nat)) (packed : Slots ν),
      (rows.foldl slots.pack packed).rename f =
        rows.foldl (slots.rename f).pack (packed.rename f) := by
    intro rows
    induction rows with
    | nil => exact fun _ => rfl
    | cons row rows ih =>
      intro packed
      rw [List.foldl_cons, List.foldl_cons, ih, rename_pack]
  have packed := packs slots.rows empty
  show { (slots.rows.foldl slots.pack empty).rename f with denseIterationOrderValid := true } = _
  rw [packed]
  rfl

theorem subtreeKeys_rename (pending visited : List EntryKey) :
    (slots.rename f).subtreeKeys pending visited = slots.subtreeKeys pending visited := by
  have attributes : ∀ index : Nat,
      (slots.rename f).entries[index]?.elim 0 (fun entry : ProjectionEntry μ => entry.attributes) =
        slots.entries[index]?.elim 0 fun entry : ProjectionEntry ν => entry.attributes := by
    intro index
    rw [getElem?_rename]
    cases slots.entries[index]? <;> rfl
  have keys : ∀ indices, (slots.rename f).keysAt indices = slots.keysAt indices := by
    intro indices
    simp only [keysAt, getElem?_rename, Option.map_map]
    rfl
  fun_induction subtreeKeys slots pending visited with
  | case1 => rw [subtreeKeys]
  | case2 visited current pending seen ih => rw [subtreeKeys, if_pos seen, ih]
  | case3 visited current pending fresh absent ih =>
    rw [subtreeKeys, if_neg fresh]
    split
    · exact ih
    · rename_i index found
      cases absent.symm.trans found
  | case4 visited current pending fresh index present file ih =>
    rw [subtreeKeys, if_neg fresh]
    split
    · rename_i absent
      cases present.symm.trans absent
    · rename_i other found
      cases present.symm.trans found
      rw [attributes, if_pos file, ih]
  | case5 visited current pending fresh index present directory ih =>
    rw [subtreeKeys, if_neg fresh]
    split
    · rename_i absent
      cases present.symm.trans absent
    · rename_i other found
      cases present.symm.trans found
      rw [attributes, if_neg directory, keys]
      exact congrArg _ ih

theorem rename_evict (keys : List EntryKey) :
    (slots.evict keys).rename f = (slots.rename f).evict keys := by
  unfold evict
  split_ifs
  · exact rename_compactStorage f (slots.eraseIds keys)
  · rw [rename_compactStorage, rename_removeAll]

theorem rename_compactEntriesForIterationOrder :
    slots.compactEntriesForIterationOrder.rename f =
      (slots.rename f).compactEntriesForIterationOrder := by
  have reordered : (slots.rename f).reordered = slots.reordered.map (·.rename f) := by
    show slots.order.filterMap ((slots.rename f).entries[·]?) = _
    simp only [Slots.reordered, List.map_filterMap, getElem?_rename]
  have lengths : (slots.rename f).reordered.length ≠ (slots.rename f).entries.length ↔
      slots.reordered.length ≠ slots.entries.length := by
    rw [reordered, List.length_map, rename, List.length_map]
  have vacant : (slots.rename f).entries = [] ↔ slots.entries = [] := List.map_eq_nil_iff
  have same : (slots.rename f).freeList ≠ [] ∨ (slots.rename f).entries = [] ∨
      (slots.rename f).reordered.length ≠ (slots.rename f).entries.length ↔
        slots.freeList ≠ [] ∨ slots.entries = [] ∨ slots.reordered.length ≠ slots.entries.length :=
    or_congr Iff.rfl (or_congr vacant lengths)
  unfold compactEntriesForIterationOrder
  by_cases stays : slots.freeList ≠ [] ∨ slots.entries = [] ∨
      slots.reordered.length ≠ slots.entries.length
  · rw [if_pos stays, if_pos (same.mpr stays)]
  · rw [if_neg stays, if_neg (mt same.mp stays)]
    show _ = Slots.mk (slots.rename f).reordered _ _ _ _
    rw [reordered]
    rfl

/-- What renaming says about the names: all of them have a property if it takes each to `true`. -/
theorem forall_name_iff {p : ν → Prop} [DecidablePred p] :
    slots.rename (fun name => decide (p name)) = slots.rename (fun _ => true) ↔
      ∀ entry ∈ slots.entries, p entry.name := by
  constructor
  · intro same entry mem
    have rows := List.map_inj_left.mp (congrArg Slots.entries same) entry mem
    exact of_decide_eq_true (congrArg ProjectionEntry.name rows)
  · exact fun all => slots.rename_congr fun entry mem => decide_eq_true (all entry mem)

end Slots

/-! ## The projection -/

namespace Projection

variable (projection : Projection ν) (volumeRowId : VolumeRowId)

def rename : Projection μ where
  slots := projection.slots.rename f
  evictedVolumes := projection.evictedVolumes
  filenameIndexValid := projection.filenameIndexValid
  bulkScanActive := projection.bulkScanActive
  wellFormed := (projection.slots.wellFormed_rename_iff f).mpr projection.wellFormed

theorem rename_congr {f g : ν → μ}
    (same : ∀ entry ∈ projection.slots.entries, f entry.name = g entry.name) :
    projection.rename f = projection.rename g :=
  Projection.ext (projection.slots.rename_congr same) rfl rfl rfl

theorem find_rename (frn : FileId) : (projection.rename f).find volumeRowId frn =
    (projection.find volumeRowId frn).map (·.rename f) :=
  projection.slots.find_rename f ⟨volumeRowId, frn⟩

theorem rename_upsert (record : EntryRecord ν) : (projection.upsert volumeRowId record).rename f =
    (projection.rename f).upsert volumeRowId (record.rename f) :=
  Projection.ext (projection.slots.rename_upsert f volumeRowId record) rfl rfl rfl

theorem rename_remove (frn : FileId) : (projection.remove volumeRowId frn).rename f =
    (projection.rename f).remove volumeRowId frn :=
  Projection.ext (projection.slots.rename_remove f volumeRowId frn) rfl rfl rfl

theorem rename_removeBatch (frns : List FileId) (keep : Bool) :
    (projection.removeBatch volumeRowId frns keep).rename f =
      (projection.rename f).removeBatch volumeRowId frns keep := by
  unfold removeBatch
  split_ifs
  · rfl
  · exact Projection.ext (projection.slots.rename_removeAll f _) rfl rfl rfl

theorem rename_compactStorage :
    projection.compactStorage.rename f = (projection.rename f).compactStorage :=
  Projection.ext (projection.slots.rename_compactStorage f) rfl rfl rfl

theorem rename_evict (eviction : Eviction) : (projection.rename f).evict eviction =
    ((projection.evict eviction).1.rename f, (projection.evict eviction).2) := by
  cases eviction with
  | subtree root =>
    refine Prod.ext ?_ rfl
    show (projection.rename f).evictSubtree root = (projection.evictSubtree root).rename f
    unfold evictSubtree
    rw [apply_ite (rename f)]
    refine if_congr Iff.rfl rfl (Projection.ext ?_ rfl rfl rfl)
    show (projection.slots.rename f).evict ((projection.slots.rename f).subtreeKeys [root] []) = _
    rw [Slots.subtreeKeys_rename]
    exact (projection.slots.rename_evict f _).symm
  | volume volumeRowId =>
    refine Prod.ext ?_ rfl
    show (projection.rename f).evictVolume volumeRowId = (projection.evictVolume volumeRowId).rename f
    unfold evictVolume
    rw [apply_ite (rename f)]
    exact if_congr Iff.rfl rfl
      (Projection.ext ((projection.slots.eraseIds _).rename_compactStorage f).symm rfl rfl rfl)

end Projection

end FastFiles.Index
