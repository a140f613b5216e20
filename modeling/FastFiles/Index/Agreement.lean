import FastFiles.Index.Pipeline

/-!
# Memory agrees with the store

The store merges a batch in SQL, the projection in memory.  Both refine `Table.applyAll`
(`Store.table_applyBatch_self`, `Projects`), so a volume that is not cold has the stored
rows after every operation.  A failed transaction leaves both sides alone, a chunked
removal mirrors its committed part, and the memory policy only makes volumes cold.

* `Agrees` is the invariant: every volume that is not cold has the stored rows.  Each
  operation of the pipeline keeps it (`Agreed.perform`), so it holds in every reachable
  state (`agreed_of_reachable`).
* `Projects` says what a list of changes does to the projection, whichever of its
  operations carry them there; `Agrees.batch` pairs it with the same changes in the store.
* `store_applyBatchChanges` says what a batch leaves in the store when its rules exclude
  some of its rows.

Here the rows hold their names; `Index.PooledPipeline` puts them into the pool.
-/

namespace FastFiles.Index

open Protocol Projection Table Store

/-- Every volume that is not cold has the stored rows. -/
def Agrees (store : Store) (projection : Projection) : Prop :=
  ∀ volumeId, projection.needsReload volumeId = false →
    projection.table volumeId = store.table volumeId

/-- The changes of one volume, applied to what is resident of it. -/
structure Projects (volumeId : VolumeRowId) (changes : List EntryChange)
    (projection next : Projection) : Prop where
  evictedVolumes : next.evictedVolumes = projection.evictedVolumes
  table : next.table volumeId = (projection.table volumeId).applyAll changes
  other : ∀ other, other ≠ volumeId → next.table other = projection.table other

variable {changes : List EntryChange} {volumeId : VolumeRowId} {projection next : Projection}

theorem Projects.needsReload (projects : Projects volumeId changes projection next)
    (other : VolumeRowId) : next.needsReload other = projection.needsReload other := by
  rw [Projection.needsReload, projects.evictedVolumes]
  rfl

variable {store : Store}

theorem Agrees.keeps
    (agrees : Agrees store projection) (keeps : projection.Keeps next) : Agrees store next := by
  intro volumeId hot
  obtain ⟨before, same⟩ := keeps volumeId hot
  rw [same, agrees volumeId before]

/-- **A committed batch on both sides.** -/
theorem Agrees.batch {store nextStore : Store} (agrees : Agrees store projection) {committed : Bool}
    (normal : ∀ change ∈ changes, change.record.Normal)
    (applied : store.applyBatch committed volumeId changes = some nextStore)
    (projects : Projects volumeId changes projection next) : Agrees nextStore next := by
  intro other hot
  rw [projects.needsReload] at hot
  by_cases same : other = volumeId
  · subst same
    rw [projects.table, table_applyBatch_self applied normal, agrees other hot]
  · rw [projects.other other same, table_applyBatch_of_ne applied same, agrees other hot]

/-! ## How batches reach the projection -/

variable {change : EntryChange}

theorem Projects.cons
    {projection middle next : Projection} (first : Projects volumeId [change] projection middle)
    (rest : Projects volumeId changes middle next) :
    Projects volumeId (change :: changes) projection next where
  evictedVolumes := rest.evictedVolumes.trans first.evictedVolumes
  table := by
    rw [rest.table, first.table]
    rfl
  other other differs := (rest.other other differs).trans (first.other other differs)

variable {project : Projection → EntryChange → Projection}

/-- If one change is projected, so is a batch. -/
theorem projects_foldl (one : ∀ change ∈ changes, ∀ projection,
      Projects volumeId [change] projection (project projection change)) (projection : Projection) :
    Projects volumeId changes projection (changes.foldl project projection) := by
  induction changes generalizing projection with
  | nil => exact ⟨rfl, rfl, fun _ _ => rfl⟩
  | cons change changes ih =>
    have first := one change (.head _) projection
    exact first.cons (ih (fun other mem => one other (.tail _ mem)) _)

theorem projects_upsert (volumeId : VolumeRowId) (record : EntryRecord) (projection : Projection) :
    Projects volumeId [changeOfMft record] projection (projection.upsert volumeId record) where
  evictedVolumes := rfl
  table := by
    rw [table_upsert_self]
    show _ = (projection.table volumeId).apply (changeOfMft record)
    rw [apply]
    simp [changeOfMft, EntryRecord.merge_all]
  other _ differs := table_upsert_of_ne projection volumeId record differs

theorem projects_usnChange (volumeId : VolumeRowId) (change : EntryChange)
    (projection : Projection) :
    Projects volumeId [change] projection
      (Pipeline.projectUsnChange volumeId projection change) := by
  obtain ⟨kind, record, fields⟩ := change
  cases kind with
  | upsert =>
    refine ⟨?_, table_upsertPartial_self projection volumeId record fields,
      fun other differs =>
        table_upsertPartial_of_ne projection volumeId record fields differs⟩
    show (projection.upsertPartial volumeId record fields).evictedVolumes = _
    unfold upsertPartial
    split_ifs <;> rfl
  | remove =>
    exact ⟨rfl, table_remove_self projection volumeId record.id,
      fun other differs => table_remove_of_ne projection volumeId record.id differs⟩

/-- Rows removed in bulk. -/
theorem projects_removeBatch (volumeId : VolumeRowId)
    (removals : ∀ change ∈ changes, change.kind = .remove) {frns : List FileId}
    (ids : changes.map (·.record.id) = frns) (projection : Projection) (keep : Bool) :
    Projects volumeId changes projection (projection.removeBatch volumeId frns keep) where
  evictedVolumes := removeBatch_evictedVolumes projection volumeId _ keep
  table := by
    rw [table_removeBatch_self, applyAll_removals _ removals, ids]
  other _ differs := table_removeBatch_of_ne projection volumeId _ keep differs

/-! ## Fallible conversions -/

variable {α β : Type} {convert : α → Option β} {items : List α}

/-- Every value comes from an item, and every item is converted. -/
theorem mem_of_mapM {values : List β} (converted : items.mapM convert = some values) :
    (∀ value ∈ values, ∃ item ∈ items, convert item = some value) ∧
      ∀ item ∈ items, ∃ value ∈ values, convert item = some value := by
  induction items generalizing values with
  | nil =>
    cases converted
    simp
  | cons item items ih =>
    simp only [List.mapM_cons, Option.bind_eq_bind, Option.bind_eq_some_iff, Option.pure_def,
      Option.some.injEq] at converted
    obtain ⟨value, made, rest, later, rfl⟩ := converted
    obtain ⟨sources, results⟩ := ih later
    simp only [List.forall_mem_cons, List.exists_mem_cons_iff]
    exact ⟨⟨.inl made, fun _ mem => .inr (sources _ mem)⟩, .inl made, fun _ mem => .inr (results _ mem)⟩

theorem exists_mapM (convertible : ∀ item ∈ items, (convert item).isSome) :
    ∃ values, items.mapM convert = some values := by
  induction items with
  | nil => exact ⟨[], rfl⟩
  | cons item items ih =>
    obtain ⟨value, made⟩ := Option.isSome_iff_exists.mp (convertible item (.head _))
    obtain ⟨rest, later⟩ := ih fun other mem => convertible other (.tail _ mem)
    exact ⟨value :: rest, by simp [made, later]⟩

/-! ## Epochs and passes leave both sides alone -/

namespace Pipeline

variable (pipeline : Pipeline)

@[simp] theorem advanceEach_sides (volumeIds : List VolumeRowId) (reason : QueryMutationReason) :
    (pipeline.advanceEach volumeIds reason).store = pipeline.store ∧
      (pipeline.advanceEach volumeIds reason).projection = pipeline.projection := by
  induction volumeIds generalizing pipeline with
  | nil => exact ⟨rfl, rfl⟩
  | cons volumeId volumeIds ih => exact ih _

@[simp] theorem advanceResidencyEpochs_sides :
    pipeline.advanceResidencyEpochs.store = pipeline.store ∧
      pipeline.advanceResidencyEpochs.projection = pipeline.projection :=
  pipeline.advanceEach_sides _ _

@[simp] theorem enforceMemoryLimitNow_sides (evictions : List Eviction) :
    (pipeline.enforceMemoryLimitNow evictions).store = pipeline.store ∧
      (pipeline.enforceMemoryLimitNow evictions).projection =
        (pipeline.projection.enforceMemoryLimit evictions).1 := by
  unfold enforceMemoryLimitNow
  dsimp only
  split_ifs <;> simp

@[simp] theorem completeBatch_sides (volumeId : VolumeRowId) (changes : List EntryChange)
    (evictions : List Eviction) :
    (pipeline.completeBatch volumeId changes evictions).store = pipeline.store ∧
      (pipeline.completeBatch volumeId changes evictions).projection =
        (pipeline.projection.enforceMemoryLimit evictions).1 := by
  unfold completeBatch
  dsimp only
  split_ifs <;> exact pipeline.enforceMemoryLimitNow_sides evictions

/-- Both sides of the pipeline agree. -/
def Agreed : Prop := Agrees pipeline.store pipeline.projection

variable {pipeline}

theorem kind_of_mem_ruleExcluded (mem : change ∈ pipeline.ruleExcluded volumeId changes) :
    change.kind = .remove := by
  obtain ⟨_, _, rfl⟩ := List.mem_map.mp mem
  rfl

theorem normal_ruleExcluded (normal : ∀ change ∈ changes, change.record.Normal) :
    ∀ change ∈ pipeline.ruleExcluded volumeId changes, change.record.Normal := by
  intro change mem
  obtain ⟨source, kept, rfl⟩ := List.mem_map.mp mem
  exact normal source (List.mem_filter.mp kept).1

theorem Agreed.applyBatchChanges (agreed : pipeline.Agreed)
    (normal : ∀ change ∈ changes, change.record.Normal)
    (projects : Projects volumeId changes pipeline.projection
      (changes.foldl project pipeline.projection)) (outcome : BatchOutcome) :
    (Pipeline.applyBatchChanges project pipeline volumeId changes outcome).1.Agreed := by
  obtain ⟨-, result⟩ | ⟨store, applied, settled⟩ :=
    applyBatchChanges_cases project pipeline volumeId changes outcome
  · rw [result]
    exact agreed
  · have both : Agrees store (changes.foldl project pipeline.projection) :=
      Agrees.batch agreed normal applied projects
    unfold Agreed
    obtain ⟨-, result⟩ | ⟨last, -, rulesApplied, result⟩ | ⟨-, -, result⟩ := settled
    · simp only [result, completeBatch_sides]
      exact both.keeps (keeps_enforceMemoryLimit _ _)
    · simp only [result, completeBatch_sides]
      refine Agrees.keeps ?_ (keeps_enforceMemoryLimit _ _)
      refine both.batch (normal_ruleExcluded normal) rulesApplied ?_
      exact projects_removeBatch volumeId (fun _ => kind_of_mem_ruleExcluded) rfl _ _
    · simp only [result, enforceMemoryLimitNow_sides]
      exact both.keeps (keeps_enforceMemoryLimit _ _)

/-- **What a batch does to the stored rows**: the committed changes, less some rows that
the rules exclude. -/
theorem store_applyBatchChanges (project : Projection → EntryChange → Projection)
    (normal : ∀ change ∈ changes, change.record.Normal) {outcome : BatchOutcome}
    (applied : pipeline.store.applyBatch outcome.committed volumeId changes = some store) :
    ∃ removed : List FileId,
      (Pipeline.applyBatchChanges project pipeline volumeId changes outcome).1.store.table volumeId =
        ((pipeline.store.table volumeId).applyAll changes).removeAll removed ∧
      ∀ id ∈ removed, id ∈ ((pipeline.projected project store changes).ruleExcluded volumeId
        changes).map (·.record.id) := by
  have committed := table_applyBatch_self applied normal
  obtain ⟨failed, -⟩ | ⟨store', applied', settled⟩ :=
    applyBatchChanges_cases project pipeline volumeId changes outcome
  · cases failed.symm.trans applied
  · obtain rfl : store = store' := Option.some.inj (applied.symm.trans applied')
    obtain ⟨-, result⟩ | ⟨last, -, rulesApplied, result⟩ | ⟨-, -, result⟩ := settled
    · refine ⟨[], ?_, nofun⟩
      simp only [result, completeBatch_sides, removeAll_nil]
      exact committed
    · refine ⟨_, ?_, fun _ mem => mem⟩
      rw [result, (completeBatch_sides ..).1, ← committed,
        ← applyAll_removals _ fun _ => kind_of_mem_ruleExcluded]
      exact table_applyBatch_self rulesApplied (normal_ruleExcluded normal)
    · refine ⟨[], ?_, nofun⟩
      simp only [result, enforceMemoryLimitNow_sides, removeAll_nil]
      exact committed

/-! ## Batches -/

theorem Agreed.applyMftBatchChanges (agreed : pipeline.Agreed) (volumeId : VolumeRowId)
    (records : List EntryRecord) (normal : ∀ record ∈ records, record.Normal)
    (outcome : BatchOutcome) :
    (pipeline.applyMftBatchChanges volumeId (records.map changeOfMft) outcome).1.Agreed := by
  refine agreed.applyBatchChanges ?_ (projects_foldl ?_ _) outcome
  · intro change mem
    obtain ⟨record, here, rfl⟩ := List.mem_map.mp mem
    exact normal record here
  · intro change mem projection
    obtain ⟨record, -, rfl⟩ := List.mem_map.mp mem
    exact projects_upsert volumeId record projection

theorem Agreed.applyUsnBatchChanges (agreed : pipeline.Agreed) (volumeId : VolumeRowId)
    (normal : ∀ change ∈ changes, change.record.Normal) (outcome : BatchOutcome) :
    (pipeline.applyUsnBatchChanges volumeId changes outcome).1.Agreed :=
  agreed.applyBatchChanges normal
    (projects_foldl (fun change _ projection => projects_usnChange volumeId change projection) _)
    outcome

theorem normal_toEntryRecordOfUsnV3 (record : UsnDeltaV3) :
    (toEntryRecordOfUsnV3 record).Normal := by
  intro unknown
  simp only [toEntryRecordOfUsnV3] at unknown ⊢
  rw [unknown]
  rfl

/-- A journal change carries the record it was made from. -/
theorem record_usnChange {reason fieldMask : UInt32} {record : EntryRecord}
    (made : usnChange reason fieldMask record = some change) : change.record = record := by
  unfold usnChange at made
  split_ifs at made
  · cases made
    rfl
  · obtain ⟨fields, -, rfl⟩ := Option.map_eq_some_iff.mp made
    rfl

theorem Agreed.applyUsnBatchV2 (agreed : pipeline.Agreed) (volumeId : VolumeRowId)
    (records : List UsnDeltaV2) (outcome : BatchOutcome) :
    (pipeline.applyUsnBatchV2 volumeId records outcome).1.Agreed := by
  unfold Pipeline.applyUsnBatchV2
  cases converted : records.mapM changeOfUsnV2 with
  | none => exact agreed
  | some changes =>
    refine agreed.applyUsnBatchChanges volumeId (fun change mem => ?_) outcome
    obtain ⟨record, -, made⟩ := (mem_of_mapM converted).1 _ mem
    rw [record_usnChange made]
    exact fun _ => rfl

theorem Agreed.applyUsnBatchV3 (agreed : pipeline.Agreed) (volumeId : VolumeRowId)
    (records : List UsnDeltaV3) (outcome : BatchOutcome) :
    (pipeline.applyUsnBatchV3 volumeId records outcome).1.Agreed := by
  unfold Pipeline.applyUsnBatchV3
  cases converted : records.mapM changeOfUsnV3 with
  | none => exact agreed
  | some changes =>
    refine agreed.applyUsnBatchChanges volumeId (fun change mem => ?_) outcome
    obtain ⟨record, -, made⟩ := (mem_of_mapM converted).1 _ mem
    rw [record_usnChange made]
    exact normal_toEntryRecordOfUsnV3 record

/-! ## Reconciliation -/

/-- The store after a chunked removal lacks exactly the committed ids. -/
theorem commitChunks_spec (volumeId : VolumeRowId) (store : Store) (chunks : List (List FileId))
    (commits : List Bool) :
    (commitChunks volumeId store chunks commits).1.table volumeId =
        (store.table volumeId).removeAll (commitChunks volumeId store chunks commits).2.1 ∧
      ∀ other, other ≠ volumeId →
        (commitChunks volumeId store chunks commits).1.table other = store.table other := by
  induction chunks generalizing store commits with
  | nil => exact ⟨(removeAll_nil _).symm, fun _ _ => rfl⟩
  | cons chunk chunks ih =>
    unfold commitChunks
    cases applied : store.applyBatch (commits.headD true) volumeId (chunk.map removalOf) with
    | none => exact ⟨(removeAll_nil _).symm, fun _ _ => rfl⟩
    | some next =>
      obtain ⟨own, others⟩ := ih next commits.tail
      have normal : ∀ change ∈ chunk.map removalOf, change.record.Normal := by
        intro change mem
        obtain ⟨id, -, rfl⟩ := List.mem_map.mp mem
        exact fun _ => rfl
      have removals : ∀ change ∈ chunk.map removalOf, change.kind = .remove := by
        intro change mem
        obtain ⟨id, -, rfl⟩ := List.mem_map.mp mem
        rfl
      have first := table_applyBatch_self applied normal
      rw [applyAll_removals _ removals, List.map_map] at first
      have ids : (chunk.map ((fun change => change.record.id) ∘ removalOf)) = chunk :=
        List.map_id' chunk
      rw [ids] at first
      refine ⟨?_, fun other differs => ?_⟩
      · show (commitChunks volumeId next chunks commits.tail).1.table volumeId = _
        rw [own, first, ← removeAll_append]
      · show (commitChunks volumeId next chunks commits.tail).1.table other = _
        rw [others other differs, table_applyBatch_of_ne applied differs]

theorem Agreed.finishReconciliationPass (agreed : pipeline.Agreed) (volumeId : VolumeRowId)
    (listed : Bool) (commits : List Bool) :
    (pipeline.finishReconciliationPass volumeId listed commits).Agreed := by
  unfold Pipeline.finishReconciliationPass
  cases pipeline.reconciliationSeen volumeId with
  | none => exact agreed
  | some seen =>
    dsimp only
    split_ifs
    · exact agreed
    all_goals
      obtain ⟨own, others⟩ := commitChunks_spec volumeId pipeline.store
        ((pipeline.reconciliationRemovals volumeId seen).toChunks reconciliationRemovalChunkRows)
        commits
      intro other hot
      have before : pipeline.projection.needsReload other = false := by
        rw [← hot]
        exact congrArg (fun evicted => decide (other ∈ evicted))
          (removeBatch_evictedVolumes ..).symm
      by_cases same : other = volumeId
      · subst same
        exact (table_removeBatch_self ..).trans
          ((congrArg (removeAll · _) (agreed other before)).trans own.symm)
      · exact (table_removeBatch_of_ne _ _ _ _ same).trans
          ((agreed other before).trans (others other same).symm)

/-! ## Volumes -/

section

variable (agreed : pipeline.Agreed)

include agreed

theorem Agreed.of_same {next : Pipeline} (entries : next.store.entries = pipeline.store.entries)
    (projection : next.projection = pipeline.projection) : next.Agreed := by
  intro volumeId hot
  rw [projection] at hot ⊢
  rw [agreed volumeId hot, Store.table, Store.table, entries]

theorem Agreed.resolveVolume (inserted : Bool) (key : VolumeKey) :
    (pipeline.resolveVolume inserted key).1.Agreed := by
  unfold Pipeline.resolveVolume getOrCreateVolume
  cases pipeline.store.volumes.find? (·.key == key) with
  | some metadata => exact agreed.of_same rfl rfl
  | none =>
    cases inserted with
    | false => exact agreed
    | true => exact agreed.of_same rfl rfl

theorem Agreed.setVolumeAvailable (volumeId : VolumeRowId)
    (available : Bool) : (pipeline.setVolumeAvailable volumeId available).Agreed := by
  unfold Pipeline.setVolumeAvailable
  dsimp only
  split_ifs
  · exact agreed.of_same rfl rfl
  · exact agreed.of_same rfl rfl

theorem Agreed.setVolumeRules (volumeId : VolumeRowId)
    (setting : VolumeSetting) : (pipeline.setVolumeRules volumeId setting).Agreed := by
  unfold Pipeline.setVolumeRules
  split_ifs
  · exact agreed
  · exact agreed.of_same rfl rfl

theorem Agreed.forgetVolume (volumeId : VolumeRowId)
    (committed : Bool) : (pipeline.forgetVolume volumeId committed).1.Agreed := by
  unfold Pipeline.forgetVolume Store.forgetVolume
  cases pipeline.store.volumes.find? (·.rowId == volumeId) with
  | none => exact agreed
  | some metadata =>
    dsimp only
    split_ifs
    · exact agreed
    · intro other hot
      show (pipeline.projection.removeVolume volumeId true).table other =
        StoredRows.table (Function.update pipeline.store.entries volumeId ∅ other)
      have before : pipeline.projection.needsReload other = false := by
        rw [← hot]
        exact congrArg (fun evicted => decide (other ∈ evicted))
          (removeBatch_evictedVolumes ..).symm
      by_cases same : other = volumeId
      · subst same
        rw [table_removeVolume_self, Function.update_self]
        rfl
      · rw [Function.update_of_ne same, removeVolume,
          table_removeBatch_of_ne _ _ _ _ same, agreed other before]
        rfl

end

/-! ## Residency and rebuilds -/

theorem Agrees.rebuild {projection : Projection} (agrees : Agrees store projection)
    (volumeId : VolumeRowId) (reload : Reload) :
    Agrees store
      (projection.rebuildVolumeFromStore volumeId (store.forEachEntry volumeId) reload).1 := by
  intro other hot
  obtain ⟨own, others⟩ := rebuildVolumeFromStore_spec projection volumeId _ reload hot
  by_cases same : other = volumeId
  · rw [own same, same]
    exact StoredRows.insertAll_records (store.entries volumeId)
  · obtain ⟨before, rows⟩ := others same
    rw [rows, agrees other before]

section

variable (agreed : pipeline.Agreed)

include agreed

theorem Agreed.exportDirectorySnapshot (volumeId : VolumeRowId)
    (reload : Reload) : (pipeline.exportDirectorySnapshot volumeId reload).Agreed := by
  have reloaded : Agrees pipeline.store (pipeline.reloadEvictedVolume volumeId reload).1 := by
    unfold Pipeline.reloadEvictedVolume
    split_ifs
    · exact agreed
    · exact agreed
    · exact Agrees.rebuild agreed volumeId reload
  unfold Pipeline.exportDirectorySnapshot
  dsimp only
  split_ifs
  · unfold Agreed
    simp only [advanceResidencyEpochs_sides]
    exact reloaded
  · exact reloaded

theorem Agreed.setProjectionMemoryBudget (roots : List EntryKey) :
    (pipeline.setProjectionMemoryBudget roots).Agreed := by
  unfold Agreed Pipeline.setProjectionMemoryBudget
  dsimp only
  simp only [advanceEach_sides]
  exact Agrees.keeps agreed (keeps_enforceMemoryLimit _ _)

theorem Agreed.unloadVolumeFromProjection (volumeId : VolumeRowId) :
    (pipeline.unloadVolumeFromProjection volumeId).Agreed := by
  have unloaded : Agrees pipeline.store (pipeline.projection.evictVolume volumeId) :=
    Agrees.keeps agreed (keeps_evictVolume _ _)
  unfold Pipeline.unloadVolumeFromProjection
  dsimp only
  split_ifs
  · exact unloaded
  · exact unloaded

theorem Agreed.rebuildVolume (volumeId : VolumeRowId)
    (outcome : RebuildOutcome) : (pipeline.rebuildVolume volumeId outcome).1.Agreed := by
  have reloaded := Agrees.rebuild agreed volumeId outcome.reload
  unfold Pipeline.rebuildVolume
  dsimp only
  split_ifs
  iterate 3 exact reloaded
  · split
    · next store applied =>
        refine Agrees.batch reloaded ?_ applied ?_
        · intro change mem
          obtain ⟨record, kept, rfl⟩ := List.mem_map.mp mem
          have stored : pipeline.store.table volumeId record.id = some record :=
            StoredRows.table_eq_some.mpr ⟨(List.mem_filter.mp kept).1, rfl⟩
          exact ((pipeline.store.entries volumeId).normal_table _ _ stored).2
        · refine projects_removeBatch volumeId ?_ ?_ _ _
          · intro change mem
            obtain ⟨record, -, rfl⟩ := List.mem_map.mp mem
            rfl
          · rw [List.map_map]
            rfl
    · exact reloaded

theorem Agreed.rebuildAll (outcomes : VolumeRowId → RebuildOutcome) :
    (pipeline.rebuildAll outcomes).Agreed := by
  have each : ∀ (volumeIds : List VolumeRowId) (pipeline : Pipeline), pipeline.Agreed →
      (rebuildVolumes outcomes pipeline volumeIds).1.Agreed := by
    intro volumeIds
    induction volumeIds with
    | nil => exact fun _ agreed => agreed
    | cons volumeId volumeIds ih =>
      exact fun pipeline agreed => ih _ (agreed.rebuildVolume volumeId (outcomes volumeId))
  unfold Agreed Pipeline.rebuildAll
  dsimp only
  simp only [advanceEach_sides]
  exact each _ pipeline agreed

/-- **Every operation keeps memory and store in agreement.** -/
theorem Agreed.perform (operation : Operation) :
    (pipeline.perform operation).Agreed := by
  cases operation with
  | applyMftBatchV1 volumeId records outcome =>
    have batch := agreed.applyMftBatchChanges volumeId (records.map toEntryRecordOfMftV1)
      (by simp [EntryRecord.Normal, toEntryRecordOfMftV1]) outcome
    rw [List.map_map] at batch
    exact batch
  | applyMftBatchV2 volumeId records outcome =>
    have batch := agreed.applyMftBatchChanges volumeId (records.map toEntryRecordOfMftV2)
      (by simp [EntryRecord.Normal, toEntryRecordOfMftV2]) outcome
    rw [List.map_map] at batch
    exact batch
  | applyUsnBatchV1 volumeId records outcome =>
    exact agreed.applyUsnBatchV2 volumeId (records.map upgradeUsnDeltaV1) outcome
  | applyUsnBatchV2 volumeId records outcome =>
    exact agreed.applyUsnBatchV2 volumeId records outcome
  | applyUsnBatchV3 volumeId records outcome =>
    exact agreed.applyUsnBatchV3 volumeId records outcome
  | beginReconciliationPass _ | abortReconciliationPass _ => exact agreed.of_same rfl rfl
  | finishReconciliationPass volumeId listed commits =>
    exact agreed.finishReconciliationPass volumeId listed commits
  | resolveVolume inserted key => exact agreed.resolveVolume inserted key
  | setVolumeRules volumeId setting => exact agreed.setVolumeRules volumeId setting
  | setVolumeAvailable volumeId available => exact agreed.setVolumeAvailable volumeId available
  | forgetVolume volumeId committed => exact agreed.forgetVolume volumeId committed
  | exportDirectorySnapshot volumeId reload => exact agreed.exportDirectorySnapshot volumeId reload
  | setProjectionMemoryBudget roots => exact agreed.setProjectionMemoryBudget roots
  | unloadVolumeFromProjection volumeId => exact agreed.unloadVolumeFromProjection volumeId
  | setBulkScanActive active => exact agreed
  | rebuildAll outcomes => exact agreed.rebuildAll outcomes

end

/-- **Every reachable pipeline agrees with its store.** -/
theorem agreed_of_reachable {ok : Pipeline → Operation → Prop} (reach : ReachableBy ok pipeline) :
    pipeline.Agreed := by
  refine Transition.Reachable.invariant ?_ ?_ reach
  · rintro _ rfl volumeId -
    rfl
  · rintro before operation _ agreed - step
    cases step
    exact agreed.perform operation

/-- The rows a search sees: resident ones, or the stored ones of a cold volume. -/
def searchableRows (pipeline : Pipeline) (volumeId : VolumeRowId) : Table :=
  if pipeline.projection.needsReload volumeId then pipeline.store.table volumeId
  else pipeline.projection.table volumeId

/-- A search sees the stored rows. -/
theorem Agreed.searchableRows (agreed : pipeline.Agreed) (volumeId : VolumeRowId) :
    pipeline.searchableRows volumeId = pipeline.store.table volumeId := by
  unfold Pipeline.searchableRows
  split_ifs with cold
  · rfl
  · exact agreed volumeId (eq_false_of_ne_true cold)

end Pipeline

end FastFiles.Index
