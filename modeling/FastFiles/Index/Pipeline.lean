import FastFiles.Foundations.Transition
import FastFiles.Index.Paths
import FastFiles.Index.Projection
import FastFiles.Index.Store

/-!
# The index pipeline

`IndexPipeline.cpp`: the operations that take the pipeline's lock and change the store,
the projection, the rules or the epochs.  Each runs to completion under the lock, so it is
one function on `Pipeline`; searches interleave between them.

What the operations read from their environment is explicit: whether each transaction
commits, what the memory policy evicts, how a reload goes (`BatchOutcome`,
`RebuildOutcome`).  An `Operation` carries its share of it, so that a list of operations
is one history of the pipeline.
-/

namespace FastFiles.Index

open Protocol Transition Projection

/-! ## State -/

inductive QueryMutationReason
  | entryMutation
  | volumeConfiguration
  | volumeVisibility
  | rebuild
  | forget
  | projectionResidency
  | lifecycle
deriving DecidableEq

structure Pipeline where
  store : Store
  projection : Projection
  queryVisibleEpoch : Nat
  dependencySetEpoch : Nat
  volumeDataEpochs : AList fun _ : VolumeRowId => Nat
  volumeConfigurationEpochs : AList fun _ : VolumeRowId => Nat
  volumeRules : VolumeRowId → Option VolumeSetting
  /-- The ids observed by the running reconciliation pass of a volume. -/
  reconciliationSeen : VolumeRowId → Option (List FileId)

namespace Pipeline

/-- A pipeline that has opened an empty database. -/
def initial : Pipeline where
  store := .empty
  projection := .empty
  queryVisibleEpoch := 2
  dependencySetEpoch := 2
  volumeDataEpochs := ∅
  volumeConfigurationEpochs := ∅
  volumeRules := fun _ => none
  reconciliationSeen := fun _ => none

/-! ## Epochs -/

/-- The reasons that also mark a volume's configuration as changed. -/
def QueryMutationReason.reconfigures : QueryMutationReason → Bool
  | .volumeConfiguration | .volumeVisibility | .forget => true
  | _ => false

variable (pipeline : Pipeline) (volumeId : VolumeRowId)

def advanceQueryVisibleEpoch (reason : QueryMutationReason) (dependencySetChanged : Bool) :
    Pipeline :=
  let nextEpoch := pipeline.queryVisibleEpoch + 1
  { pipeline with
    queryVisibleEpoch := nextEpoch
    volumeDataEpochs :=
      if volumeId ≠ 0 then pipeline.volumeDataEpochs.insert volumeId nextEpoch
      else pipeline.volumeDataEpochs
    volumeConfigurationEpochs :=
      if volumeId ≠ 0 ∧ QueryMutationReason.reconfigures reason then
        pipeline.volumeConfigurationEpochs.insert volumeId nextEpoch
      else pipeline.volumeConfigurationEpochs
    dependencySetEpoch :=
      if dependencySetChanged || reason == .forget then pipeline.dependencySetEpoch + 1
      else pipeline.dependencySetEpoch }

def advanceEach (volumeIds : List VolumeRowId) (reason : QueryMutationReason) : Pipeline :=
  volumeIds.foldl (fun pipeline volumeId => pipeline.advanceQueryVisibleEpoch volumeId reason false)
    pipeline

/-- Every volume that has a data epoch, then the set of volumes. -/
def advanceResidencyEpochs : Pipeline :=
  (pipeline.advanceEach pipeline.volumeDataEpochs.keys .projectionResidency).advanceQueryVisibleEpoch
    0 .projectionResidency true

/-- The epoch of a volume's rows; a missing one reads as zero. -/
def dataEpoch : Nat := (pipeline.volumeDataEpochs.lookup volumeId).getD 0

def configurationEpoch : Nat := (pipeline.volumeConfigurationEpochs.lookup volumeId).getD 0

/-- What a search captures of a volume's epochs. -/
def epochsOf : Nat × Nat := (pipeline.dataEpoch volumeId, pipeline.configurationEpoch volumeId)

/-! ## Batches -/

/-- What a batch meets: its commit, the commit of the rows its rules exclude, and the
victims of the memory policy. -/
structure BatchOutcome where
  committed : Bool
  pruned : Bool
  evictions : List Eviction
deriving DecidableEq

def enforceMemoryLimitNow (evictions : List Eviction) : Pipeline :=
  let (projection, ran) := pipeline.projection.enforceMemoryLimit evictions
  let enforced := { pipeline with projection }
  if ran then enforced.advanceResidencyEpochs else enforced

def isEntryIncluded (pipeline : Pipeline) (volumeId : VolumeRowId) (frn : FileId) : Bool :=
  Index.isEntryIncluded (pipeline.volumeRules volumeId) (pipeline.projection.table volumeId) frn

/-- Ids observed while a pass is running. -/
def markSeen (ids : List FileId) : Pipeline :=
  { pipeline with
    reconciliationSeen := Function.update pipeline.reconciliationSeen volumeId
      ((pipeline.reconciliationSeen volumeId).map (· ++ ids)) }

variable (changes : List EntryChange) (project : Projection → EntryChange → Projection)

/-- The upserts of a batch that the rules exclude, as removals. -/
def ruleExcluded : List EntryChange :=
  (changes.filter fun change =>
    change.kind == .upsert && !pipeline.isEntryIncluded volumeId change.record.id).map
      fun change => { kind := .remove, record := change.record }

def ruleIncluded : List FileId :=
  (changes.filter fun change =>
    change.kind == .upsert && pipeline.isEntryIncluded volumeId change.record.id).map (·.record.id)

/-- The end of a batch that reports success. -/
def completeBatch (evictions : List Eviction) : Pipeline :=
  let enforced := pipeline.enforceMemoryLimitNow evictions
  if changes = [] then enforced
  else enforced.advanceQueryVisibleEpoch volumeId .entryMutation false

/-- A committed batch reaches the projection. -/
def projected (store : Store) (changes : List EntryChange) : Pipeline :=
  { pipeline with store, projection := changes.foldl project pipeline.projection }

/-- The rules are evaluated on the projected rows. -/
def gated : Pipeline :=
  pipeline.markSeen volumeId (pipeline.ruleIncluded volumeId changes)

/-- Excluded rows whose removal is committed leave the projection. -/
def pruned (store : Store) (excluded : List EntryChange) : Pipeline :=
  { pipeline with
    store
    projection := pipeline.projection.removeBatch volumeId (excluded.map (·.record.id)) true }

/-- Commit, project, gate by the rules, prune, enforce.  The two kinds of batch differ in
how a change reaches the projection. -/
def applyBatchChanges (pipeline : Pipeline) (volumeId : VolumeRowId) (changes : List EntryChange)
    (outcome : BatchOutcome) : Pipeline × Bool :=
  match pipeline.store.applyBatch outcome.committed volumeId changes with
  | none => (pipeline, false)
  | some store =>
    let applied := pipeline.projected project store changes
    let excluded := applied.ruleExcluded volumeId changes
    if excluded = [] then
      ((applied.gated volumeId changes).completeBatch volumeId changes outcome.evictions, true)
    else
      match store.applyBatch outcome.pruned volumeId excluded with
      | some store =>
        (((applied.gated volumeId changes).pruned volumeId store excluded).completeBatch
          volumeId changes outcome.evictions, true)
      | none => ((applied.gated volumeId changes).enforceMemoryLimitNow outcome.evictions, false)

/-- **What a batch can do.** -/
theorem applyBatchChanges_cases (pipeline : Pipeline) (volumeId : VolumeRowId)
    (changes : List EntryChange) (outcome : BatchOutcome) :
    (pipeline.store.applyBatch outcome.committed volumeId changes = none ∧
      applyBatchChanges project pipeline volumeId changes outcome = (pipeline, false)) ∨
    ∃ store, pipeline.store.applyBatch outcome.committed volumeId changes = some store ∧
      let applied := pipeline.projected project store changes
      let excluded := applied.ruleExcluded volumeId changes
      (excluded = [] ∧
        applyBatchChanges project pipeline volumeId changes outcome =
          ((applied.gated volumeId changes).completeBatch volumeId changes outcome.evictions,
            true)) ∨
      (∃ last, excluded ≠ [] ∧ store.applyBatch outcome.pruned volumeId excluded = some last ∧
        applyBatchChanges project pipeline volumeId changes outcome =
          (((applied.gated volumeId changes).pruned volumeId last excluded).completeBatch
            volumeId changes outcome.evictions, true)) ∨
      (excluded ≠ [] ∧ store.applyBatch outcome.pruned volumeId excluded = none ∧
        applyBatchChanges project pipeline volumeId changes outcome =
          ((applied.gated volumeId changes).enforceMemoryLimitNow outcome.evictions, false)) := by
  unfold applyBatchChanges
  cases pipeline.store.applyBatch outcome.committed volumeId changes with
  | none => exact .inl ⟨rfl, rfl⟩
  | some store =>
    refine .inr ⟨store, rfl, ?_⟩
    dsimp only
    split_ifs with none
    · exact .inl ⟨none, rfl⟩
    · cases store.applyBatch outcome.pruned volumeId
          ((pipeline.projected project store changes).ruleExcluded volumeId changes) with
      | some last => exact .inr (.inl ⟨last, none, rfl, rfl⟩)
      | none => exact .inr (.inr ⟨none, rfl, rfl⟩)

def applyMftBatchChanges (outcome : BatchOutcome) : Pipeline × Bool :=
  applyBatchChanges (fun projection change => projection.upsert volumeId change.record)
    pipeline volumeId changes outcome

/-- How a journal change reaches the projection. -/
def projectUsnChange (projection : Projection) (change : EntryChange) : Projection :=
  match change.kind with
  | .upsert => projection.upsertPartial volumeId change.record change.fields
  | .remove => projection.remove volumeId change.record.id

def applyUsnBatchChanges (outcome : BatchOutcome) : Pipeline × Bool :=
  applyBatchChanges (projectUsnChange volumeId) pipeline volumeId changes outcome

def applyMftBatchV1 (records : List MftRecordV1) (outcome : BatchOutcome) : Pipeline × Bool :=
  pipeline.applyMftBatchChanges volumeId
    (records.map fun record => changeOfMft (toEntryRecordOfMftV1 record)) outcome

def applyMftBatchV2 (records : List MftRecordV2) (outcome : BatchOutcome) : Pipeline × Bool :=
  pipeline.applyMftBatchChanges volumeId
    (records.map fun record => changeOfMft (toEntryRecordOfMftV2 record)) outcome

def applyUsnBatchV2 (records : List UsnDeltaV2) (outcome : BatchOutcome) : Pipeline × Bool :=
  match records.mapM changeOfUsnV2 with
  | none => (pipeline, false)
  | some changes => pipeline.applyUsnBatchChanges volumeId changes outcome

def applyUsnBatchV1 (records : List UsnDeltaV1) (outcome : BatchOutcome) : Pipeline × Bool :=
  pipeline.applyUsnBatchV2 volumeId (records.map upgradeUsnDeltaV1) outcome

def applyUsnBatchV3 (records : List UsnDeltaV3) (outcome : BatchOutcome) : Pipeline × Bool :=
  match records.mapM changeOfUsnV3 with
  | none => (pipeline, false)
  | some changes => pipeline.applyUsnBatchChanges volumeId changes outcome

/-! ## Reconciliation passes -/

def beginReconciliationPass : Pipeline :=
  { pipeline with
    reconciliationSeen := Function.update pipeline.reconciliationSeen volumeId (some []) }

def abortReconciliationPass : Pipeline :=
  { pipeline with
    reconciliationSeen := Function.update pipeline.reconciliationSeen volumeId none }

def reconciliationRemovalChunkRows : Nat := 5000

/-- A removal by id; the rest of the marker keeps its defaults. -/
def removalOf (id : FileId) : EntryChange where
  kind := .remove
  record := .blank id

/-- Chunks are committed one after the other until one fails: the store, the ids that were
committed, and whether all were. -/
def commitChunks (volumeId : VolumeRowId) (store : Store) :
    List (List FileId) → List Bool → Store × List FileId × Bool
  | [], _ => (store, [], true)
  | chunk :: chunks, commits =>
    match store.applyBatch (commits.headD true) volumeId (chunk.map removalOf) with
    | none => (store, [], false)
    | some next =>
      let (last, ids, all) := commitChunks volumeId next chunks commits.tail
      (last, chunk ++ ids, all)

/-- The stored ids a pass removes: not observed, or excluded by the rules. -/
def reconciliationRemovals (seen : List FileId) : List FileId :=
  (pipeline.store.listEntryIds volumeId).filter fun id =>
    decide (id ∉ seen) || !pipeline.isEntryIncluded volumeId id

def finishReconciliationPass (listed : Bool) (commits : List Bool) : Pipeline :=
  match pipeline.reconciliationSeen volumeId with
  | none => pipeline
  | some seen =>
    if !listed then pipeline
    else
      let removals := pipeline.reconciliationRemovals volumeId seen
      let (store, committedIds, secondaryApplied) := commitChunks volumeId pipeline.store
        (removals.toChunks reconciliationRemovalChunkRows) commits
      let removed := { pipeline with
        store
        projection := pipeline.projection.removeBatch volumeId committedIds true }
      let finished := if secondaryApplied then removed.abortReconciliationPass volumeId else removed
      if committedIds = [] then finished
      else finished.advanceQueryVisibleEpoch volumeId .entryMutation false

/-! ## Volumes -/

def resolveVolume (inserted : Bool) (key : VolumeKey) : Pipeline × VolumeRowId :=
  match pipeline.store.getOrCreateVolume inserted key with
  | none => (pipeline, 0)
  | some (volumeId, created, store) =>
    let resolved := { pipeline with store }
    if created then
      (resolved.advanceQueryVisibleEpoch volumeId .volumeConfiguration true, volumeId)
    else (resolved, volumeId)

def setVolumeRules (setting : VolumeSetting) : Pipeline :=
  if pipeline.volumeRules volumeId = some setting then pipeline
  else
    { pipeline with
      volumeRules := Function.update pipeline.volumeRules volumeId (some setting)
    }.advanceQueryVisibleEpoch volumeId .volumeConfiguration true

def setVolumeAvailable (pipeline : Pipeline) (volumeId : VolumeRowId) (available : Bool) :
    Pipeline :=
  let (store, visibilityChanged) := pipeline.store.setVolumeAvailable volumeId available
  let changed := { pipeline with store }
  if visibilityChanged then changed.advanceQueryVisibleEpoch volumeId .volumeVisibility true
  else changed

def forgetVolume (pipeline : Pipeline) (volumeId : VolumeRowId) (committed : Bool) :
    Pipeline × Bool :=
  match pipeline.store.forgetVolume committed volumeId with
  | none => (pipeline, false)
  | some store =>
    let forgotten := { pipeline.abortReconciliationPass volumeId with
      store
      projection := pipeline.projection.removeVolume volumeId true }
    (forgotten.advanceQueryVisibleEpoch volumeId .forget true, true)

/-! ## Residency -/

/-- `ReloadEvictedVolume`; a cold volume without a row in `volumes` stays cold. -/
def reloadEvictedVolume (reload : Reload) : Projection × Bool :=
  if !pipeline.projection.needsReload volumeId then (pipeline.projection, true)
  else if !pipeline.store.hasVolume volumeId then (pipeline.projection, false)
  else
    pipeline.projection.rebuildVolumeFromStore volumeId (pipeline.store.forEachEntry volumeId) reload

/-- The reload at the head of `ExportDirectorySnapshot`. -/
def exportDirectorySnapshot (reload : Reload) : Pipeline :=
  let wasCold := pipeline.projection.needsReload volumeId
  let reloaded := { pipeline with projection := (pipeline.reloadEvictedVolume volumeId reload).1 }
  if wasCold then reloaded.advanceResidencyEpochs else reloaded

def setProjectionMemoryBudget (roots : List EntryKey) : Pipeline :=
  let projection := (pipeline.projection.enforceMemoryLimit
    (roots.map Eviction.subtree)).1
  let changed := (pipeline.store.volumes.map (·.rowId)).filter fun volumeId =>
    pipeline.projection.needsReload volumeId != projection.needsReload volumeId
  { pipeline with projection }.advanceEach changed .projectionResidency

def unloadVolumeFromProjection : Pipeline :=
  let projection := pipeline.projection.evictVolume volumeId
  let unloaded := { pipeline with projection }
  if !pipeline.projection.needsReload volumeId && projection.needsReload volumeId then
    unloaded.advanceQueryVisibleEpoch volumeId .projectionResidency false
  else unloaded

def setBulkScanActive (pipeline : Pipeline) (active : Bool) : Pipeline :=
  { pipeline with projection := pipeline.projection.setBulkScanActive active }

/-! ## Rebuild -/

/-- What the rebuild of one volume meets: its reload, the second read of its rows, and the
commit of the rows its rules exclude. -/
structure RebuildOutcome where
  reload : Reload
  ruleRead : Bool
  pruned : Bool
deriving DecidableEq

/-- One volume, and whether it counts as rebuilt. -/
def rebuildVolume (outcome : RebuildOutcome) : Pipeline × Bool :=
  let (projection, rebuilt) := pipeline.projection.rebuildVolumeFromStore volumeId
    (pipeline.store.forEachEntry volumeId) outcome.reload
  let reloaded := { pipeline with projection }
  if !rebuilt || (pipeline.volumeRules volumeId).isNone then (reloaded, rebuilt)
  else if !outcome.ruleRead then (reloaded, false)
  else
    let excluded := (reloaded.store.forEachEntry volumeId).filter fun record =>
      !reloaded.isEntryIncluded volumeId record.id
    if excluded = [] then (reloaded, true)
    else
      match reloaded.store.applyBatch outcome.pruned volumeId
          (excluded.map fun record => { kind := .remove, record }) with
      | some store =>
        ({ reloaded with
           store
           projection := reloaded.projection.removeBatch volumeId (excluded.map (·.id)) true },
         true)
      | none => (reloaded, false)

/-- The volumes in turn, and those rebuilt. -/
def rebuildVolumes (outcomes : VolumeRowId → RebuildOutcome) (pipeline : Pipeline) :
    List VolumeRowId → Pipeline × List VolumeRowId
  | [] => (pipeline, [])
  | volumeId :: volumeIds =>
    let (next, rebuilt) := pipeline.rebuildVolume volumeId (outcomes volumeId)
    let (last, ids) := rebuildVolumes outcomes next volumeIds
    (last, if rebuilt then volumeId :: ids else ids)

def rebuildAll (outcomes : VolumeRowId → RebuildOutcome) : Pipeline :=
  let (rebuilt, volumeIds) := rebuildVolumes outcomes pipeline (pipeline.store.volumes.map (·.rowId))
  rebuilt.advanceEach volumeIds .rebuild

/-! ## Histories -/

inductive Operation
  | applyMftBatchV1 (volumeId : VolumeRowId) (records : List MftRecordV1) (outcome : BatchOutcome)
  | applyMftBatchV2 (volumeId : VolumeRowId) (records : List MftRecordV2) (outcome : BatchOutcome)
  | applyUsnBatchV1 (volumeId : VolumeRowId) (records : List UsnDeltaV1) (outcome : BatchOutcome)
  | applyUsnBatchV2 (volumeId : VolumeRowId) (records : List UsnDeltaV2) (outcome : BatchOutcome)
  | applyUsnBatchV3 (volumeId : VolumeRowId) (records : List UsnDeltaV3) (outcome : BatchOutcome)
  | beginReconciliationPass (volumeId : VolumeRowId)
  | abortReconciliationPass (volumeId : VolumeRowId)
  | finishReconciliationPass (volumeId : VolumeRowId) (listed : Bool) (commits : List Bool)
  | resolveVolume (inserted : Bool) (key : VolumeKey)
  | setVolumeRules (volumeId : VolumeRowId) (setting : VolumeSetting)
  | setVolumeAvailable (volumeId : VolumeRowId) (available : Bool)
  | forgetVolume (volumeId : VolumeRowId) (committed : Bool)
  | exportDirectorySnapshot (volumeId : VolumeRowId) (reload : Reload)
  | setProjectionMemoryBudget (roots : List EntryKey)
  | unloadVolumeFromProjection (volumeId : VolumeRowId)
  | setBulkScanActive (active : Bool)
  | rebuildAll (outcomes : VolumeRowId → RebuildOutcome)

def perform : Operation → Pipeline
  | .applyMftBatchV1 volumeId records outcome =>
    (pipeline.applyMftBatchV1 volumeId records outcome).1
  | .applyMftBatchV2 volumeId records outcome =>
    (pipeline.applyMftBatchV2 volumeId records outcome).1
  | .applyUsnBatchV1 volumeId records outcome =>
    (pipeline.applyUsnBatchV1 volumeId records outcome).1
  | .applyUsnBatchV2 volumeId records outcome =>
    (pipeline.applyUsnBatchV2 volumeId records outcome).1
  | .applyUsnBatchV3 volumeId records outcome =>
    (pipeline.applyUsnBatchV3 volumeId records outcome).1
  | .beginReconciliationPass volumeId => pipeline.beginReconciliationPass volumeId
  | .abortReconciliationPass volumeId => pipeline.abortReconciliationPass volumeId
  | .finishReconciliationPass volumeId listed commits =>
    pipeline.finishReconciliationPass volumeId listed commits
  | .resolveVolume inserted key => (pipeline.resolveVolume inserted key).1
  | .setVolumeRules volumeId setting => pipeline.setVolumeRules volumeId setting
  | .setVolumeAvailable volumeId available => pipeline.setVolumeAvailable volumeId available
  | .forgetVolume volumeId committed => (pipeline.forgetVolume volumeId committed).1
  | .exportDirectorySnapshot volumeId reload => pipeline.exportDirectorySnapshot volumeId reload
  | .setProjectionMemoryBudget roots => pipeline.setProjectionMemoryBudget roots
  | .unloadVolumeFromProjection volumeId => pipeline.unloadVolumeFromProjection volumeId
  | .setBulkScanActive active => pipeline.setBulkScanActive active
  | .rebuildAll outcomes => pipeline.rebuildAll outcomes

/-- States reached from an empty index by operations that all meet `ok`. -/
abbrev ReachableBy (ok : Pipeline → Operation → Prop) : Pipeline → Prop :=
  Reachable (fun pipeline operation => some (pipeline.perform operation)) (· = initial) ok

abbrev Reachable : Pipeline → Prop := ReachableBy fun _ _ => True

/-- The state after a history. -/
def after (operations : List Operation) : Pipeline := operations.foldl perform initial

theorem reachable_after (operations : List Operation) : Reachable (after operations) := by
  have extends_ : ∀ (operations : List Operation) (pipeline : Pipeline), Reachable pipeline →
      Reachable (operations.foldl perform pipeline) := by
    intro operations
    induction operations with
    | nil => exact fun _ reach => reach
    | cons operation operations ih => exact fun _ reach => ih _ (.next reach trivial rfl)
  exact extends_ operations initial (.start rfl)

/-- A scan record with the given identity; its sizes and times are zero. -/
def scanned (frn parent : UInt64) (name : Text) (attributes : UInt32) : MftRecordV2 where
  fixed := ⟨frn, parent, 0, 0, 0, 0, 0, attributes, .ofNat name.length⟩
  fileName := name

/-- A journal record with the given identity, reason and field mask. -/
def journaled (frn parent : UInt64) (name : Text) (reason fieldMask : UInt32) : UsnDeltaV2 where
  fixed := ⟨0, frn, parent, reason, 0, 0, 0, 0, 0, 0, fieldMask, .ofNat name.length⟩
  fileName := name

end Pipeline

end FastFiles.Index
