import FastFiles.Index.Agreement
import FastFiles.Index.PooledProjection

/-!
# Memory agrees with the store, names included

The pipeline over a projection whose names are in a pool.  An operation is a `Plan`: it works on the
store, has actions done to the projection, reads the projection, goes on.  What it reads are the
names that the pool gives back, so the rules of a volume are evaluated on those.

`Plan.exec` does the actions to a projection that holds its names itself; that is the operation as
`Index.Pipeline` has it (`exec_plan`).  `Plan.execPooled` does them to a projection with a pool.

* `pooled_rows_are_stored`: while the names that an operation interns leave the arena below 2³²
  units, a volume that is not cold has in memory exactly the stored rows with the stored values.
* `names_wrap`: nothing in the code sees to that.  After 16 843 009 different names of 255 units the
  arena is full, the next offset is cut to zero, and the row written last shows a name that is not
  the stored one.  The memory limit does not help: no pass of it runs during a bulk scan.
-/

namespace FastFiles.Index

open Protocol Transition NamePool

/-! ## Operations as plans -/

/-- The rest of an operation: it is done, or it has actions done to the projection and goes on with
what it then reads there. -/
inductive Plan
  /-- Nothing is left to do; the projection of the result is the one that was acted on. -/
  | done (pipeline : Pipeline)
  | act (actions : List ProjectionAction) (next : Projection → Plan)

def Plan.exec : Plan → Projection → Pipeline
  | done pipeline, projection => { pipeline with projection }
  | act actions next, projection =>
    (next (projection.run actions)).exec (projection.run actions)

/-- The units of the names that a plan interns at most. -/
def Plan.units : Plan → Projection → Nat
  | done _, _ => 0
  | act actions next, projection =>
    (actions.map ProjectionAction.units).sum +
      (next (projection.run actions)).units (projection.run actions)

namespace Pipeline

variable (pipeline : Pipeline) (volumeId : VolumeRowId) (changes : List EntryChange)

def mftAction (change : EntryChange) : ProjectionAction :=
  .upsert volumeId change.record

def usnAction (change : EntryChange) : ProjectionAction :=
  match change.kind with
  | .upsert => .upsertPartial volumeId change.record change.fields
  | .remove => .remove volumeId change.record.id

/-- The end of a batch whose changes have reached the projection: the rules are evaluated on the
rows as they are read now. -/
def gatePlan (outcome : BatchOutcome) : Plan :=
  let excluded := pipeline.ruleExcluded volumeId changes
  let gated := pipeline.gated volumeId changes
  if excluded = [] then
    .act [.enforceMemoryLimit outcome.evictions] fun _ =>
      .done (gated.completeBatch volumeId changes outcome.evictions)
  else
    match pipeline.store.applyBatch outcome.pruned volumeId excluded with
    | some store =>
      .act [.removeBatch volumeId (excluded.map (·.record.id)) true] fun projection =>
        .act [.enforceMemoryLimit outcome.evictions] fun _ =>
          .done ({ gated with store, projection }.completeBatch volumeId changes outcome.evictions)
    | none =>
      .act [.enforceMemoryLimit outcome.evictions] fun _ =>
        .done (gated.enforceMemoryLimitNow outcome.evictions)

/-- `applyBatchChanges`. -/
def batchPlan (action : EntryChange → ProjectionAction) (outcome : BatchOutcome) : Plan :=
  match pipeline.store.applyBatch outcome.committed volumeId changes with
  | none => .done pipeline
  | some store =>
    .act (changes.map action) fun projection =>
      { pipeline with store, projection }.gatePlan volumeId changes outcome

def usnPlan (converted : Option (List EntryChange)) (outcome : BatchOutcome) : Plan :=
  match converted with
  | none => .done pipeline
  | some changes => pipeline.batchPlan volumeId changes (usnAction volumeId) outcome

/-- `rebuildVolume` with what comes after it, when the rows have been reloaded. -/
def reloadedPlan (resident : Bool) (outcome : RebuildOutcome) (next : Pipeline → Bool → Plan) :
    Plan :=
  if !resident || (pipeline.volumeRules volumeId).isNone then next pipeline resident
  else if !outcome.ruleRead then next pipeline false
  else
    let excluded := (pipeline.store.forEachEntry volumeId).filter fun record =>
      !pipeline.isEntryIncluded volumeId record.id
    if excluded = [] then next pipeline true
    else
      match pipeline.store.applyBatch outcome.pruned volumeId
          (excluded.map fun record => { kind := .remove, record }) with
      | some store =>
        .act [.removeBatch volumeId (excluded.map (·.id)) true] fun projection =>
          next { pipeline with store, projection } true
      | none => next pipeline false

def rebuildVolumePlan (outcome : RebuildOutcome) (next : Pipeline → Bool → Plan) : Plan :=
  let stored := pipeline.store.forEachEntry volumeId
  .act [.rebuildVolumeFromStore volumeId stored outcome.reload] fun projection =>
    { pipeline with projection }.reloadedPlan volumeId
      (pipeline.projection.rebuildVolumeFromStore volumeId stored outcome.reload).2 outcome next

/-- `rebuildAll` from some volume on, with the volumes rebuilt before. -/
def rebuildPlan (outcomes : VolumeRowId → RebuildOutcome) (pipeline : Pipeline)
    (rebuilt : List VolumeRowId) : List VolumeRowId → Plan
  | [] => .done (pipeline.advanceEach rebuilt .rebuild)
  | volumeId :: volumeIds =>
    pipeline.rebuildVolumePlan volumeId (outcomes volumeId) fun pipeline resident =>
      rebuildPlan outcomes pipeline (if resident then rebuilt ++ [volumeId] else rebuilt) volumeIds

/-- What the other operations do to the projection. -/
def actions : Operation → List ProjectionAction
  | .finishReconciliationPass volumeId listed commits =>
    match pipeline.reconciliationSeen volumeId with
    | none => []
    | some seen =>
      if !listed then []
      else
        let removals := pipeline.reconciliationRemovals volumeId seen
        [.removeBatch volumeId (commitChunks volumeId pipeline.store
          (removals.toChunks reconciliationRemovalChunkRows) commits).2.1 true]
  | .forgetVolume volumeId committed =>
    if (pipeline.store.forgetVolume committed volumeId).isSome then [.removeVolume volumeId true]
    else []
  | .exportDirectorySnapshot volumeId reload =>
    if pipeline.projection.needsReload volumeId && pipeline.store.hasVolume volumeId then
      [.rebuildVolumeFromStore volumeId (pipeline.store.forEachEntry volumeId) reload]
    else []
  | .setProjectionMemoryBudget roots => [.enforceMemoryLimit (roots.map .subtree)]
  | .unloadVolumeFromProjection volumeId => [.evict (.volume volumeId)]
  | .setBulkScanActive active => [.setBulkScanActive active]
  | _ => []

def plan : Operation → Plan
  | .applyMftBatchV1 volumeId records outcome =>
    pipeline.batchPlan volumeId (records.map fun record => changeOfMft (toEntryRecordOfMftV1 record))
      (mftAction volumeId) outcome
  | .applyMftBatchV2 volumeId records outcome =>
    pipeline.batchPlan volumeId (records.map fun record => changeOfMft (toEntryRecordOfMftV2 record))
      (mftAction volumeId) outcome
  | .applyUsnBatchV1 volumeId records outcome =>
    pipeline.usnPlan volumeId ((records.map upgradeUsnDeltaV1).mapM changeOfUsnV2) outcome
  | .applyUsnBatchV2 volumeId records outcome =>
    pipeline.usnPlan volumeId (records.mapM changeOfUsnV2) outcome
  | .applyUsnBatchV3 volumeId records outcome =>
    pipeline.usnPlan volumeId (records.mapM changeOfUsnV3) outcome
  | .rebuildAll outcomes =>
    rebuildPlan outcomes pipeline [] (pipeline.store.volumes.map (·.rowId))
  | operation => .act (pipeline.actions operation) fun _ => .done (pipeline.perform operation)

/-! ## With the names in the rows, a plan is its operation -/

variable {pipeline} {volumeId changes} in
/-- A pipeline that already has the projection it is given. -/
theorem with_projection {projection : Projection} (same : pipeline.projection = projection) :
    { pipeline with projection } = pipeline := by
  rw [← same]

theorem exec_batchPlan {project : Projection → EntryChange → Projection}
    {action : EntryChange → ProjectionAction}
    (same : ∀ projection change, project projection change = projection.perform (action change))
    (outcome : BatchOutcome) :
    (pipeline.batchPlan volumeId changes action outcome).exec pipeline.projection =
      (applyBatchChanges project pipeline volumeId changes outcome).1 := by
  have changed : pipeline.projection.run (changes.map action) =
      changes.foldl project pipeline.projection := by
    rw [Projection.run, List.foldl_map]
    simp only [← same]
  unfold batchPlan
  obtain ⟨failed, result⟩ | ⟨store, applied, settled⟩ :=
    applyBatchChanges_cases project pipeline volumeId changes outcome
  · rw [failed, result]
    rfl
  · simp only [applied, Plan.exec, changed]
    show ((pipeline.projected project store changes).gatePlan volumeId changes outcome).exec _ = _
    unfold gatePlan
    obtain ⟨none, result⟩ | ⟨last, some, rulesApplied, result⟩ | ⟨some, failed, result⟩ := settled
    · rw [if_pos none, result]
      exact with_projection (completeBatch_sides ..).2
    · rw [if_neg some, result, show (pipeline.projected project store changes).store.applyBatch _ _ _ =
        _ from rulesApplied]
      exact with_projection (completeBatch_sides ..).2
    · rw [if_neg some, result, show (pipeline.projected project store changes).store.applyBatch _ _ _ =
        _ from failed]
      exact with_projection (enforceMemoryLimitNow_sides ..).2

theorem exec_usnPlan (converted : Option (List EntryChange)) (outcome : BatchOutcome) :
    (pipeline.usnPlan volumeId converted outcome).exec pipeline.projection =
      (match converted with
        | none => (pipeline, false)
        | some changes => pipeline.applyUsnBatchChanges volumeId changes outcome).1 := by
  cases converted with
  | none => rfl
  | some changes =>
    refine pipeline.exec_batchPlan volumeId changes (fun projection change => ?_) outcome
    unfold projectUsnChange usnAction
    cases change.kind <;> rfl

theorem exec_rebuildVolumePlan (outcome : RebuildOutcome) (next : Pipeline → Bool → Plan) :
    (pipeline.rebuildVolumePlan volumeId outcome next).exec pipeline.projection =
      (next (pipeline.rebuildVolume volumeId outcome).1
        (pipeline.rebuildVolume volumeId outcome).2).exec
          (pipeline.rebuildVolume volumeId outcome).1.projection := by
  let rebuilt := pipeline.projection.rebuildVolumeFromStore volumeId
    (pipeline.store.forEachEntry volumeId) outcome.reload
  show ({ pipeline with projection := rebuilt.1 }.reloadedPlan volumeId rebuilt.2 outcome next).exec
    rebuilt.1 = _
  unfold reloadedPlan rebuildVolume
  dsimp only [rebuilt]
  split_ifs
  iterate 3 rfl
  · cases pipeline.store.applyBatch outcome.pruned volumeId _ <;> rfl

theorem exec_rebuildPlan (outcomes : VolumeRowId → RebuildOutcome) (rebuilt : List VolumeRowId)
    (volumeIds : List VolumeRowId) :
    (rebuildPlan outcomes pipeline rebuilt volumeIds).exec pipeline.projection =
      (rebuildVolumes outcomes pipeline volumeIds).1.advanceEach
        (rebuilt ++ (rebuildVolumes outcomes pipeline volumeIds).2) .rebuild := by
  induction volumeIds generalizing pipeline rebuilt with
  | nil =>
    rw [rebuildVolumes, List.append_nil]
    exact with_projection (advanceEach_sides ..).2
  | cons volumeId volumeIds ih =>
    rw [rebuildPlan, exec_rebuildVolumePlan, ih, rebuildVolumes]
    congr 1
    cases resident : (pipeline.rebuildVolume volumeId (outcomes volumeId)).2 <;> simp [resident]

/-- **A plan is its operation** when the rows hold their names. -/
theorem exec_plan (operation : Operation) :
    (pipeline.plan operation).exec pipeline.projection = pipeline.perform operation := by
  cases operation with
  | applyMftBatchV1 volumeId records outcome | applyMftBatchV2 volumeId records outcome =>
    exact pipeline.exec_batchPlan volumeId _ (fun _ _ => rfl) outcome
  | applyUsnBatchV1 volumeId records outcome =>
    exact pipeline.exec_usnPlan volumeId ((records.map upgradeUsnDeltaV1).mapM changeOfUsnV2) outcome
  | applyUsnBatchV2 volumeId records outcome =>
    exact pipeline.exec_usnPlan volumeId (records.mapM changeOfUsnV2) outcome
  | applyUsnBatchV3 volumeId records outcome =>
    exact pipeline.exec_usnPlan volumeId (records.mapM changeOfUsnV3) outcome
  | rebuildAll outcomes => exact pipeline.exec_rebuildPlan outcomes [] _
  | beginReconciliationPass _ | abortReconciliationPass _ => rfl
  | finishReconciliationPass volumeId listed commits =>
    refine with_projection ?_
    simp only [perform, finishReconciliationPass, actions]
    cases pipeline.reconciliationSeen volumeId with
    | none => rfl
    | some seen =>
      dsimp only
      split_ifs <;> rfl
  | resolveVolume _ _ | setVolumeRules _ _ | setVolumeAvailable _ _ | unloadVolumeFromProjection _ =>
    refine with_projection ?_
    simp only [perform, resolveVolume, setVolumeRules, setVolumeAvailable,
      unloadVolumeFromProjection]
    split
    · rfl
    · first | rfl | split_ifs <;> rfl
  | forgetVolume volumeId committed =>
    refine with_projection ?_
    simp only [perform, forgetVolume, actions]
    cases pipeline.store.forgetVolume committed volumeId <;> rfl
  | exportDirectorySnapshot volumeId reload =>
    refine with_projection ?_
    simp only [perform, exportDirectorySnapshot, reloadEvictedVolume, actions]
    cases pipeline.projection.needsReload volumeId <;> cases pipeline.store.hasVolume volumeId <;>
      simp [Projection.run, Projection.perform]
  | setProjectionMemoryBudget roots =>
    exact with_projection (advanceEach_sides ..).2
  | setBulkScanActive active => rfl

end Pipeline

/-! ## With a pool -/

structure PooledPipeline where
  /-- All but the projection; the one in it is never read. -/
  rest : Pipeline
  names : PooledProjection

/-- The plan reads the rows with the names that the pool gives back. -/
def Plan.execPooled : Plan → PooledProjection → PooledPipeline
  | done rest, names => ⟨rest, names⟩
  | act actions next, names => (next (names.run actions).view).execPooled (names.run actions)

namespace PooledPipeline

variable (state : PooledPipeline)

def initial : PooledPipeline := ⟨.initial, .empty⟩

/-- The pipeline as its operations read it. -/
def seen : Pipeline := { state.rest with projection := state.names.view }

def perform (operation : Pipeline.Operation) : PooledPipeline :=
  (state.seen.plan operation).execPooled state.names

/-- The names that an operation interns have room in the arena. -/
def Room (operation : Pipeline.Operation) : Prop :=
  state.names.pool.arena.length +
    (state.seen.plan operation).units state.seen.projection < 2 ^ 32

instance (operation : Pipeline.Operation) : Decidable (state.Room operation) :=
  inferInstanceAs (Decidable (_ < _))

/-- States reached from an empty index by operations that all meet `ok`. -/
abbrev ReachableBy (ok : PooledPipeline → Pipeline.Operation → Prop) : PooledPipeline → Prop :=
  Transition.Reachable (fun state operation => some (state.perform operation)) (· = initial) ok

/-- The state after a history. -/
def after (operations : List Pipeline.Operation) : PooledPipeline :=
  operations.foldl perform initial

end PooledPipeline

/-- **Reading through the pool makes no difference to a plan** while there is room. -/
theorem Shows.execPooled {names : PooledProjection} {exact : Projection} {units : Nat} (plan : Plan)
    (shows_ : Shows names exact units) (room : units + plan.units exact < 2 ^ 32) :
    Shows (plan.execPooled names).names (plan.exec exact).projection (units + plan.units exact) ∧
      (plan.execPooled names).seen = plan.exec exact := by
  induction plan generalizing names exact units with
  | done pipeline =>
    refine ⟨shows_, ?_⟩
    rw [Plan.exec, ← shows_.view]
    rfl
  | act actions next ih =>
    rw [Plan.units, ← Nat.add_assoc] at room ⊢
    have acted := shows_.run actions (by omega)
    rw [Plan.execPooled, Plan.exec, acted.view]
    exact ih _ acted room

namespace PooledPipeline

variable {state : PooledPipeline}

/-- What the operations read is a state of the pipeline with its names in the rows. -/
structure Exact (state : PooledPipeline) : Prop where
  shows_ : Shows state.names state.seen.projection state.names.pool.arena.length
  reachable : Pipeline.Reachable state.seen

theorem Exact.perform (exact : state.Exact) {operation : Pipeline.Operation}
    (room : state.Room operation) : (state.perform operation).Exact := by
  obtain ⟨later, same⟩ := exact.shows_.execPooled _ room
  rw [Pipeline.exec_plan] at later same
  have same : (state.perform operation).seen = state.seen.perform operation := same
  rw [← same] at later
  exact ⟨⟨later.stored, later.view, le_rfl, later.arena.trans_lt later.room⟩,
    same ▸ .next exact.reachable trivial rfl⟩

theorem exact_of_reachable (reach : ReachableBy Room state) : state.Exact := by
  refine Transition.Reachable.invariant ?_ ?_ reach
  · rintro _ rfl
    exact ⟨.empty, .start rfl⟩
  · rintro before operation _ exact room step
    cases step
    exact exact.perform room

/-- **Memory agrees with disk**: after any history of operations whose names find room in the arena,
a volume that is not cold has in memory exactly the stored rows, with the stored values. -/
theorem pooled_rows_are_stored (reach : ReachableBy Room state) {volumeId : VolumeRowId}
    (hot : state.names.rows.needsReload volumeId = false) :
    state.names.view.table volumeId = state.rest.store.table volumeId :=
  Pipeline.agreed_of_reachable (exact_of_reachable reach).reachable volumeId hot

/-- A scan, a failed batch, a rename that carries only its name; then the volume is unloaded, and
loaded again into a new pool. -/
def reloadedRename : List Pipeline.Operation :=
  [.resolveVolume true ⟨[], 1⟩,
   .applyMftBatchV2 1 [Pipeline.scanned 5 5 [] 0x10, Pipeline.scanned 100 5 [0x61] 0] ⟨true, true, []⟩,
   .applyMftBatchV2 1 [Pipeline.scanned 101 5 [0x62] 0] ⟨false, true, []⟩,
   .applyUsnBatchV2 1 [Pipeline.journaled 100 5 [0x63] 0 usnFieldName] ⟨true, true, []⟩,
   .unloadVolumeFromProjection 1,
   .exportDirectorySnapshot 1 ⟨none, true, []⟩]

theorem pooled_rows_are_stored_reloadedRename :
    ∃ state : PooledPipeline, state.names.rows.needsReload 1 = false ∧
      state.names.view.table 1 (ntfsFileId 101) = none ∧
      (state.names.view.table 1 (ntfsFileId 100)).map (·.name) = some [0x63] ∧
      state.names.view.table 1 = state.rest.store.table 1 := by
  have reads : (run (fun (state : PooledPipeline) operation => if decide (state.Room operation) then
      some (state.perform operation) else none) initial reloadedRename).map (fun state =>
        (state.names.rows.needsReload 1, state.names.view.table 1 (ntfsFileId 101),
          (state.names.view.table 1 (ntfsFileId 100)).map (·.name))) =
      some (false, none, some [0x63]) := by decide +kernel
  obtain ⟨state, ran, read⟩ := Option.map_eq_some_iff.mp reads
  simp only [Prod.mk.injEq] at read
  exact ⟨state, read.1, read.2.1, read.2.2, pooled_rows_are_stored (.of_checked_run
    (fun _ _ _ => of_decide_eq_true) (fun _ _ _ _ _ _ => trivial) (.start rfl) trivial ran) read.1⟩

/-! ## When the arena is full -/

variable {volumeId : VolumeRowId}

/-- Without rules and evictions a batch ends as it is. -/
theorem execPooled_gatePlan {pipeline : Pipeline} {changes : List EntryChange}
    (unruled : pipeline.volumeRules volumeId = none) (names : PooledProjection) :
    let done := (pipeline.gatePlan volumeId changes ⟨true, true, []⟩).execPooled names
    done.names = names ∧ done.rest.store = pipeline.store ∧
      done.rest.volumeRules = pipeline.volumeRules := by
  have none : pipeline.ruleExcluded volumeId changes = [] := by
    simp [Pipeline.ruleExcluded, Pipeline.isEntryIncluded, isEntryIncluded, unruled]
  unfold Pipeline.gatePlan
  simp only [if_pos none, Plan.execPooled]
  refine ⟨rfl, (Pipeline.completeBatch_sides ..).1, ?_⟩
  unfold Pipeline.completeBatch
  split_ifs <;> rfl

/-- A scan batch of a volume without rules that meets no failure and no eviction. -/
theorem perform_scan (unruled : state.rest.volumeRules volumeId = none)
    (known : state.rest.store.hasVolume volumeId = true) (records : List MftRecordV2) :
    let changes := records.map fun record => changeOfMft (toEntryRecordOfMftV2 record)
    let next := state.perform (.applyMftBatchV2 volumeId records ⟨true, true, []⟩)
    next.names = state.names.upsertAll volumeId (records.map toEntryRecordOfMftV2) ∧
      next.rest.volumeRules volumeId = none ∧ next.rest.store.hasVolume volumeId = true ∧
      next.rest.store.table volumeId = (state.rest.store.table volumeId).applyAll changes := by
  intro changes next
  obtain ⟨store, applied⟩ : ∃ store, state.seen.store.applyBatch true volumeId changes = some store := by
    have known : state.seen.store.hasVolume volumeId = true := known
    unfold Store.applyBatch
    simp only [known, Bool.not_true, Bool.and_false, Bool.or_self, Bool.false_eq_true, if_false]
    split_ifs <;> exact ⟨_, rfl⟩
  have upserted : state.names.run (changes.map (Pipeline.mftAction volumeId)) =
      state.names.upsertAll volumeId (records.map toEntryRecordOfMftV2) := by
    rw [PooledProjection.run, PooledProjection.upsertAll, List.foldl_map, List.foldl_map,
      List.foldl_map]
    rfl
  let projected : Pipeline := { state.seen with
    store
    projection := (state.names.run (changes.map (Pipeline.mftAction volumeId))).view }
  have performed : next = (projected.gatePlan volumeId changes ⟨true, true, []⟩).execPooled
      (state.names.run (changes.map (Pipeline.mftAction volumeId))) := by
    show (state.seen.batchPlan volumeId changes _ _).execPooled _ = _
    rw [Pipeline.batchPlan, applied, Plan.execPooled]
  obtain ⟨names, last, rules⟩ := @execPooled_gatePlan _ projected changes
    unruled (state.names.run (changes.map (Pipeline.mftAction volumeId)))
  rw [performed]
  refine ⟨names.trans upserted, rules ▸ unruled, ?_, ?_⟩
  · rw [last, Store.hasVolume, (Store.applyBatch_frame applied).1]
    exact known
  · rw [last]
    refine Store.table_applyBatch_self applied fun change mem => ?_
    obtain ⟨record, -, rfl⟩ := List.mem_map.mp mem
    exact fun _ => by simp_all [changeOfMft, toEntryRecordOfMftV2]

/-- A name of 255 units that spells a number. -/
def longName (number : Nat) : Text :=
  (List.range 255).map fun place => if number.testBit place then 0x62 else 0x61

theorem longName_inj {a b : Nat} (small : a < 2 ^ 255) (small' : b < 2 ^ 255)
    (same : longName a = longName b) : a = b := by
  refine Nat.eq_of_testBit_eq fun place => ?_
  by_cases short : place < 255
  · have units := List.map_inj_left.mp same place (List.mem_range.mpr short)
    cases ha : a.testBit place <;> cases hb : b.testBit place <;> simp [ha, hb] at units ⊢
  · have bound : 2 ^ 255 ≤ 2 ^ place := Nat.pow_le_pow_right (by decide) (by omega)
    rw [Nat.testBit_lt_two_pow (small.trans_le bound), Nat.testBit_lt_two_pow (small'.trans_le bound)]

/-- A bulk scan of so many files, with no rules and no evictions. -/
def longScan (count : Nat) : List Pipeline.Operation :=
  [.resolveVolume true ⟨[], 1⟩, .setBulkScanActive true] ++
    (List.range count).map fun number =>
      .applyMftBatchV2 1 [Pipeline.scanned (.ofNat number) 5 (longName number) 0] ⟨true, true, []⟩

theorem after_longScan (count : Nat) :
    let state := after (longScan count)
    state.rest.volumeRules 1 = none ∧ state.rest.store.hasVolume 1 = true ∧
      state.names.rows.evictedVolumes = ∅ ∧
      state.names.pool = (internAll ((List.range count).map longName)).1 := by
  induction count with
  | zero => exact ⟨rfl, rfl, rfl, rfl⟩
  | succ count ih =>
    obtain ⟨unruled, known, hot, pool⟩ := ih
    have one : longScan (count + 1) = longScan count ++
        [.applyMftBatchV2 1 [Pipeline.scanned (.ofNat count) 5 (longName count) 0]
          ⟨true, true, []⟩] := by
      simp [longScan, List.range_succ]
    obtain ⟨names, unruled, known, -⟩ := perform_scan unruled known
      [Pipeline.scanned (.ofNat count) 5 (longName count) 0]
    rw [one, after, List.foldl_concat]
    refine ⟨unruled, known, ?_, ?_⟩
    · rw [← after, names]
      exact hot
    · rw [← after, names, List.range_succ, List.map_append,
        show [count].map longName = [longName count] from rfl, internAll_concat, ← pool]
      rfl

/-- The names of the scan fill the arena, and nothing else is stored. -/
theorem stores_longNames {count : Nat} (size : 255 * count < 2 ^ 32) :
    ∃ stored, Stores (internAll ((List.range count).map longName)).1 stored ∧
      stored ⊆ (List.range count).map longName ∧ stored.length ≤ count ∧
      (internAll ((List.range count).map longName)).1.arena.length = 255 * count := by
  have distinct : ((List.range count).map longName).Nodup := by
    refine List.nodup_range.map_on fun a here b there same => ?_
    rw [List.mem_range] at here there
    have few : 2 ^ 32 ≤ 2 ^ 255 := Nat.pow_le_pow_right (by decide) (by decide)
    exact longName_inj (by omega) (by omega) same
  have total : (((List.range count).map longName).map List.length).sum = 255 * count := by
    have each : List.length ∘ longName = fun _ => 255 := by
      funext number
      simp [longName]
    rw [List.map_map, each, List.map_const', List.sum_replicate, List.length_range, smul_eq_mul,
      Nat.mul_comm]
  obtain ⟨stored, stores, listed, returned⟩ :=
    internAll_spec (List.Subset.refl _) (total.trans_lt size)
  have all : (List.range count).map longName ⊆ stored := by
    intro name mem
    obtain ⟨place, inside, is⟩ := List.mem_iff_getElem.mp mem
    have found := (List.forall₂_iff_get.mp returned).2 place (returned.length_eq ▸ inside) inside
    exact is ▸ List.mem_of_getElem? found
  refine ⟨stored, stores, listed, ?_, ?_⟩
  · have few := (List.subperm_of_subset stores.distinct listed).length_le
    rwa [List.length_map, List.length_range] at few
  · have upper := stores.length_arena_le listed
    have lower := sum_length_le distinct all
    rw [← stores.length_arena] at lower
    omega

theorem unit_longName {number : Nat} {unit : UInt16} (here : unit ∈ longName number) :
    unit = 0x61 ∨ unit = 0x62 := by
  obtain ⟨place, -, rfl⟩ := List.mem_map.mp here
  split_ifs
  · exact .inr rfl
  · exact .inl rfl

/-- A row that was written last shows the name that the pool gives back. -/
theorem table_view_upsert (names : PooledProjection) (record : EntryRecord) :
    ((names.upsert volumeId record).view.table volumeId record.id).map (·.name) =
      some ((names.pool.intern record.name).1.get (names.pool.intern record.name).2) := by
  let pool := (names.pool.intern record.name).1
  have row : (names.upsert volumeId record).view.table volumeId record.id =
      some (record.rename fun _ => pool.get (names.pool.intern record.name).2) := by
    show ((names.rows.upsert volumeId _).rename pool.get).table volumeId record.id = _
    rw [Projection.rename_upsert, Projection.table_upsert_self]
    exact Function.update_self ..
  rw [row]
  rfl

/-- The scan, and a last batch of two short names. -/
def overlongScan (count : Nat) : List Pipeline.Operation :=
  longScan count ++
    [.applyMftBatchV2 1
      [Pipeline.scanned 0x2000000 5 [0x79] 0, Pipeline.scanned 0x2000001 5 [0x7a] 0]
      ⟨true, true, []⟩]

theorem after_overlongScan (count : Nat) (full : 255 * count + 1 = 2 ^ 32) :
    let state := after (overlongScan count)
    state.names.rows.needsReload 1 = false ∧
      (state.rest.store.table 1 (ntfsFileId 0x2000001)).map (·.name) = some [0x7a] ∧
      (state.names.view.table 1 (ntfsFileId 0x2000001)).map (·.name) ≠ some [0x7a] := by
  intro state
  obtain ⟨unruled, known, hot, pool⟩ := after_longScan count
  obtain ⟨names, -, -, stored⟩ := perform_scan unruled known
    [Pipeline.scanned 0x2000000 5 [0x79] 0, Pipeline.scanned 0x2000001 5 [0x7a] 0]
  have state_eq : state = (after (longScan count)).perform _ := List.foldl_concat ..
  rw [← state_eq] at names stored
  obtain ⟨listed, before, within, few, arena⟩ := @stores_longNames count (by omega)
  rw [← pool] at before arena
  have units : ∀ name ∈ listed, name.length = 255 ∧ ∀ unit ∈ name, unit = 0x61 ∨ unit = 0x62 := by
    intro name here
    obtain ⟨number, -, rfl⟩ := List.mem_map.mp (within here)
    exact ⟨by simp [longName], fun unit => unit_longName⟩
  -- the first name takes the last place of the arena
  obtain ⟨stores, -⟩ := before.append (by omega) (by omega) (by decide) fun here =>
    absurd (units [0x79] here).1 (by decide)
  refine ⟨?_, ?_, ?_⟩
  · rw [names]
    exact decide_eq_false (hot ▸ Finset.notMem_empty 1)
  · rw [stored]
    simp [Table.applyAll, Table.apply, changeOfMft, EntryRecord.merge_all, toEntryRecordOfMftV2,
      Pipeline.scanned]
  · let first := (after (longScan count)).names.upsert 1
      (toEntryRecordOfMftV2 (Pipeline.scanned 0x2000000 5 [0x79] 0))
    let second := toEntryRecordOfMftV2 (Pipeline.scanned 0x2000001 5 [0x7a] 0)
    have filled : first.pool.arena.length = 2 ^ 32 := by
      show ((after (longScan count)).names.pool.intern [0x79]).1.arena.length = _
      rw [stores.length_arena, List.map_append, List.sum_append, ← before.length_arena, arena]
      exact full
    have names : state.names = first.upsert 1 second := names
    show (state.names.view.table 1 second.id).map (·.name) ≠ _
    rw [names, table_view_upsert]
    refine fun same => stores.get_intern_full filled ?_ ?_ (Option.some.inj same)
    · rw [List.length_append]
      exact Nat.lt_of_le_of_lt (Nat.add_le_add_right few 1) (by omega)
    · intro name here held
      rcases List.mem_append.mp here with old | new
      · exact absurd ((units name old).2 _ held) (by decide)
      · exact absurd (List.mem_singleton.mp new ▸ held) (by decide)

/-- **The next name is lost**: the volume is in memory, the store has the name, the row does not. -/
theorem names_wrap :
    let state := after (overlongScan 16843009)
    state.names.rows.needsReload 1 = false ∧
      (state.rest.store.table 1 (ntfsFileId 0x2000001)).map (·.name) = some [0x7a] ∧
      (state.names.view.table 1 (ntfsFileId 0x2000001)).map (·.name) ≠ some [0x7a] :=
  after_overlongScan 16843009 (by norm_num)

end PooledPipeline

end FastFiles.Index
