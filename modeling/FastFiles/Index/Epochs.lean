import FastFiles.Index.Agreement

/-!
# Epochs and searchable rows

A running search remembers the data and configuration epochs of its volumes and takes a
difference as the sign that something has changed under it: the rows, or whether they are
read from memory or from the store (`Turns`).  Epochs only move to values of the common
counter `queryVisibleEpoch` that were never used before (`Later`), so what has to be shown
of an operation is that every volume it changes gets a new one (`Announced`).

Two paths do not.  A batch whose rows are committed and whose rule-excluded rows then fail
to be removed returns before the epoch is advanced (`Batch.stranded`).  And `RebuildAll`
only advances the volumes it rebuilt, though a failed rebuild leaves a volume cold
(`skipped`).
-/

namespace FastFiles.Index

open Protocol Transition Pipeline Store Function

/-! ## What happens to the stored rows -/

namespace Store

/-- Volumes are numbered from one, and a volume that is not listed has no rows. -/
structure Sound (store : Store) : Prop where
  numbered : ∀ metadata ∈ store.volumes, metadata.rowId ≠ 0
  owned : ∀ volumeId, store.hasVolume volumeId = false → store.entries volumeId = ∅

variable {volumeId : VolumeRowId}

theorem Sound.ne_zero {store : Store} (sound : store.Sound)
    (present : store.hasVolume volumeId = true) : volumeId ≠ 0 := by
  obtain ⟨metadata, mem, is⟩ := List.any_eq_true.mp present
  rw [← eq_of_beq is]
  exact sound.numbered metadata mem

/-- A change of the rows of one volume, which creates none in a volume that is not there. -/
structure Edits (volumeId : VolumeRowId) (store next : Store) : Prop where
  volumes : next.volumes = store.volumes
  others : ∀ other, other ≠ volumeId → next.entries other = store.entries other
  missing : store.hasVolume volumeId = false → store.entries volumeId = ∅ →
    next.entries volumeId = ∅

variable {store next : Store}

theorem Edits.hasVolume (edits : Edits volumeId store next) (other : VolumeRowId) :
    next.hasVolume other = store.hasVolume other := by
  rw [Store.hasVolume, edits.volumes]
  rfl

theorem Edits.refl (volumeId : VolumeRowId) (store : Store) : Edits volumeId store store :=
  ⟨rfl, fun _ _ => rfl, fun _ empty => empty⟩

theorem Edits.trans {store middle next : Store}
    (first : Edits volumeId store middle) (second : Edits volumeId middle next) :
    Edits volumeId store next where
  volumes := second.volumes.trans first.volumes
  others other differs := (second.others other differs).trans (first.others other differs)
  missing absent empty :=
    second.missing ((first.hasVolume volumeId).trans absent) (first.missing absent empty)

theorem Edits.sound (edits : Edits volumeId store next) (sound : store.Sound) : next.Sound where
  numbered metadata mem := sound.numbered metadata (edits.volumes ▸ mem)
  owned other absent := by
    rw [edits.hasVolume] at absent
    by_cases same : other = volumeId
    · subst same
      exact edits.missing absent (sound.owned other absent)
    · rw [edits.others other same]
      exact sound.owned other absent

/-- Rows change only in the edited volume, and only if it is there. -/
theorem Edits.changed {volumeId other : VolumeRowId}
    (edits : Edits volumeId store next) (sound : store.Sound)
    (changed : next.table other ≠ store.table other) :
    other = volumeId ∧ store.hasVolume volumeId = true := by
  have same : other = volumeId := by
    by_contra differs
    exact changed (congrArg StoredRows.table (edits.others other differs))
  subst same
  refine ⟨rfl, ?_⟩
  by_contra absent
  rw [Bool.not_eq_true] at absent
  have before := sound.owned other absent
  exact changed (congrArg StoredRows.table ((edits.missing absent before).trans before.symm))

variable {changes : List EntryChange}

/-- Removals leave an empty volume empty. -/
theorem foldl_apply_empty (removals : ∀ change ∈ changes, change.kind ≠ .upsert) :
    changes.foldl StoredRows.apply ∅ = ∅ := by
  induction changes with
  | nil => rfl
  | cons change changes ih =>
    have first : StoredRows.apply ∅ change = ∅ := by
      unfold StoredRows.apply
      cases kind : change.kind with
      | upsert => exact absurd kind (removals change (.head _))
      | remove => rfl
    rw [List.foldl_cons, first]
    exact ih fun other mem => removals other (.tail _ mem)

variable {committed : Bool}

theorem edits_applyBatch (applied : store.applyBatch committed volumeId changes = some next) :
    Edits volumeId store next := by
  obtain ⟨volumes, -, others⟩ := applyBatch_frame applied
  refine ⟨volumes, others, fun absent empty => ?_⟩
  unfold applyBatch at applied
  split_ifs at applied with _ fails
  · cases applied
    exact empty
  · cases applied
    show update store.entries volumeId _ volumeId = ∅
    rw [update_self, empty]
    refine foldl_apply_empty fun change mem upserted => fails ?_
    have some_ : changes.any (·.kind == .upsert) = true :=
      List.any_eq_true.mpr ⟨change, mem, by rw [upserted]; rfl⟩
    rw [some_, absent]
    simp

theorem hasVolume_setVolumeAvailable (store : Store) (volumeId : VolumeRowId) (available : Bool)
    (other : VolumeRowId) :
    (store.setVolumeAvailable volumeId available).1.hasVolume other = store.hasVolume other := by
  unfold hasVolume setVolumeAvailable
  rw [List.any_map]
  congr 1
  funext metadata
  show ((if metadata.rowId = volumeId then _ else metadata : VolumeMetadata).rowId == other) = _
  split_ifs <;> rfl

theorem Sound.setVolumeAvailable {store : Store} (sound : store.Sound) (volumeId : VolumeRowId)
    (available : Bool) : (store.setVolumeAvailable volumeId available).1.Sound where
  numbered metadata mem := by
    obtain ⟨source, here, rfl⟩ := List.mem_map.mp mem
    split_ifs
    iterate 2 exact sound.numbered source here
  owned other absent := by
    rw [hasVolume_setVolumeAvailable] at absent
    exact sound.owned other absent

variable {inserted created : Bool} {key : VolumeKey}

section

variable (resolved : store.getOrCreateVolume inserted key = some (volumeId, created, next))

include resolved

/-- **What resolving a volume does**: nothing, or a new volume is added. -/
theorem getOrCreateVolume_eq_some :
    next = store ∧ created = false ∨
      created = true ∧ volumeId = store.lastVolumeRowId + 1 ∧
        next = { store with
          volumes := store.volumes ++ [{ rowId := volumeId, key, available := true }]
          lastVolumeRowId := volumeId } := by
  unfold getOrCreateVolume at resolved
  cases found : store.volumes.find? (·.key == key) with
  | some metadata =>
    rw [found] at resolved
    cases resolved
    exact .inl ⟨rfl, rfl⟩
  | none =>
    rw [found] at resolved
    cases inserted with
    | false => cases resolved
    | true =>
      cases resolved
      exact .inr ⟨rfl, rfl, rfl⟩

theorem entries_getOrCreateVolume : next.entries = store.entries := by
  rcases getOrCreateVolume_eq_some resolved with ⟨rfl, -⟩ | ⟨-, -, rfl⟩ <;> rfl

end

theorem Sound.getOrCreateVolume (sound : store.Sound)
    (resolved : store.getOrCreateVolume inserted key = some (volumeId, created, next)) :
    next.Sound := by
  rcases getOrCreateVolume_eq_some resolved with ⟨rfl, -⟩ | ⟨-, fresh, rfl⟩
  · exact sound
  · refine ⟨fun metadata mem => ?_, fun other absent => ?_⟩
    · rcases List.mem_append.mp mem with old | new
      · exact sound.numbered metadata old
      · rw [List.mem_singleton.mp new]
        exact fresh ▸ Nat.succ_ne_zero _
    · refine sound.owned other (List.any_eq_false.mpr fun metadata mem => ?_)
      exact List.any_eq_false.mp absent metadata (List.mem_append_left _ mem)

/-- **What a forget does.** -/
theorem forgetVolume_eq_some (forgotten : store.forgetVolume committed volumeId = some next) :
    store.hasVolume volumeId = true ∧
      next = { store with
        volumes := store.volumes.filter (·.rowId != volumeId)
        entries := update store.entries volumeId ∅ } := by
  unfold forgetVolume at forgotten
  cases found : store.volumes.find? (·.rowId == volumeId) with
  | none =>
    rw [found] at forgotten
    cases forgotten
  | some metadata =>
    rw [found] at forgotten
    dsimp only at forgotten
    split_ifs at forgotten
    have is := List.find?_some found
    exact ⟨List.any_eq_true.mpr ⟨metadata, List.mem_of_find?_eq_some found, is⟩,
      (Option.some.inj forgotten).symm⟩

theorem Sound.forgetVolume (sound : store.Sound)
    (forgotten : store.forgetVolume committed volumeId = some next) :
    next.Sound := by
  obtain ⟨-, rfl⟩ := forgetVolume_eq_some forgotten
  refine ⟨fun other mem => sound.numbered other (List.mem_filter.mp mem).1, fun other absent => ?_⟩
  by_cases same : other = volumeId
  · subst same
    exact update_self _ _ _
  · refine (update_of_ne same _ _).trans (sound.owned other ?_)
    refine List.any_eq_false.mpr fun listed mem is => ?_
    refine List.any_eq_false.mp absent listed (List.mem_filter.mpr ⟨mem, ?_⟩) is
    rw [eq_of_beq is]
    exact bne_iff_ne.mpr same

end Store

namespace Pipeline

variable {pipeline : Pipeline}

theorem edits_commitChunks (volumeId : VolumeRowId) (store : Store) (chunks : List (List FileId))
    (commits : List Bool) :
    Edits volumeId store (commitChunks volumeId store chunks commits).1 := by
  induction chunks generalizing store commits with
  | nil => exact .refl volumeId store
  | cons chunk chunks ih =>
    unfold commitChunks
    cases applied : store.applyBatch (commits.headD true) volumeId (chunk.map removalOf) with
    | none => exact .refl volumeId store
    | some next => exact (edits_applyBatch applied).trans (ih next commits.tail)

/-! ## Epochs move forward -/

/-- No epoch is ahead of the counter. -/
structure Clocked (pipeline : Pipeline) : Prop where
  data : ∀ volumeId, pipeline.dataEpoch volumeId ≤ pipeline.queryVisibleEpoch
  configuration : ∀ volumeId, pipeline.configurationEpoch volumeId ≤ pipeline.queryVisibleEpoch

/-- The epoch of a volume is kept, or is a value the counter took since. -/
def Moves (clock clock' epoch epoch' : Nat) : Prop :=
  epoch' = epoch ∨ (clock < epoch' ∧ epoch' ≤ clock')

/-- Epochs and the counter only move forward. -/
structure Later (before after : Pipeline) : Prop where
  clock : before.queryVisibleEpoch ≤ after.queryVisibleEpoch
  data : ∀ volumeId, Moves before.queryVisibleEpoch after.queryVisibleEpoch
    (before.dataEpoch volumeId) (after.dataEpoch volumeId)
  configuration : ∀ volumeId, Moves before.queryVisibleEpoch after.queryVisibleEpoch
    (before.configurationEpoch volumeId) (after.configurationEpoch volumeId)
  tracked : ∀ volumeId ∈ before.volumeDataEpochs, volumeId ∈ after.volumeDataEpochs

/-- The volume has a data epoch that is new since `before`. -/
def Announced (before after : Pipeline) (volumeId : VolumeRowId) : Prop :=
  before.queryVisibleEpoch < after.dataEpoch volumeId

theorem Later.refl (pipeline : Pipeline) : Later pipeline pipeline :=
  ⟨le_rfl, fun _ => .inl rfl, fun _ => .inl rfl, fun _ mem => mem⟩

/-- Whatever else changed. -/
theorem later_of_same {before after : Pipeline}
    (clock : after.queryVisibleEpoch = before.queryVisibleEpoch)
    (data : after.volumeDataEpochs = before.volumeDataEpochs)
    (configuration : after.volumeConfigurationEpochs = before.volumeConfigurationEpochs) :
    Later before after := by
  refine ⟨clock.ge, fun _ => .inl ?_, fun _ => .inl ?_, fun _ mem => data ▸ mem⟩
  · rw [dataEpoch, data]
    rfl
  · rw [configurationEpoch, configuration]
    rfl

variable {first second third : Pipeline}

theorem Later.trans (early : Later first second)
    (late : Later second third) : Later first third := by
  have clock := early.clock
  have clock' := late.clock
  refine ⟨clock.trans clock', fun volumeId => ?_, fun volumeId => ?_, fun volumeId mem => ?_⟩
  · have one := early.data volumeId
    have two := late.data volumeId
    unfold Moves at one two ⊢
    omega
  · have one := early.configuration volumeId
    have two := late.configuration volumeId
    unfold Moves at one two ⊢
    omega
  · exact late.tracked volumeId (early.tracked volumeId mem)

/-- The rest of the first state does not matter. -/
theorem Later.of_same {before middle after : Pipeline} (later : Later middle after)
    (clock : middle.queryVisibleEpoch = before.queryVisibleEpoch)
    (data : middle.volumeDataEpochs = before.volumeDataEpochs)
    (configuration : middle.volumeConfigurationEpochs = before.volumeConfigurationEpochs) :
    Later before after :=
  (later_of_same clock data configuration).trans later

theorem Later.clocked {before after : Pipeline} (later : Later before after)
    (clocked : before.Clocked) : after.Clocked := by
  have clock := later.clock
  refine ⟨fun volumeId => ?_, fun volumeId => ?_⟩
  · have moved := later.data volumeId
    have bound := clocked.data volumeId
    unfold Moves at moved
    omega
  · have moved := later.configuration volumeId
    have bound := clocked.configuration volumeId
    unfold Moves at moved
    omega

variable {volumeId : VolumeRowId}

theorem Announced.later (announced : Announced first second volumeId) (later : Later second third)
    (clock : first.queryVisibleEpoch ≤ second.queryVisibleEpoch) :
    Announced first third volumeId := by
  have moved := later.data volumeId
  unfold Announced Moves at *
  omega

theorem Later.announced (later : Later first second) (announced : Announced second third volumeId) :
    Announced first third volumeId :=
  lt_of_le_of_lt later.clock announced

theorem Announced.tracked {before after : Pipeline}
    (announced : Announced before after volumeId) : volumeId ∈ after.volumeDataEpochs := by
  by_contra absent
  have none : after.dataEpoch volumeId = 0 := by
    rw [dataEpoch, AList.lookup_eq_none.mpr absent]
    rfl
  unfold Announced at announced
  omega

/-! ## The functions that advance them -/

theorem getD_lookup_insert (epochs : AList fun _ : VolumeRowId => Nat)
    (volumeId other : VolumeRowId) (value : Nat) :
    ((epochs.insert volumeId value).lookup other).getD 0 =
      if other = volumeId then value else (epochs.lookup other).getD 0 := by
  by_cases same : other = volumeId
  · subst same
    rw [if_pos rfl, AList.lookup_insert]
    rfl
  · rw [if_neg same, AList.lookup_insert_ne same]

section

variable (pipeline : Pipeline)

theorem dataEpoch_advance (volumeId other : VolumeRowId)
    (reason : QueryMutationReason) (changed : Bool) :
    (pipeline.advanceQueryVisibleEpoch volumeId reason changed).dataEpoch other =
      if volumeId ≠ 0 ∧ other = volumeId then pipeline.queryVisibleEpoch + 1
      else pipeline.dataEpoch other := by
  by_cases real : volumeId ≠ 0
  · simp [advanceQueryVisibleEpoch, dataEpoch, real, getD_lookup_insert]
  · simp [advanceQueryVisibleEpoch, dataEpoch, real]

theorem configurationEpoch_advance (volumeId other : VolumeRowId)
    (reason : QueryMutationReason) (changed : Bool) :
    (pipeline.advanceQueryVisibleEpoch volumeId reason changed).configurationEpoch other =
      if (volumeId ≠ 0 ∧ QueryMutationReason.reconfigures reason) ∧ other = volumeId then
        pipeline.queryVisibleEpoch + 1
      else pipeline.configurationEpoch other := by
  by_cases marks : volumeId ≠ 0 ∧ QueryMutationReason.reconfigures reason
  · simp [advanceQueryVisibleEpoch, configurationEpoch, marks, getD_lookup_insert]
  · have unmarked : (pipeline.advanceQueryVisibleEpoch volumeId reason
        changed).volumeConfigurationEpochs = pipeline.volumeConfigurationEpochs := if_neg marks
    rw [configurationEpoch, unmarked, if_neg fun both => marks both.1]
    rfl

theorem later_advance (volumeId : VolumeRowId) (reason : QueryMutationReason) (changed : Bool) :
    Later pipeline (pipeline.advanceQueryVisibleEpoch volumeId reason changed) := by
  have clock : (pipeline.advanceQueryVisibleEpoch volumeId reason changed).queryVisibleEpoch =
      pipeline.queryVisibleEpoch + 1 := rfl
  refine ⟨by omega, fun other => ?_, fun other => ?_, fun other mem => ?_⟩
  · rw [dataEpoch_advance, clock]
    unfold Moves
    split_ifs <;> omega
  · rw [configurationEpoch_advance, clock]
    unfold Moves
    split_ifs <;> omega
  · show other ∈ if volumeId ≠ 0 then _ else _
    split_ifs
    · exact (AList.mem_insert _).mpr (.inr mem)
    · exact mem

theorem announced_advance (real : volumeId ≠ 0) (reason : QueryMutationReason) (changed : Bool) :
    Announced pipeline (pipeline.advanceQueryVisibleEpoch volumeId reason changed) volumeId := by
  unfold Announced
  rw [dataEpoch_advance, if_pos ⟨real, rfl⟩]
  omega

theorem later_advanceEach (volumeIds : List VolumeRowId)
    (reason : QueryMutationReason) : Later pipeline (pipeline.advanceEach volumeIds reason) := by
  induction volumeIds generalizing pipeline with
  | nil => exact .refl pipeline
  | cons volumeId volumeIds ih => exact (later_advance pipeline volumeId reason false).trans (ih _)

/-- Every volume of the list gets a new epoch. -/
theorem announced_advanceEach {volumeIds : List VolumeRowId}
    (mem : volumeId ∈ volumeIds) (real : volumeId ≠ 0) (reason : QueryMutationReason) :
    Announced pipeline (pipeline.advanceEach volumeIds reason) volumeId := by
  induction volumeIds generalizing pipeline with
  | nil => cases mem
  | cons first volumeIds ih =>
    have step := later_advance pipeline first reason false
    rcases List.mem_cons.mp mem with rfl | mem
    · exact (announced_advance pipeline real reason false).later
        (later_advanceEach _ volumeIds reason) step.clock
    · exact step.announced (ih _ mem)

theorem later_advanceResidencyEpochs :
    Later pipeline pipeline.advanceResidencyEpochs :=
  (later_advanceEach pipeline _ _).trans (later_advance _ _ _ _)

theorem announced_advanceResidencyEpochs
    (tracked : volumeId ∈ pipeline.volumeDataEpochs) (real : volumeId ≠ 0) :
    Announced pipeline pipeline.advanceResidencyEpochs volumeId :=
  (announced_advanceEach pipeline (AList.mem_keys.mpr tracked) real _).later
    (later_advance _ _ _ _) (later_advanceEach pipeline _ _).clock

theorem later_enforceMemoryLimitNow (evictions : List Projection.Eviction) :
    Later pipeline (pipeline.enforceMemoryLimitNow evictions) := by
  unfold enforceMemoryLimitNow
  dsimp only
  split_ifs
  · exact (later_advanceResidencyEpochs _).of_same rfl rfl rfl
  · exact later_of_same rfl rfl rfl

/-- The memory policy announces every volume when it evicts, and none otherwise. -/
theorem announced_enforceMemoryLimitNow (evictions : List Projection.Eviction)
    (tracked : volumeId ∈ pipeline.volumeDataEpochs) (real : volumeId ≠ 0) :
    if (pipeline.projection.enforceMemoryLimit evictions).2 then
      Announced pipeline (pipeline.enforceMemoryLimitNow evictions) volumeId
    else (pipeline.enforceMemoryLimitNow evictions).epochsOf volumeId =
      pipeline.epochsOf volumeId := by
  unfold enforceMemoryLimitNow
  dsimp only
  split_ifs
  · exact announced_advanceResidencyEpochs { pipeline with
      projection := (pipeline.projection.enforceMemoryLimit evictions).1 } tracked real
  · rfl

theorem later_completeBatch (volumeId : VolumeRowId)
    (changes : List EntryChange) (evictions : List Projection.Eviction) :
    Later pipeline (pipeline.completeBatch volumeId changes evictions) := by
  have enforced := later_enforceMemoryLimitNow pipeline evictions
  unfold completeBatch
  dsimp only
  split_ifs
  · exact enforced
  · exact enforced.trans (later_advance _ _ _ _)

theorem announced_completeBatch (real : volumeId ≠ 0)
    {changes : List EntryChange} (some_ : changes ≠ []) (evictions : List Projection.Eviction) :
    Announced pipeline (pipeline.completeBatch volumeId changes evictions) volumeId := by
  have enforced := later_enforceMemoryLimitNow pipeline evictions
  unfold completeBatch
  dsimp only
  rw [if_neg some_]
  exact enforced.announced (announced_advance _ real _ _)

end

/-! ## Every operation moves them forward -/

theorem edits_applyBatchChanges (project : Projection → EntryChange → Projection)
    (pipeline : Pipeline) (volumeId : VolumeRowId) (changes : List EntryChange)
    (outcome : BatchOutcome) :
    Later pipeline (applyBatchChanges project pipeline volumeId changes outcome).1 ∧
      Edits volumeId pipeline.store
        (applyBatchChanges project pipeline volumeId changes outcome).1.store := by
  rcases applyBatchChanges_cases project pipeline volumeId changes outcome with
    ⟨-, is⟩ | ⟨store, first, rest⟩
  · rw [is]
    exact ⟨.refl pipeline, .refl _ _⟩
  · have edits := edits_applyBatch first
    rcases rest with ⟨-, is⟩ | ⟨last, -, second, is⟩ | ⟨-, -, is⟩
    · simp only [is, completeBatch_sides]
      exact ⟨(later_completeBatch _ _ _ _).of_same rfl rfl rfl, edits⟩
    · simp only [is, completeBatch_sides]
      exact ⟨(later_completeBatch _ _ _ _).of_same rfl rfl rfl, edits.trans (edits_applyBatch second)⟩
    · simp only [is, enforceMemoryLimitNow_sides]
      exact ⟨(later_enforceMemoryLimitNow _ _).of_same rfl rfl rfl, edits⟩

/-- A rebuild of one volume writes its rows if it succeeds, and dates nothing. -/
theorem edits_rebuildVolume (pipeline : Pipeline) (volumeId : VolumeRowId)
    (outcome : RebuildOutcome) :
    Later pipeline (pipeline.rebuildVolume volumeId outcome).1 ∧
    Edits volumeId pipeline.store (pipeline.rebuildVolume volumeId outcome).1.store ∧
      ((pipeline.rebuildVolume volumeId outcome).2 = false →
        (pipeline.rebuildVolume volumeId outcome).1.store = pipeline.store) := by
  unfold rebuildVolume
  dsimp only
  split_ifs
  iterate 3 exact ⟨later_of_same rfl rfl rfl, .refl _ _, fun _ => rfl⟩
  · split
    · next applied =>
      exact ⟨later_of_same rfl rfl rfl, edits_applyBatch applied, fun failed => by cases failed⟩
    · exact ⟨later_of_same rfl rfl rfl, .refl _ _, fun _ => rfl⟩

/-- A batch as it reaches `applyBatchChanges`. -/
structure Batch where
  volumeId : VolumeRowId
  changes : List EntryChange
  outcome : BatchOutcome
  project : Projection → EntryChange → Projection

def Batch.apply (batch : Batch) (pipeline : Pipeline) : Pipeline :=
  (applyBatchChanges batch.project pipeline batch.volumeId batch.changes batch.outcome).1

def mftBatch (volumeId : VolumeRowId) (records : List EntryRecord) (outcome : BatchOutcome) :
    Batch where
  volumeId := volumeId
  changes := records.map changeOfMft
  outcome := outcome
  project := fun projection change => projection.upsert volumeId change.record

def usnBatch (volumeId : VolumeRowId) (outcome : BatchOutcome) (changes : List EntryChange) :
    Batch where
  volumeId := volumeId
  changes := changes
  outcome := outcome
  project := projectUsnChange volumeId

/-- `none` for the other operations, and for journal records that do not convert. -/
def Operation.batch : Operation → Option Batch
  | .applyMftBatchV1 volumeId records outcome =>
    some (mftBatch volumeId (records.map toEntryRecordOfMftV1) outcome)
  | .applyMftBatchV2 volumeId records outcome =>
    some (mftBatch volumeId (records.map toEntryRecordOfMftV2) outcome)
  | .applyUsnBatchV1 volumeId records outcome =>
    ((records.map upgradeUsnDeltaV1).mapM changeOfUsnV2).map (usnBatch volumeId outcome)
  | .applyUsnBatchV2 volumeId records outcome =>
    (records.mapM changeOfUsnV2).map (usnBatch volumeId outcome)
  | .applyUsnBatchV3 volumeId records outcome =>
    (records.mapM changeOfUsnV3).map (usnBatch volumeId outcome)
  | _ => none

def Operation.isBatch : Operation → Bool
  | .applyMftBatchV1 .. | .applyMftBatchV2 .. | .applyUsnBatchV1 .. | .applyUsnBatchV2 ..
  | .applyUsnBatchV3 .. => true
  | _ => false

variable {operation : Operation}

theorem perform_of_isBatch (pipeline : Pipeline) (isBatch : Operation.isBatch operation = true) :
    pipeline.perform operation =
      (Operation.batch operation).elim pipeline (Batch.apply · pipeline) := by
  cases operation with
  | applyMftBatchV1 | applyMftBatchV2 =>
    simp [perform, Operation.batch, applyMftBatchV1, applyMftBatchV2,
      applyMftBatchChanges, Batch.apply, mftBatch, comp_def]
  | applyUsnBatchV1 volumeId records outcome =>
    unfold perform Operation.batch applyUsnBatchV1 applyUsnBatchV2
    dsimp only
    cases (records.map upgradeUsnDeltaV1).mapM changeOfUsnV2 <;> rfl
  | applyUsnBatchV2 volumeId records outcome =>
    unfold perform Operation.batch applyUsnBatchV2
    dsimp only
    cases records.mapM changeOfUsnV2 <;> rfl
  | applyUsnBatchV3 volumeId records outcome =>
    unfold perform Operation.batch applyUsnBatchV3
    dsimp only
    cases records.mapM changeOfUsnV3 <;> rfl
  | _ => cases isBatch

/-! ## What every operation does to the store -/

/-- The volumes that appear are announced, and those whose rows change too. -/
structure Reports (before after : Pipeline) : Prop where
  sound : after.store.Sound
  appears : ∀ volumeId, after.store.hasVolume volumeId = true →
    before.store.hasVolume volumeId = true ∨ Announced before after volumeId
  changes : ∀ volumeId, after.store.table volumeId ≠ before.store.table volumeId →
    Announced before after volumeId

/-- The epochs move forward, and what happens to a sound store shows in them. -/
structure Advances (before after : Pipeline) : Prop where
  later : Later before after
  reports : before.store.Sound → Reports before after

namespace Advances

variable {before after : Pipeline}

theorem of_store (later : Later before after) (same : after.store = before.store) :
    Advances before after := by
  refine ⟨later, fun sound => ⟨same ▸ sound, fun volumeId present => .inl (same ▸ present),
    fun volumeId changed => ?_⟩⟩
  rw [same] at changed
  exact absurd rfl changed

theorem of_edits (later : Later before after) (edits : Edits volumeId before.store after.store)
    (announced : volumeId ≠ 0 → after.store.table volumeId ≠ before.store.table volumeId →
      Announced before after volumeId) : Advances before after := by
  refine ⟨later, fun sound => ⟨edits.sound sound, fun other present =>
    .inl ((edits.hasVolume other).symm.trans present), fun other changed => ?_⟩⟩
  obtain ⟨rfl, present⟩ := edits.changed sound changed
  exact announced (sound.ne_zero present) changed

end Advances

theorem advances_finishReconciliationPass (volumeId : VolumeRowId) (listed : Bool)
    (commits : List Bool) :
    Advances pipeline (pipeline.finishReconciliationPass volumeId listed commits) := by
  unfold finishReconciliationPass
  cases pipeline.reconciliationSeen volumeId with
  | none => exact .of_store (.refl pipeline) rfl
  | some seen =>
    dsimp only
    set chunks := (pipeline.reconciliationRemovals volumeId seen).toChunks
      reconciliationRemovalChunkRows
    have edits := edits_commitChunks volumeId pipeline.store chunks commits
    have rows := (commitChunks_spec volumeId pipeline.store chunks commits).1
    split_ifs with _ none
    · exact .of_store (.refl pipeline) rfl
    iterate 2
      refine .of_edits (later_of_same rfl rfl rfl) edits fun _ changed => absurd ?_ changed
      exact rows.trans (by rw [none, Table.removeAll_nil])
    iterate 2
      exact .of_edits ((later_advance _ _ _ _).of_same rfl rfl rfl) edits fun real _ =>
        announced_advance _ real .entryMutation false

theorem advances_resolveVolume (inserted : Bool) (key : VolumeKey) :
    Advances pipeline (pipeline.resolveVolume inserted key).1 := by
  unfold resolveVolume
  cases resolved : pipeline.store.getOrCreateVolume inserted key with
  | none => exact .of_store (.refl pipeline) rfl
  | some result =>
    obtain ⟨volumeId, created, next⟩ := result
    rcases getOrCreateVolume_eq_some resolved with ⟨rfl, rfl⟩ | ⟨rfl, fresh, rfl⟩
    · exact .of_store (later_of_same rfl rfl rfl) rfl
    · refine ⟨(later_advance _ _ _ _).of_same rfl rfl rfl, fun sound =>
        ⟨sound.getOrCreateVolume resolved, fun other present => ?_,
          fun other changed => absurd rfl changed⟩⟩
      obtain ⟨metadata, mem, is⟩ := List.any_eq_true.mp present
      rcases List.mem_append.mp mem with old | new
      · exact .inl (List.any_eq_true.mpr ⟨metadata, old, is⟩)
      · rw [List.mem_singleton.mp new] at is
        rw [← eq_of_beq is]
        exact .inr (announced_advance _ (fresh ▸ Nat.succ_ne_zero _) .volumeConfiguration true)

theorem advances_setVolumeAvailable (volumeId : VolumeRowId) (available : Bool) :
    Advances pipeline (pipeline.setVolumeAvailable volumeId available) := by
  have sound (sound : pipeline.store.Sound) := sound.setVolumeAvailable volumeId available
  have appears := hasVolume_setVolumeAvailable pipeline.store volumeId available
  unfold setVolumeAvailable
  dsimp only
  split_ifs
  · exact ⟨(later_advance _ _ _ _).of_same rfl rfl rfl, fun before => ⟨sound before,
      fun other present => .inl ((appears other).symm.trans present),
      fun other changed => absurd rfl changed⟩⟩
  · exact ⟨later_of_same rfl rfl rfl, fun before => ⟨sound before,
      fun other present => .inl ((appears other).symm.trans present),
      fun other changed => absurd rfl changed⟩⟩

theorem advances_forgetVolume (volumeId : VolumeRowId) (committed : Bool) :
    Advances pipeline (pipeline.forgetVolume volumeId committed).1 := by
  unfold forgetVolume
  cases forgotten : pipeline.store.forgetVolume committed volumeId with
  | none => exact .of_store (.refl pipeline) rfl
  | some store =>
    refine ⟨(later_advance _ _ _ _).of_same rfl rfl rfl, fun sound => ?_⟩
    have after := sound.forgetVolume forgotten
    obtain ⟨present, rfl⟩ := forgetVolume_eq_some forgotten
    refine ⟨after, fun other listed => ?_, fun other changed => ?_⟩
    · obtain ⟨metadata, mem, is⟩ := List.any_eq_true.mp listed
      exact .inl (List.any_eq_true.mpr ⟨metadata, (List.mem_filter.mp mem).1, is⟩)
    · have same : other = volumeId := by
        by_contra differs
        exact changed (congrArg StoredRows.table (update_of_ne differs _ _))
      rw [same]
      exact announced_advance _ (sound.ne_zero present) .forget true

/-- The volumes whose rows change are among those that are rebuilt. -/
theorem reports_rebuildVolumes (outcomes : VolumeRowId → RebuildOutcome)
    (volumeIds : List VolumeRowId) (pipeline : Pipeline) :
    Later pipeline (rebuildVolumes outcomes pipeline volumeIds).1 ∧ (pipeline.store.Sound →
      (rebuildVolumes outcomes pipeline volumeIds).1.store.Sound ∧
      (∀ volumeId, (rebuildVolumes outcomes pipeline volumeIds).1.store.hasVolume volumeId =
        pipeline.store.hasVolume volumeId) ∧
      ∀ volumeId, (rebuildVolumes outcomes pipeline volumeIds).1.store.table volumeId ≠
          pipeline.store.table volumeId →
        volumeId ∈ (rebuildVolumes outcomes pipeline volumeIds).2 ∧ volumeId ≠ 0) := by
  induction volumeIds generalizing pipeline with
  | nil =>
    exact ⟨.refl pipeline, fun sound => ⟨sound, fun _ => rfl, fun _ changed => absurd rfl changed⟩⟩
  | cons first volumeIds ih =>
    obtain ⟨early, edits, failed⟩ := edits_rebuildVolume pipeline first (outcomes first)
    obtain ⟨late, rest⟩ := ih (pipeline.rebuildVolume first (outcomes first)).1
    refine ⟨early.trans late, fun sound => ?_⟩
    obtain ⟨last, listed, later⟩ := rest (edits.sound sound)
    refine ⟨last, fun volumeId => (listed volumeId).trans (edits.hasVolume volumeId), ?_⟩
    intro volumeId changed
    unfold rebuildVolumes
    dsimp only
    by_cases here : (pipeline.rebuildVolume first (outcomes first)).1.store.table volumeId =
        pipeline.store.table volumeId
    · obtain ⟨mem, real⟩ := later volumeId fun same => changed (same.trans here)
      refine ⟨?_, real⟩
      split_ifs
      · exact .tail _ mem
      · exact mem
    · obtain ⟨rfl, present⟩ := edits.changed sound here
      refine ⟨?_, sound.ne_zero present⟩
      split_ifs with rebuilt
      · exact .head _
      · rw [failed (eq_false_of_ne_true rebuilt)] at here
        exact absurd rfl here

theorem advances_rebuildAll (outcomes : VolumeRowId → RebuildOutcome) :
    Advances pipeline (pipeline.rebuildAll outcomes) := by
  obtain ⟨later, rest⟩ :=
    reports_rebuildVolumes outcomes (pipeline.store.volumes.map (·.rowId)) pipeline
  have store : (pipeline.rebuildAll outcomes).store = (rebuildVolumes outcomes pipeline
      (pipeline.store.volumes.map (·.rowId))).1.store := (advanceEach_sides ..).1
  refine ⟨later.trans (later_advanceEach _ _ _), fun sound => ?_⟩
  obtain ⟨last, listed, changes⟩ := rest sound
  refine ⟨store ▸ last, fun volumeId present => ?_, fun volumeId changed => ?_⟩
  · rw [store, listed] at present
    exact .inl present
  · rw [store] at changed
    obtain ⟨mem, real⟩ := changes volumeId changed
    exact later.announced (announced_advanceEach _ mem real .rebuild)

theorem advances_perform (other : Operation.isBatch operation = false) :
    Advances pipeline (pipeline.perform operation) := by
  cases operation with
  | beginReconciliationPass | abortReconciliationPass | setBulkScanActive =>
    exact .of_store (later_of_same rfl rfl rfl) rfl
  | finishReconciliationPass volumeId listed commits =>
    exact advances_finishReconciliationPass volumeId listed commits
  | resolveVolume inserted key => exact advances_resolveVolume inserted key
  | setVolumeRules | unloadVolumeFromProjection =>
    simp only [perform, setVolumeRules, unloadVolumeFromProjection]
    split_ifs
    all_goals first
      | exact .of_store (later_of_same rfl rfl rfl) rfl
      | exact .of_store ((later_advance _ _ _ _).of_same rfl rfl rfl) rfl
  | setVolumeAvailable volumeId available => exact advances_setVolumeAvailable volumeId available
  | forgetVolume volumeId committed => exact advances_forgetVolume volumeId committed
  | exportDirectorySnapshot volumeId reload =>
    show Advances pipeline (pipeline.exportDirectorySnapshot volumeId reload)
    unfold exportDirectorySnapshot
    dsimp only
    split_ifs
    · exact .of_store ((later_advanceResidencyEpochs _).of_same rfl rfl rfl) (by simp)
    · exact .of_store (later_of_same rfl rfl rfl) rfl
  | setProjectionMemoryBudget roots =>
    exact .of_store ((later_advanceEach _ _ _).of_same rfl rfl rfl) (advanceEach_sides ..).1
  | rebuildAll outcomes => exact advances_rebuildAll outcomes
  | _ => cases other

/-- **Every operation moves the epochs forward.** -/
theorem later_perform (pipeline : Pipeline) (operation : Operation) :
    Later pipeline (pipeline.perform operation) := by
  cases isBatch : Operation.isBatch operation with
  | false => exact (advances_perform isBatch).later
  | true =>
    rw [perform_of_isBatch pipeline isBatch]
    cases Operation.batch operation with
    | none => exact .refl pipeline
    | some batch => exact (edits_applyBatchChanges _ _ _ _ _).1

/-! ## Stranded batches -/

/-- The rows are committed, some of them are excluded by the rules, these fail to be
removed, and the memory policy has nothing to evict. -/
def Batch.stranded (batch : Batch) (pipeline : Pipeline) : Bool :=
  match pipeline.store.applyBatch batch.outcome.committed batch.volumeId batch.changes with
  | none => false
  | some store =>
    let applied := pipeline.projected batch.project store batch.changes
    let excluded := applied.ruleExcluded batch.volumeId batch.changes
    decide (excluded ≠ []) &&
      (store.applyBatch batch.outcome.pruned batch.volumeId excluded).isNone &&
      !(applied.projection.enforceMemoryLimit batch.outcome.evictions).2

/-- The operation is a stranded batch of this volume. -/
def stranded (pipeline : Pipeline) (operation : Operation) (volumeId : VolumeRowId) : Bool :=
  (Operation.batch operation).any fun batch =>
    batch.volumeId == volumeId && batch.stranded pipeline

/-- **How a batch ends**: refused; complete; or stranded, unless the memory policy has something to
evict. -/
theorem Batch.ends (batch : Batch) (pipeline : Pipeline) :
    batch.apply pipeline = pipeline ∨ ∃ applied, Later pipeline applied ∧
      (∀ volumeId, applied.epochsOf volumeId = pipeline.epochsOf volumeId) ∧
      applied.projection.evictedVolumes =
        (batch.changes.foldl batch.project pipeline.projection).evictedVolumes ∧
      (batch.changes = [] → applied.store = pipeline.store) ∧
      (batch.stranded pipeline = false ∧ batch.apply pipeline =
          applied.completeBatch batch.volumeId batch.changes batch.outcome.evictions ∨
        batch.stranded pipeline =
            !(applied.projection.enforceMemoryLimit batch.outcome.evictions).2 ∧
          batch.apply pipeline = applied.enforceMemoryLimitNow batch.outcome.evictions) := by
  unfold Batch.apply Batch.stranded
  rcases applyBatchChanges_cases batch.project pipeline batch.volumeId batch.changes
    batch.outcome with ⟨-, is⟩ | ⟨store, first, rest⟩
  · exact .inl (by rw [is])
  · have idle : batch.changes = [] → store = pipeline.store := by
      intro none
      rw [none] at first
      cases first
      rfl
    rw [first]
    set gated := (pipeline.projected batch.project store batch.changes).gated batch.volumeId
      batch.changes with gated_eq
    refine .inr ?_
    rcases rest with ⟨none, is⟩ | ⟨last, some_, second, is⟩ | ⟨some_, second, is⟩ <;> rw [is]
    · exact ⟨gated, later_of_same rfl rfl rfl, fun _ => rfl, rfl, idle, .inl ⟨by simp [none], rfl⟩⟩
    · refine ⟨gated.pruned batch.volumeId last _, later_of_same rfl rfl rfl, fun _ => rfl,
        Projection.removeBatch_evictedVolumes .., fun none => ?_, .inl ⟨by simp [second], rfl⟩⟩
      exact absurd (by simp [ruleExcluded, none]) some_
    · refine ⟨gated, later_of_same rfl rfl rfl, fun _ => rfl, rfl, idle, .inr ⟨?_, rfl⟩⟩
      simp [second, some_, gated_eq, Pipeline.gated, markSeen]

/-- A batch announces the rows it changes exactly if it is not stranded. -/
theorem batch_announces_iff (sound : pipeline.store.Sound)
    (tracked : ∀ volumeId, pipeline.store.hasVolume volumeId = true →
      volumeId ∈ pipeline.volumeDataEpochs) (batch : Batch)
    (changed : (batch.apply pipeline).store.table batch.volumeId ≠
      pipeline.store.table batch.volumeId) :
    if batch.stranded pipeline then
      (batch.apply pipeline).epochsOf batch.volumeId = pipeline.epochsOf batch.volumeId
    else Announced pipeline (batch.apply pipeline) batch.volumeId := by
  obtain ⟨-, present⟩ :=
    (edits_applyBatchChanges batch.project pipeline batch.volumeId batch.changes
      batch.outcome).2.changed sound changed
  have real := sound.ne_zero present
  rcases batch.ends pipeline with same | ⟨applied, later, dated, -, idle, ⟨calm, is⟩ | ⟨silent, is⟩⟩
  · exact absurd (by rw [same]) changed
  · rw [if_neg (by simp [calm]), is]
    refine later.announced (announced_completeBatch applied real (fun none => changed ?_) _)
    rw [is, (applied.completeBatch_sides ..).1, idle none]
  · have policy := announced_enforceMemoryLimitNow applied batch.outcome.evictions
      (later.tracked _ (tracked batch.volumeId present)) real
    rw [silent, is]
    cases ran : (applied.projection.enforceMemoryLimit batch.outcome.evictions).2 with
    | true =>
      rw [ran] at policy
      exact later.announced policy
    | false =>
      rw [ran] at policy
      exact policy.trans (dated _)

/-! ## Volumes that turn cold or hot -/

/-- A pass that evicts nothing changes nothing. -/
theorem evict_idle {projection : Projection} {eviction : Projection.Eviction}
    (idle : (projection.evict eviction).2 = false) : (projection.evict eviction).1 = projection := by
  cases eviction with
  | subtree root => exact if_pos (by simpa [Projection.evict] using idle)
  | volume volumeId => exact if_pos (by simpa [Projection.evict] using idle)

theorem enforceMemoryLimit_idle {projection : Projection} {evictions : List Projection.Eviction}
    (idle : (projection.enforceMemoryLimit evictions).2 = false) :
    (projection.enforceMemoryLimit evictions).1 = projection := by
  induction evictions generalizing projection with
  | nil => rfl
  | cons eviction evictions ih =>
    obtain ⟨now, later⟩ := Bool.or_eq_false_iff.mp idle
    exact (ih later).trans (evict_idle now)

/-- The volume turns from cold to hot, or from hot to cold. -/
def Turns (before after : Pipeline) (volumeId : VolumeRowId) : Prop :=
  after.projection.needsReload volumeId ≠ before.projection.needsReload volumeId

theorem not_turns_of_same {before after : Pipeline}
    (same : after.projection.evictedVolumes = before.projection.evictedVolumes) :
    ¬ Turns before after volumeId := by
  refine not_not_intro ?_
  rw [Projection.needsReload, same]
  rfl

theorem enforceMemoryLimitNow_ran {evictions : List Projection.Eviction}
    (turns : Turns pipeline (pipeline.enforceMemoryLimitNow evictions) volumeId) :
    (pipeline.projection.enforceMemoryLimit evictions).2 = true := by
  by_contra idle
  refine turns ?_
  rw [(pipeline.enforceMemoryLimitNow_sides evictions).2,
    enforceMemoryLimit_idle (eq_false_of_ne_true idle)]

section

variable {before : Pipeline} (applied : Pipeline) (tracked : volumeId ∈ applied.volumeDataEpochs)
  (real : volumeId ≠ 0)
  (marks : applied.projection.evictedVolumes = before.projection.evictedVolumes)
  {evictions : List Projection.Eviction}

include tracked real marks

theorem announces_turn_enforced
    (turns : Turns before (applied.enforceMemoryLimitNow evictions) volumeId) :
    Announced applied (applied.enforceMemoryLimitNow evictions) volumeId ∧
      (applied.projection.enforceMemoryLimit evictions).2 = true := by
  have turned : Turns applied (applied.enforceMemoryLimitNow evictions) volumeId := by
    rw [Turns, Projection.needsReload, Projection.needsReload, marks]
    exact turns
  have ran := enforceMemoryLimitNow_ran turned
  have policy := announced_enforceMemoryLimitNow applied evictions tracked real
  rw [if_pos ran] at policy
  exact ⟨policy, ran⟩

theorem announces_turn_completed {own : VolumeRowId} {changes : List EntryChange}
    (turns : Turns before (applied.completeBatch own changes evictions) volumeId) :
    Announced applied (applied.completeBatch own changes evictions) volumeId := by
  unfold completeBatch at turns ⊢
  dsimp only at turns ⊢
  split_ifs at turns ⊢
  · exact (announces_turn_enforced applied tracked real marks turns).1
  · exact (announces_turn_enforced applied tracked real marks turns).1.later
      (later_advance ..) (later_enforceMemoryLimitNow ..).clock

end

/-- **A batch that turns a volume announces it**, since only the memory policy can have. -/
theorem Batch.announces_turn {batch : Batch} (tracked : volumeId ∈ pipeline.volumeDataEpochs)
    (real : volumeId ≠ 0)
    (keeps : (batch.changes.foldl batch.project pipeline.projection).evictedVolumes =
      pipeline.projection.evictedVolumes)
    (turns : Turns pipeline (batch.apply pipeline) volumeId) :
    Announced pipeline (batch.apply pipeline) volumeId ∧ batch.stranded pipeline = false := by
  rcases batch.ends pipeline with same | ⟨applied, later, -, marks, -, ⟨calm, is⟩ | ⟨silent, is⟩⟩
  · rw [same] at turns
    exact absurd rfl turns
  · rw [is] at turns ⊢
    have announced := announces_turn_completed applied (later.tracked _ tracked) real
      (marks.trans keeps) turns
    exact ⟨later.announced announced, calm⟩
  · rw [is] at turns ⊢
    obtain ⟨announced, ran⟩ := announces_turn_enforced applied (later.tracked _ tracked) real
      (marks.trans keeps) turns
    exact ⟨later.announced announced, by rw [silent, ran]; rfl⟩

/-- **A batch reaches the projection as it reaches the store.** -/
theorem projects_of_batch {batch : Batch} (made : Operation.batch operation = some batch)
    (projection : Projection) : Projects batch.volumeId batch.changes projection
      (batch.changes.foldl batch.project projection) := by
  cases operation with
  | applyMftBatchV1 | applyMftBatchV2 =>
    cases made
    refine projects_foldl (fun change mem projection => ?_) projection
    obtain ⟨record, -, rfl⟩ := List.mem_map.mp mem
    exact projects_upsert _ record projection
  | applyUsnBatchV1 | applyUsnBatchV2 | applyUsnBatchV3 =>
    obtain ⟨changes, -, rfl⟩ := Option.map_eq_some_iff.mp made
    exact projects_foldl (fun change _ projection => projects_usnChange _ change projection) _
  | _ => cases made

/-- Unloading can only make its own volume cold. -/
theorem turns_evictVolume {projection : Projection} {own : VolumeRowId}
    (turns : (projection.evictVolume own).needsReload volumeId ≠ projection.needsReload volumeId) :
    volumeId = own ∧ projection.needsReload volumeId = false ∧
      (projection.evictVolume own).needsReload volumeId = true := by
  unfold Projection.evictVolume at turns ⊢
  split_ifs at turns ⊢
  · exact absurd rfl turns
  · simp only [Projection.needsReload, Finset.mem_insert, ne_eq, decide_eq_decide,
      decide_eq_true_eq, decide_eq_false_iff_not] at turns ⊢
    tauto

/-! ## Rebuilds that announce nothing -/

/-- The operation is a rebuild in which the volume does not count as rebuilt. -/
def skipped (pipeline : Pipeline) (operation : Operation) (volumeId : VolumeRowId) : Bool :=
  match operation with
  | .rebuildAll outcomes => decide (volumeId ∉
      (rebuildVolumes outcomes pipeline (pipeline.store.volumes.map (·.rowId))).2)
  | _ => false

theorem epochsOf_rebuildVolume (pipeline : Pipeline) (first : VolumeRowId)
    (outcome : RebuildOutcome) :
    (pipeline.rebuildVolume first outcome).1.epochsOf volumeId = pipeline.epochsOf volumeId := by
  unfold rebuildVolume
  dsimp only
  split_ifs
  iterate 3 rfl
  split <;> rfl

theorem epochsOf_rebuildVolumes (outcomes : VolumeRowId → RebuildOutcome)
    (volumeIds : List VolumeRowId) (pipeline : Pipeline) :
    (rebuildVolumes outcomes pipeline volumeIds).1.epochsOf volumeId =
      pipeline.epochsOf volumeId := by
  induction volumeIds generalizing pipeline with
  | nil => rfl
  | cons first volumeIds ih =>
    exact (ih _).trans (epochsOf_rebuildVolume pipeline first (outcomes first))

theorem epochsOf_advanceEach {volumeIds : List VolumeRowId} (absent : volumeId ∉ volumeIds)
    (reason : QueryMutationReason) (pipeline : Pipeline) :
    (pipeline.advanceEach volumeIds reason).epochsOf volumeId = pipeline.epochsOf volumeId := by
  induction volumeIds generalizing pipeline with
  | nil => rfl
  | cons first volumeIds ih =>
    rw [List.mem_cons, not_or] at absent
    refine (ih absent.2 _).trans ?_
    simp [epochsOf, dataEpoch_advance, configurationEpoch_advance, absent.1]

/-- A rebuild announces exactly the volumes that count as rebuilt. -/
theorem rebuildAll_announces (outcomes : VolumeRowId → RebuildOutcome) (real : volumeId ≠ 0) :
    if pipeline.skipped (.rebuildAll outcomes) volumeId then
      (pipeline.rebuildAll outcomes).epochsOf volumeId = pipeline.epochsOf volumeId
    else Announced pipeline (pipeline.rebuildAll outcomes) volumeId := by
  simp only [skipped, decide_eq_true_eq]
  split_ifs with rebuilt
  · exact (reports_rebuildVolumes ..).1.announced (announced_advanceEach _ rebuilt real .rebuild)
  · exact (epochsOf_advanceEach rebuilt _ _).trans (epochsOf_rebuildVolumes ..)

/-! ## Whole histories -/

/-- What every reachable pipeline keeps. -/
structure Settled (pipeline : Pipeline) : Prop where
  sound : pipeline.store.Sound
  clocked : pipeline.Clocked
  tracked : ∀ volumeId, pipeline.store.hasVolume volumeId = true →
    volumeId ∈ pipeline.volumeDataEpochs

theorem Settled.perform (settled : pipeline.Settled) (operation : Operation) :
    (pipeline.perform operation).Settled := by
  have later := later_perform pipeline operation
  have clocked := later.clocked settled.clocked
  cases isBatch : Operation.isBatch operation with
  | false =>
    have reports := (advances_perform isBatch).reports settled.sound
    refine ⟨reports.sound, clocked, fun volumeId present => ?_⟩
    rcases reports.appears volumeId present with old | announced
    · exact later.tracked volumeId (settled.tracked volumeId old)
    · exact announced.tracked
  | true =>
    rw [perform_of_isBatch pipeline isBatch] at later clocked ⊢
    cases made : Operation.batch operation with
    | none => exact settled
    | some batch =>
      rw [made] at later clocked
      have edits := (edits_applyBatchChanges batch.project pipeline batch.volumeId
        batch.changes batch.outcome).2
      refine ⟨edits.sound settled.sound, clocked, fun volumeId present => ?_⟩
      refine later.tracked volumeId (settled.tracked volumeId ?_)
      exact (edits.hasVolume volumeId).symm.trans present

theorem settled_of_reachable {ok : Pipeline → Operation → Prop} (reach : ReachableBy ok pipeline) :
    pipeline.Settled := by
  refine Transition.Reachable.invariant ?_ ?_ reach
  · rintro _ rfl
    refine ⟨⟨fun _ mem => absurd mem List.not_mem_nil, fun _ _ => rfl⟩, ⟨fun _ => ?_, fun _ => ?_⟩,
      fun _ present => ?_⟩
    · exact Nat.zero_le 2
    · exact Nat.zero_le 2
    · cases present
  · rintro before operation _ settled - step
    cases step
    exact settled.perform operation

/-- The operation tells nobody: a stranded batch, or a rebuild that skips the volume. -/
def unannounced (pipeline : Pipeline) (operation : Operation) (volumeId : VolumeRowId) : Bool :=
  pipeline.stranded operation volumeId || pipeline.skipped operation volumeId

/-- The epochs of the volume are new, or the operation tells nobody and they are the old ones. -/
def Announces (pipeline : Pipeline) (operation : Operation) (volumeId : VolumeRowId) : Prop :=
  if pipeline.unannounced operation volumeId then
    (pipeline.perform operation).epochsOf volumeId = pipeline.epochsOf volumeId
  else Announced pipeline (pipeline.perform operation) volumeId

theorem skipped_eq_false (isBatch : Operation.isBatch operation = true) :
    pipeline.skipped operation volumeId = false := by
  cases operation with
  | rebuildAll => cases isBatch
  | _ => rfl

theorem Announces.of_announced (told : pipeline.unannounced operation volumeId = false)
    (announced : Announced pipeline (pipeline.perform operation) volumeId) :
    pipeline.Announces operation volumeId := by
  rw [Announces, told]
  exact announced

/-- What becomes of the epochs of a volume whose rows an operation changes. -/
theorem Settled.announces_changed (settled : pipeline.Settled)
    (changed : (pipeline.perform operation).store.table volumeId ≠ pipeline.store.table volumeId) :
    pipeline.Announces operation volumeId := by
  cases isBatch : Operation.isBatch operation with
  | false =>
    have announced := ((advances_perform isBatch).reports settled.sound).changes volumeId changed
    cases operation with
    | applyMftBatchV1 | applyMftBatchV2 | applyUsnBatchV1 | applyUsnBatchV2 | applyUsnBatchV3 =>
      cases isBatch
    | rebuildAll outcomes =>
      have rebuilt := reports_rebuildVolumes outcomes (pipeline.store.volumes.map (·.rowId)) pipeline
      refine rebuildAll_announces outcomes ((rebuilt.2 settled.sound).2.2 volumeId ?_).2
      rwa [← (advanceEach_sides ..).1]
    | _ => exact announced
  | true =>
    rw [Announces, unannounced, skipped_eq_false isBatch, Bool.or_false, stranded]
    rw [perform_of_isBatch pipeline isBatch] at changed ⊢
    cases made : Operation.batch operation with
    | none =>
      rw [made] at changed
      exact absurd rfl changed
    | some batch =>
      rw [made] at changed
      have edits := (edits_applyBatchChanges batch.project pipeline batch.volumeId
        batch.changes batch.outcome).2
      obtain ⟨rfl, -⟩ := edits.changed settled.sound changed
      have announces := batch_announces_iff settled.sound settled.tracked batch changed
      simpa using announces

/-- **What becomes of the epochs of a volume that turns cold or hot.** -/
theorem Settled.announces_turn (settled : pipeline.Settled)
    (listed : pipeline.store.hasVolume volumeId = true)
    (turns : Turns pipeline (pipeline.perform operation) volumeId) :
    pipeline.Announces operation volumeId := by
  have real := settled.sound.ne_zero listed
  have tracked := settled.tracked volumeId listed
  cases isBatch : Operation.isBatch operation with
  | true =>
    rw [Announces, unannounced, skipped_eq_false isBatch, Bool.or_false, stranded]
    rw [perform_of_isBatch pipeline isBatch] at turns ⊢
    cases made : Operation.batch operation with
    | none =>
      rw [made] at turns
      exact absurd rfl turns
    | some batch =>
      rw [made] at turns
      obtain ⟨announced, calm⟩ := Batch.announces_turn tracked real
        (projects_of_batch made _).evictedVolumes turns
      simpa [calm] using announced
  | false =>
    cases operation with
    | applyMftBatchV1 | applyMftBatchV2 | applyUsnBatchV1 | applyUsnBatchV2 | applyUsnBatchV3 =>
      cases isBatch
    | rebuildAll outcomes => exact rebuildAll_announces outcomes real
    | exportDirectorySnapshot own reload =>
      refine .of_announced rfl ?_
      change Turns pipeline (pipeline.exportDirectorySnapshot own reload) volumeId at turns
      show Announced pipeline (pipeline.exportDirectorySnapshot own reload) volumeId
      unfold exportDirectorySnapshot at turns ⊢
      dsimp only at turns ⊢
      split_ifs at turns ⊢ with wasCold
      · exact announced_advanceResidencyEpochs { pipeline with
          projection := (pipeline.reloadEvictedVolume own reload).1 } tracked real
      · refine absurd turns (not_turns_of_same ?_)
        simp [reloadEvictedVolume, wasCold]
    | setProjectionMemoryBudget roots =>
      refine .of_announced rfl ?_
      change Turns pipeline (pipeline.setProjectionMemoryBudget roots) volumeId at turns
      show Announced pipeline (pipeline.setProjectionMemoryBudget roots) volumeId
      unfold setProjectionMemoryBudget at turns ⊢
      rw [Turns, (advanceEach_sides ..).2] at turns
      obtain ⟨metadata, mem, is⟩ := List.any_eq_true.mp listed
      refine announced_advanceEach { pipeline with
        projection := (pipeline.projection.enforceMemoryLimit _).1 } ?_ real _
      refine List.mem_filter.mpr ⟨List.mem_map.mpr ⟨metadata, mem, eq_of_beq is⟩, ?_⟩
      exact bne_iff_ne.mpr turns.symm
    | unloadVolumeFromProjection own =>
      refine .of_announced rfl ?_
      change Turns pipeline (pipeline.unloadVolumeFromProjection own) volumeId at turns
      show Announced pipeline (pipeline.unloadVolumeFromProjection own) volumeId
      unfold unloadVolumeFromProjection at turns ⊢
      dsimp only at turns ⊢
      have marks : (pipeline.projection.evictVolume own).needsReload volumeId ≠
          pipeline.projection.needsReload volumeId := by
        split_ifs at turns <;> exact turns
      obtain ⟨rfl, hot, cold⟩ := turns_evictVolume marks
      rw [if_pos (by simp [hot, cold])]
      exact announced_advance { pipeline with
        projection := pipeline.projection.evictVolume volumeId } real .projectionResidency false
    | finishReconciliationPass own listed commits =>
      refine absurd turns (not_turns_of_same ?_)
      show (pipeline.finishReconciliationPass own listed commits).projection.evictedVolumes = _
      unfold finishReconciliationPass
      cases pipeline.reconciliationSeen own with
      | none => rfl
      | some seen =>
        dsimp only
        split_ifs <;> first | rfl | exact Projection.removeBatch_evictedVolumes ..
    | resolveVolume inserted key =>
      refine absurd turns (not_turns_of_same ?_)
      show (pipeline.resolveVolume inserted key).1.projection.evictedVolumes = _
      unfold resolveVolume
      cases pipeline.store.getOrCreateVolume inserted key with
      | none => rfl
      | some result => dsimp only; split_ifs <;> rfl
    | forgetVolume own committed =>
      refine absurd turns (not_turns_of_same ?_)
      show (pipeline.forgetVolume own committed).1.projection.evictedVolumes = _
      unfold Pipeline.forgetVolume
      cases pipeline.store.forgetVolume committed own with
      | none => rfl
      | some store => exact Projection.removeBatch_evictedVolumes ..
    | setVolumeRules | setVolumeAvailable =>
      refine absurd turns (not_turns_of_same ?_)
      simp only [Pipeline.perform, setVolumeRules, setVolumeAvailable]
      split_ifs <;> rfl
    | beginReconciliationPass | abortReconciliationPass | setBulkScanActive =>
      exact absurd turns (not_turns_of_same rfl)

theorem later_history (history : List Operation) (captured : Pipeline) :
    Later captured (history.foldl perform captured) := by
  induction history generalizing captured with
  | nil => exact .refl captured
  | cons operation history ih => exact (later_perform captured operation).trans (ih _)

/-- **When a change shows in the epochs**: the rows of a volume change, or a listed volume
turns cold or hot.  Then whatever a search captured before the operation differs from the
epochs after it, unless the operation tells nobody. -/
theorem captured_epochs_differ_iff (reach : Reachable pipeline) {operation : Operation}
    {volumeId : VolumeRowId}
    (changed : (pipeline.perform operation).searchableRows volumeId ≠
        pipeline.searchableRows volumeId ∨
      pipeline.store.hasVolume volumeId = true ∧
        (pipeline.perform operation).projection.needsReload volumeId ≠
          pipeline.projection.needsReload volumeId) :
    (∀ (captured : Pipeline) (history : List Operation), Reachable captured →
      history.foldl perform captured = pipeline →
      (pipeline.perform operation).epochsOf volumeId ≠ captured.epochsOf volumeId) ↔
    pipeline.unannounced operation volumeId = false := by
  have agreed := agreed_of_reachable reach
  have settled := settled_of_reachable reach
  have announces : pipeline.Announces operation volumeId := by
    rcases changed with rows | ⟨listed, turns⟩
    · rw [(agreed.perform operation).searchableRows, agreed.searchableRows] at rows
      exact settled.announces_changed rows
    · exact settled.announces_turn listed turns
  unfold Announces at announces
  cases silent : pipeline.unannounced operation volumeId with
  | true =>
    rw [silent] at announces
    refine iff_of_false (fun differ => ?_) (by simp)
    exact differ pipeline [] reach rfl announces
  | false =>
    rw [silent] at announces
    refine iff_of_true ?_ rfl
    rintro captured history start rfl same
    have bound := (settled_of_reachable start).clocked.data volumeId
    have clock := (later_history history captured).clock
    have equal : ((history.foldl perform captured).perform operation).dataEpoch volumeId =
        captured.dataEpoch volumeId := congrArg Prod.fst same
    have fresh : (history.foldl perform captured).queryVisibleEpoch <
        ((history.foldl perform captured).perform operation).dataEpoch volumeId := announces
    omega

/-- A volume whose rules exclude the folder `C:\x`. -/
def ruledVolume : List Operation :=
  [.resolveVolume true ⟨[], 1⟩,
   .setVolumeRules 1 ⟨[0x43, 0x3a], true, [⟨[0x43, 0x3a, 0x5c, 0x78], false⟩]⟩,
   .applyMftBatchV2 1 [scanned 5 5 [] 0x10] ⟨true, true, []⟩]

/-- One file to keep and one to prune. -/
def halfExcluded (outcome : BatchOutcome) : Operation :=
  .applyMftBatchV2 1 [scanned 100 5 [0x61] 0, scanned 101 5 [0x78] 0] outcome

/-- A batch whose memory policy evicts the volume: searches that began before it notice. -/
theorem captured_epochs_differ_iff_ruled :
    (after ruledVolume).projection.needsReload 1 = false ∧
      ((after ruledVolume).perform
        (halfExcluded ⟨true, false, [.volume 1]⟩)).projection.needsReload 1 = true ∧
      ((after ruledVolume).perform (halfExcluded ⟨true, false, [.volume 1]⟩)).epochsOf 1 ≠
        (after ruledVolume).epochsOf 1 := by
  have cold : ((after ruledVolume).perform
      (halfExcluded ⟨true, false, [.volume 1]⟩)).projection.needsReload 1 = true := by decide +kernel
  have hot : (after ruledVolume).projection.needsReload 1 = false := by decide +kernel
  refine ⟨hot, cold, ?_⟩
  refine (captured_epochs_differ_iff (reachable_after ruledVolume) (.inr ⟨?_, ?_⟩)).mpr ?_ _ []
    (reachable_after ruledVolume) rfl
  · decide +kernel
  · rw [cold, hot]
    decide
  · decide +kernel

/-- The excluded file fails to be pruned: the batch reports failure, the new rows are
searchable, and the epochs are those captured before it. -/
theorem stranded_batch_unannounced :
    Reachable (after ruledVolume) ∧
      ((after ruledVolume).applyMftBatchV2 1
        [scanned 100 5 [0x61] 0, scanned 101 5 [0x78] 0] ⟨true, false, []⟩).2 = false ∧
      (after ruledVolume).searchableRows 1 (ntfsFileId 100) = none ∧
      ((after ruledVolume).perform (halfExcluded ⟨true, false, []⟩)).searchableRows 1
        (ntfsFileId 100) ≠ none ∧
      ((after ruledVolume).perform (halfExcluded ⟨true, false, []⟩)).epochsOf 1 =
        (after ruledVolume).epochsOf 1 :=
  ⟨reachable_after _, by decide +kernel, by decide +kernel, by decide +kernel, by decide +kernel⟩

end Pipeline

end FastFiles.Index
