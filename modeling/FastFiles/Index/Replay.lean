import FastFiles.Foundations.EventLog
import FastFiles.Index.Pruning

/-!
# Redelivered batches

The service sends again what it has sent before when a scan starts anew, or when the journal is read
from an older position.  `redelivery_harmless`: changes that are delivered, and once more after
others, leave the stored rows that the later delivery alone leaves, however each is cut into batches and
whatever the memory policy evicts.
-/

namespace FastFiles.Index

open Function

/-- What a change does to its row. -/
def EntryChange.row (change : EntryChange) (row : Option EntryRecord) : Option EntryRecord :=
  match change.kind with
  | .upsert => some (EntryRecord.merge change.fields row change.record)
  | .remove => none

section Changes

variable (change later : EntryChange)

theorem row_row (row : Option EntryRecord) : change.row (change.row row) = change.row row := by
  obtain ⟨kind, record, fields⟩ := change
  cases kind with
  | upsert =>
    simp only [EntryChange.row, EntryRecord.merge, Option.getD_some, Option.some.injEq,
      EntryRecord.mk.injEq]
    and_intros <;> grind
  | remove => rfl

/-- A change that makes two rows equal makes them equal after another change. -/
theorem row_carries (one : later.record.id = change.record.id) {row row' : Option EntryRecord}
    (same : change.row row = change.row row') :
    change.row (later.row row) = change.row (later.row row') := by
  obtain ⟨kind, record, fields⟩ := change
  obtain ⟨kind', record', fields'⟩ := later
  change record'.id = record.id at one
  cases kind with
  | upsert =>
    cases kind' with
    | upsert =>
      simp only [EntryChange.row, EntryRecord.merge, Option.some.injEq, EntryRecord.mk.injEq,
        Option.getD_some, one] at same ⊢
      generalize row.getD _ = old at same ⊢
      generalize row'.getD _ = old' at same ⊢
      and_intros <;> grind
    | remove => rfl
  | remove => rfl

namespace Table

variable (table other : Table)

theorem apply_eq : table.apply change =
    update table change.record.id (change.row (table change.record.id)) := by
  unfold apply EntryChange.row
  cases change.kind <;> rfl

theorem apply_apply : (table.apply change).apply change = table.apply change := by
  simp only [apply_eq, update_self, update_idem, row_row]

theorem apply_carries (same : table.apply change = other.apply change) :
    (table.apply later).apply change = (other.apply later).apply change := by
  simp only [apply_eq] at same ⊢
  have apart : ∀ id ≠ change.record.id, table id = other id := fun id differs => by
    simpa [differs] using congrFun same id
  have own : change.row (table change.record.id) = change.row (other change.record.id) := by
    simpa using congrFun same change.record.id
  have carried := row_carries change later
  funext id
  simp only [update_apply]
  grind

end Table

end Changes

namespace Pipeline

/-- Batches of one volume that are committed, and the changes they carry. -/
inductive Delivers (volumeId : VolumeRowId) : List Operation → List EntryChange → Prop
  | nil : Delivers volumeId [] []
  | cons {operation : Operation} {batch : Batch} {operations : List Operation}
      {changes : List EntryChange} : Operation.batch operation = some batch →
      batch.volumeId = volumeId → batch.outcome.committed = true →
      Delivers volumeId operations changes →
      Delivers volumeId (operation :: operations) (batch.changes ++ changes)

theorem volumeRules_apply (batch : Batch) (pipeline : Pipeline) :
    (batch.apply pipeline).volumeRules = pipeline.volumeRules := by
  have enforced (pipeline : Pipeline) :
      (pipeline.enforceMemoryLimitNow batch.outcome.evictions).volumeRules =
        pipeline.volumeRules := by
    unfold enforceMemoryLimitNow
    dsimp only
    split_ifs
    · exact List.foldlRecOn (motive := fun next : Pipeline => next.volumeRules = pipeline.volumeRules)
        _ _ rfl fun _ same _ _ => same
    · rfl
  unfold Batch.apply
  rcases applyBatchChanges_cases batch.project pipeline batch.volumeId batch.changes batch.outcome
    with ⟨-, is⟩ | ⟨store, -, ⟨-, is⟩ | ⟨last, -, -, is⟩ | ⟨-, -, is⟩⟩ <;> rw [is]
  iterate 2
    unfold completeBatch
    dsimp only
    split_ifs <;> exact enforced _
  exact enforced _

variable {pipeline : Pipeline} {volumeId : VolumeRowId}

/-- **A delivery applies its changes**, on a volume without rules. -/
theorem Delivers.stored {operations : List Operation} {changes : List EntryChange}
    (delivers : Delivers volumeId operations changes)
    (present : pipeline.store.hasVolume volumeId = true)
    (unruled : pipeline.volumeRules volumeId = none) :
    (operations.foldl perform pipeline).store.table volumeId =
      (pipeline.store.table volumeId).applyAll changes := by
  induction delivers generalizing pipeline with
  | nil => rfl
  | @cons operation batch operations changes made own committed _ ih =>
    have isBatch : operation.isBatch = true := by
      cases operation <;> first | rfl | cases made
    have performs : pipeline.perform operation = batch.apply pipeline := by
      rw [perform_of_isBatch pipeline isBatch, made]
      rfl
    subst own
    obtain ⟨store, applied⟩ := Store.exists_applyBatch batch.changes committed present
    obtain ⟨removed, table, excluded⟩ :=
      store_applyBatchChanges batch.project (normal_of_batch made) applied
    have all : removed = [] := by
      refine List.eq_nil_iff_forall_not_mem.mpr fun id mem => ?_
      have gone := excluded id mem
      simp [ruleExcluded, Pipeline.isEntryIncluded, Index.isEntryIncluded, projected, unruled]
        at gone
    rw [List.foldl_cons, performs, ih]
    · rw [show (batch.apply pipeline).store.table batch.volumeId = _ from table, all,
        Table.removeAll_nil]
      exact (List.foldl_append ..).symm
    · exact ((edits_applyBatchChanges ..).2.hasVolume _).trans present
    · rw [volumeRules_apply]
      exact unruled

/-- **Redelivery is harmless** to what is stored. -/
theorem redelivery_harmless (present : pipeline.store.hasVolume volumeId = true)
    (unruled : pipeline.volumeRules volumeId = none) {once twice : List Operation}
    {log between : List EntryChange} (later : Delivers volumeId once (between ++ log))
    (again : Delivers volumeId twice (log ++ (between ++ log))) :
    (twice.foldl perform pipeline).store.table volumeId =
      (once.foldl perform pipeline).store.table volumeId := by
  rw [later.stored present unruled, again.stored present unruled]
  exact EventLog.foldl_redelivered Table.apply_carries (fun _ _ => Table.apply_apply ..) _ _ _

/-- Files 100 and 101, then 100 under another name and 102, then the first two again. -/
theorem redelivery_harmless_rescan :
    let start := after [.resolveVolume true ⟨[], 1⟩]
    let scan := .applyMftBatchV2 1 [scanned 100 5 [0x61] 0, scanned 101 5 [0x62] 0] ⟨true, true, []⟩
    let other := .applyMftBatchV2 1 [scanned 100 5 [0x63] 0, scanned 102 5 [0x64] 0] ⟨true, true, []⟩
    ([scan, other, scan].foldl perform start).store.table 1 =
      ([other, scan].foldl perform start).store.table 1 := by
  intro start scan other
  have delivers (records : List Protocol.MftRecordV2) {operations : List Operation}
      {changes : List EntryChange} :=
    @Delivers.cons 1 (.applyMftBatchV2 1 records ⟨true, true, []⟩)
      (mftBatch 1 (records.map toEntryRecordOfMftV2) ⟨true, true, []⟩) operations changes rfl rfl rfl
  exact @redelivery_harmless start 1 rfl rfl _ _
    ([scanned 100 5 [0x61] 0, scanned 101 5 [0x62] 0].map (changeOfMft ∘ toEntryRecordOfMftV2))
    ([scanned 100 5 [0x63] 0, scanned 102 5 [0x64] 0].map (changeOfMft ∘ toEntryRecordOfMftV2))
    (delivers _ (delivers _ .nil)) (delivers _ (delivers _ (delivers _ .nil)))

end Pipeline

end FastFiles.Index
