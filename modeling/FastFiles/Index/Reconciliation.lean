import FastFiles.Foundations.Chunks
import FastFiles.Index.Agreement

/-!
# Reconciling a volume

`FinishReconciliationPass` removes the stored rows that the pass has not observed or that the rules
exclude, in chunks that are committed one by one.  One whose commit fails loses the committed chunks
on both sides and keeps the pass.

The verdict of a row comes from the names above it in the projection, and a row whose chain does not
resolve counts as included.  While the projection has the stored rows, or no rule asks for a path
(`Faithful`), that is the verdict on the stored tree (`includes`), and a finish whose commits succeed
leaves exactly the rows that were observed and are included.  On a cold volume it need not be.

A chunk that is committed takes names away, so the retry finds an observed row included that was
excluded before, if a folder above it went with an earlier chunk (`excluded_removeAll_iff`).  The retry
reaches the same rows exactly if there is no such row (`reconciliation_retry_iff`).
-/

namespace FastFiles.Index

open Pipeline Table Projection

/-! ## Verdicts after removals -/

section Verdicts

variable {table : Table} (keyed : table.Keyed) {ids : List FileId} {id : FileId}

/-- Every row from `id` up to the root is still there. -/
def Spared (before after : Table) (id : FileId) : Prop :=
  ∀ chain, ParentChain before id chain → ∀ record ∈ chain, (after record.id).isSome

include keyed

theorem keyed_removeAll : (table.removeAll ids).Keyed := by
  intro id record found
  rw [removeAll] at found
  split_ifs at found
  exact keyed id record found

/-- A chain is still there if none of its rows was removed. -/
theorem parentChain_removeAll_iff {chain : List EntryRecord} :
    ParentChain (table.removeAll ids) id chain ↔
      ParentChain table id chain ∧ ∀ record ∈ chain, record.id ∉ ids := by
  have kept : ∀ {id record}, table.removeAll ids id = some record ↔
      table id = some record ∧ record.id ∉ ids := by
    intro id record
    rw [removeAll]
    constructor
    · intro found
      split_ifs at found with gone
      exact ⟨found, keyed id record found ▸ gone⟩
    · rintro ⟨found, stays⟩
      rw [if_neg (keyed id record found ▸ stays), found]
  constructor
  · intro complete
    induction complete with
    | root found self =>
      obtain ⟨before, stays⟩ := kept.mp found
      exact ⟨.root before self, by simpa using stays⟩
    | step found parent _ ih =>
      obtain ⟨before, stays⟩ := kept.mp found
      exact ⟨.step before parent ih.1, List.forall_mem_cons.mpr ⟨stays, ih.2⟩⟩
  · rintro ⟨complete, stays⟩
    induction complete with
    | root found self => exact .root (kept.mpr ⟨found, stays _ (.head _)⟩) self
    | step found parent _ ih =>
      rw [List.forall_mem_cons] at stays
      exact .step (kept.mpr ⟨found, stays.1⟩) parent (ih stays.2)

theorem spared_removeAll_iff :
    Spared table (table.removeAll ids) id ↔
      ∀ chain, ParentChain table id chain → ∀ record ∈ chain, record.id ∉ ids := by
  have stays {chain : List EntryRecord} (complete : ParentChain table id chain)
      {record : EntryRecord} (mem : record ∈ chain) :
      (table.removeAll ids record.id).isSome ↔ record.id ∉ ids := by
    rw [removeAll, complete.mem_found keyed mem]
    split_ifs with gone <;> simp [gone]
  constructor
  · intro spared chain complete record mem
    exact (stays complete mem).mp (spared chain complete record mem)
  · intro spared chain complete record mem
    exact (stays complete mem).mpr (spared chain complete record mem)

/-- What excludes a row: a volume without rules that is switched off, or the path of its chain. -/
theorem excluded_iff {setting : VolumeSetting} :
    isEntryIncluded (some setting) table id = false ↔
      (setting.rules = [] ∧ setting.enabled = false) ∨
      (setting.rules ≠ [] ∧ ∃ chain, ParentChain table id chain ∧
        chain.length ≤ maxProjectionPathDepth ∧
        isPathIncluded setting
          (ingestionPrefix setting.key ++ joinNames (chain.map (·.name)).reverse) = false) := by
  by_cases unruled : setting.rules = []
  · simp [isEntryIncluded, unruled]
  · simp only [isEntryIncluded, unruled, if_false, false_and, false_or, ne_eq, not_false_eq_true,
      true_and]
    constructor
    · intro excluded
      split_ifs at excluded with reached
      obtain ⟨chain, complete, short⟩ := (reachedRoot_iff keyed).mp reached
      rw [path_of_chain keyed complete short] at excluded
      exact ⟨chain, complete, short, excluded⟩
    · rintro ⟨chain, complete, short, excluded⟩
      rw [path_of_chain keyed complete short, if_pos rfl]
      exact excluded

/-- **An excluded row stays excluded exactly if no rule needs its path or its chain is spared.** -/
theorem excluded_removeAll_iff {rules : Option VolumeSetting} :
    isEntryIncluded rules (table.removeAll ids) id = false ↔
      isEntryIncluded rules table id = false ∧
        ((∀ setting, rules = some setting → setting.rules = []) ∨
          Spared table (table.removeAll ids) id) := by
  cases rules with
  | none => simp [isEntryIncluded]
  | some setting =>
    rw [excluded_iff keyed, excluded_iff (keyed_removeAll keyed), spared_removeAll_iff keyed]
    simp only [parentChain_removeAll_iff keyed, Option.some.injEq, forall_eq']
    constructor
    · rintro (off | ⟨ruled, chain, ⟨complete, spared⟩, rest⟩)
      · exact ⟨.inl off, .inl off.1⟩
      · exact ⟨.inr ⟨ruled, chain, complete, rest⟩,
          .inr fun other above => complete.unique above ▸ spared⟩
    · rintro ⟨off | ⟨ruled, chain, complete, rest⟩, stays⟩
      · exact .inl off
      · exact .inr ⟨ruled, chain, ⟨complete, stays.resolve_left ruled chain complete⟩, rest⟩

end Verdicts

/-! ## Committed chunks -/

/-- The removals of the chunks before the first one that fails. -/
def committedRemovals (removals : List FileId) (commits : List Bool) : List FileId :=
  match commits.idxOf? false with
  | none => removals
  | some failing => removals.take (failing * reconciliationRemovalChunkRows)

theorem prefix_committedRemovals (removals : List FileId) (commits : List Bool) :
    committedRemovals removals commits <+: removals := by
  unfold committedRemovals
  cases commits.idxOf? false with
  | none => exact List.prefix_rfl
  | some failing => exact List.take_prefix _ _

variable {commits : List Bool}

theorem committedRemovals_of_notMem (removals : List FileId)
    (succeeds : false ∉ commits) : committedRemovals removals commits = removals := by
  rw [committedRemovals, List.idxOf?_eq_none_iff.mpr succeeds]

theorem committedRemovals_cons_true (removals : List FileId) (commits : List Bool) :
    committedRemovals removals (true :: commits) =
      removals.take reconciliationRemovalChunkRows ++
        committedRemovals (removals.drop reconciliationRemovalChunkRows) commits := by
  have later : (true :: commits).idxOf? false = (commits.idxOf? false).map (· + 1) := by
    simp [List.idxOf?_cons]
  rw [committedRemovals, committedRemovals, later]
  cases commits.idxOf? false with
  | none => exact (List.take_append_drop _ _).symm
  | some failing =>
    show removals.take ((failing + 1) * _) = _
    rw [Nat.succ_mul, Nat.add_comm, List.take_add]

/-- A chunk of removals is rolled back by the environment only. -/
theorem applyBatch_removals (store : Store) (volumeId : VolumeRowId) {chunk : List FileId}
    (nonempty : chunk ≠ []) (committed : Bool) :
    (store.applyBatch committed volumeId (chunk.map removalOf)).isSome = committed := by
  have present : chunk.map removalOf ≠ [] := mt List.map_eq_nil_iff.mp nonempty
  have removes : (chunk.map removalOf).any (·.kind == .upsert) = false := by
    simp [removalOf]
  cases committed <;> simp [Store.applyBatch, present, removes]

/-- **Commits in chunks take a prefix of the removals.** -/
theorem commitChunks_removals (volumeId : VolumeRowId) (store : Store) (removals : List FileId)
    (commits : List Bool) :
    (commitChunks volumeId store
        (removals.toChunks reconciliationRemovalChunkRows) commits).2 =
      (committedRemovals removals commits, decide (committedRemovals removals commits = removals)) := by
  -- Induction on the number of removals: each chunk leaves a shorter rest.
  induction length : removals.length using Nat.strongRecOn generalizing removals store commits with
  | _ count ih =>
    by_cases empty : removals = []
    · have nothing : committedRemovals removals commits = [] := by
        have taken := prefix_committedRemovals removals commits
        rw [empty] at taken ⊢
        exact List.prefix_nil.mp taken
      rw [nothing, empty]
      rfl
    · have positive : 0 < reconciliationRemovalChunkRows := by decide
      have shorter :
          (removals.drop reconciliationRemovalChunkRows).length < count := by
        have := List.length_pos_iff.mpr empty
        rw [List.length_drop]
        omega
      have chunk : removals.take reconciliationRemovalChunkRows ≠ [] := by
        simp [empty, Nat.ne_of_gt positive]
      have applied := applyBatch_removals store volumeId chunk (commits.headD true)
      rw [toChunks_eq_cons positive empty, commitChunks]
      cases commits with
      | nil =>
        obtain ⟨next, here⟩ := Option.isSome_iff_exists.mp applied
        have rest := ih _ shorter next _ [] rfl
        have all (ids : List FileId) : committedRemovals ids [] = ids :=
          committedRemovals_of_notMem ids List.not_mem_nil
        rw [all, decide_eq_true rfl] at rest
        rw [here, all]
        simp [rest]
      | cons commit commits =>
        cases commit with
        | false =>
          have fails := Option.isSome_eq_false_iff.mp applied
          rw [Option.isNone_iff_eq_none.mp fails]
          have nothing : committedRemovals removals (false :: commits) = [] := by
            simp [committedRemovals, List.idxOf?_cons]
          rw [nothing, decide_eq_false (Ne.symm empty)]
        | true =>
          obtain ⟨next, here⟩ := Option.isSome_iff_exists.mp applied
          have rest := ih _ shorter next _ commits rfl
          rw [here, committedRemovals_cons_true]
          simp only [List.tail_cons, rest]
          congr 2
          rw [← List.append_right_inj (removals.take reconciliationRemovalChunkRows),
            List.take_append_drop]

/-! ## Finishing a pass -/

namespace Pipeline

/-- The verdict of the rules on a row of the stored tree. -/
def includes (pipeline : Pipeline) (volumeId : VolumeRowId) (id : FileId) : Bool :=
  Index.isEntryIncluded (pipeline.volumeRules volumeId) (pipeline.store.table volumeId) id

/-- The rows a pass is to leave: those that were observed and are included. -/
def reconciledTable (pipeline : Pipeline) (volumeId : VolumeRowId) (seen : List FileId) : Table :=
  fun id =>
    if id ∈ seen ∧ pipeline.includes volumeId id = true then pipeline.store.table volumeId id
    else none

/-- No rule of the volume asks for a path. -/
def Unruled (pipeline : Pipeline) (volumeId : VolumeRowId) : Prop :=
  ∀ setting, pipeline.volumeRules volumeId = some setting → setting.rules = []

/-- The volume is resident as it is stored, or no rule asks for a path. -/
def Faithful (pipeline : Pipeline) (volumeId : VolumeRowId) : Prop :=
  pipeline.projection.table volumeId = pipeline.store.table volumeId ∨ pipeline.Unruled volumeId

/-- Store and projection lose the same ids of one volume, and the rules stay. -/
structure Loses (volumeId : VolumeRowId) (ids : List FileId) (before after : Pipeline) : Prop where
  stored : after.store.table volumeId = (before.store.table volumeId).removeAll ids
  resident : after.projection.table volumeId = (before.projection.table volumeId).removeAll ids
  otherStored : ∀ other, other ≠ volumeId → after.store.table other = before.store.table other
  otherResident : ∀ other, other ≠ volumeId →
    after.projection.table other = before.projection.table other
  rules : after.volumeRules = before.volumeRules

variable {pipeline : Pipeline} {volumeId : VolumeRowId} {seen : List FileId}

theorem Loses.refl (pipeline : Pipeline) : Loses volumeId [] pipeline pipeline where
  stored := (removeAll_nil _).symm
  resident := (removeAll_nil _).symm
  otherStored _ _ := rfl
  otherResident _ _ := rfl
  rules := rfl

theorem Loses.trans {ids more : List FileId} {before middle after : Pipeline}
    (first : Loses volumeId ids before middle) (second : Loses volumeId more middle after) :
    Loses volumeId (ids ++ more) before after where
  stored := by rw [second.stored, first.stored, removeAll_append]
  resident := by rw [second.resident, first.resident, removeAll_append]
  otherStored other differs := by
    rw [second.otherStored other differs, first.otherStored other differs]
  otherResident other differs := by
    rw [second.otherResident other differs, first.otherResident other differs]
  rules := second.rules.trans first.rules

variable {id : FileId}

theorem Loses.faithful {ids : List FileId} {before after : Pipeline}
    (loses : Loses volumeId ids before after) (faithful : before.Faithful volumeId) :
    after.Faithful volumeId := by
  refine faithful.imp (fun same => ?_) fun unruled setting ruled => ?_
  · rw [loses.resident, loses.stored, same]
  · exact unruled setting (loses.rules ▸ ruled)

/-- A hot volume is resident as it is stored. -/
theorem faithful_of_hot (reach : Reachable pipeline)
    (hot : pipeline.projection.needsReload volumeId = false) : pipeline.Faithful volumeId :=
  .inl (agreed_of_reachable reach volumeId hot)

theorem Faithful.verdict (faithful : pipeline.Faithful volumeId) (id : FileId) :
    pipeline.isEntryIncluded volumeId id = pipeline.includes volumeId id := by
  rcases faithful with same | unruled
  · rw [isEntryIncluded, same]
    rfl
  · unfold isEntryIncluded includes
    cases ruled : pipeline.volumeRules volumeId with
    | none => rfl
    | some setting => simp [Index.isEntryIncluded, unruled setting ruled]

theorem mem_reconciliationRemovals (faithful : pipeline.Faithful volumeId) :
    id ∈ pipeline.reconciliationRemovals volumeId seen ↔
      (pipeline.store.table volumeId id).isSome ∧
        (id ∉ seen ∨ pipeline.includes volumeId id = false) := by
  simp [reconciliationRemovals, Store.mem_listEntryIds, faithful.verdict]

/-- Without the removals the rows to be left are left. -/
theorem removeAll_reconciliationRemovals (faithful : pipeline.Faithful volumeId) :
    (pipeline.store.table volumeId).removeAll (pipeline.reconciliationRemovals volumeId seen) =
      pipeline.reconciledTable volumeId seen := by
  funext id
  rw [removeAll, reconciledTable]
  cases found : pipeline.store.table volumeId id with
  | none => simp
  | some record =>
    by_cases observed : id ∈ seen <;> cases verdict : pipeline.includes volumeId id <;>
      simp [mem_reconciliationRemovals faithful, found, observed, verdict]

theorem finishReconciliationPass_fields
    (active : pipeline.reconciliationSeen volumeId = some seen) (commits : List Bool) :
    let result := commitChunks volumeId pipeline.store
      ((pipeline.reconciliationRemovals volumeId seen).toChunks reconciliationRemovalChunkRows) commits
    let next := pipeline.finishReconciliationPass volumeId true commits
    next.store = result.1 ∧
      next.projection = pipeline.projection.removeBatch volumeId result.2.1 true ∧
      next.volumeRules = pipeline.volumeRules ∧
      next.reconciliationSeen volumeId = if result.2.2 then none else some seen := by
  intro result next
  have shape : next = pipeline.finishReconciliationPass volumeId true commits := rfl
  simp only [finishReconciliationPass, active, Bool.not_true, Bool.false_eq_true, if_false] at shape
  rw [shape]
  split_ifs
  -- The pass is erased, the epoch advanced or not: neither touches the other fields.
  · exact ⟨rfl, rfl, rfl, Function.update_self ..⟩
  · exact ⟨rfl, rfl, rfl, active⟩
  · exact ⟨rfl, rfl, rfl, Function.update_self ..⟩
  · exact ⟨rfl, rfl, rfl, active⟩

/-- **What a finish does**: the committed removals go on both sides, and the pass ends with the last
of them. -/
theorem finishReconciliationPass_spec (active : pipeline.reconciliationSeen volumeId = some seen)
    (commits : List Bool) :
    let removals := pipeline.reconciliationRemovals volumeId seen
    let committed := committedRemovals removals commits
    let next := pipeline.finishReconciliationPass volumeId true commits
    Loses volumeId committed pipeline next ∧
      next.reconciliationSeen volumeId = if committed = removals then none else some seen := by
  intro removals committed next
  obtain ⟨store, projection, rules, pass⟩ := finishReconciliationPass_fields active commits
  obtain ⟨own, others⟩ := commitChunks_spec volumeId pipeline.store
    (removals.toChunks reconciliationRemovalChunkRows) commits
  rw [← store, commitChunks_removals] at own
  rw [← store] at others
  rw [commitChunks_removals] at projection pass
  refine ⟨⟨own, ?_, others, fun other differs => ?_, rules⟩, by simpa using pass⟩
  · rw [projection, table_removeBatch_self]
  · rw [projection, table_removeBatch_of_ne _ _ _ _ differs]

/-! ## Retrying -/

/-- One finish after the other: whether the ids could be listed, and which commits succeed. -/
def reconcile (volumeId : VolumeRowId) (pipeline : Pipeline) (attempts : List (Bool × List Bool)) :
    Pipeline :=
  attempts.foldl (fun pipeline attempt =>
    pipeline.finishReconciliationPass volumeId attempt.1 attempt.2) pipeline

/-- A pass that is still owed has lost some of its removals, and nothing else. -/
structure Owes (volumeId : VolumeRowId) (seen : List FileId) (before after : Pipeline)
    (ids : List FileId) : Prop where
  active : after.reconciliationSeen volumeId = some seen
  loses : Loses volumeId ids before after
  owed : ids ⊆ before.reconciliationRemovals volumeId seen

variable {before after : Pipeline}

theorem keyed_stored (store : Store) (volumeId : VolumeRowId) : (store.table volumeId).Keyed :=
  fun id record found => (StoredRows.normal_table _ id record found).1

/-- The rows that are excluded after the losses: excluded before, with a chain that was spared. -/
theorem Loses.excluded_iff {ids : List FileId} (loses : Loses volumeId ids before after) :
    after.includes volumeId id = false ↔
      before.includes volumeId id = false ∧ (before.Unruled volumeId ∨
        Spared (before.store.table volumeId) (after.store.table volumeId) id) := by
  rw [includes, includes, loses.rules, loses.stored]
  exact excluded_removeAll_iff (keyed_stored before.store volumeId)

/-- The removals only get fewer. -/
theorem Owes.removals_subset {ids : List FileId} (owes : Owes volumeId seen before after ids) :
    after.reconciliationRemovals volumeId seen ⊆ before.reconciliationRemovals volumeId seen := by
  intro id mem
  simp only [reconciliationRemovals, List.mem_filter, Store.mem_listEntryIds, Bool.or_eq_true,
    decide_eq_true_eq, Bool.not_eq_true'] at mem ⊢
  obtain ⟨stored, why⟩ := mem
  refine ⟨?_, why.imp_right fun excluded => ?_⟩
  · rw [owes.loses.stored, removeAll] at stored
    split_ifs at stored
    · cases stored
    · exact stored
  · rw [isEntryIncluded, owes.loses.rules, owes.loses.resident] at excluded
    exact ((excluded_removeAll_iff (before.projection.keyed_table volumeId)).mp excluded).1

/-- One more finish: the pass ends, or more of its removals are lost. -/
theorem Owes.finish {ids : List FileId}
    (owes : Owes volumeId seen before after ids) (listed : Bool) (commits : List Bool)
    (still : (after.finishReconciliationPass volumeId listed commits).reconciliationSeen volumeId ≠
      none) :
    ∃ more, Owes volumeId seen before (after.finishReconciliationPass volumeId listed commits) more := by
  cases listed with
  | false =>
    have same : after.finishReconciliationPass volumeId false commits = after := by
      simp [finishReconciliationPass, owes.active]
    rw [same]
    exact ⟨ids, owes⟩
  | true =>
    obtain ⟨loses, pass⟩ := finishReconciliationPass_spec owes.active commits
    refine ⟨_, ?_, owes.loses.trans loses, ?_⟩
    · rw [pass] at still ⊢
      split_ifs at still ⊢
      · exact absurd rfl still
      · rfl
    · have taken := (prefix_committedRemovals (after.reconciliationRemovals volumeId seen)
        commits).subset
      exact List.append_subset.mpr ⟨owes.owed, fun id mem => owes.removals_subset (taken mem)⟩

/-- Once the pass has ended, no attempt does anything. -/
theorem reconcile_of_none (ended : pipeline.reconciliationSeen volumeId = none)
    (attempts : List (Bool × List Bool)) : reconcile volumeId pipeline attempts = pipeline := by
  induction attempts with
  | nil => rfl
  | cons attempt attempts ih =>
    have same : pipeline.finishReconciliationPass volumeId attempt.1 attempt.2 = pipeline := by
      simp [finishReconciliationPass, ended]
    show reconcile volumeId (pipeline.finishReconciliationPass volumeId attempt.1 attempt.2) _ = _
    rw [same, ih]

/-- **A pass that is still owed after any attempts has lost some of its removals only.** -/
theorem Owes.reconcile {ids : List FileId}
    (owes : Owes volumeId seen before after ids) (attempts : List (Bool × List Bool))
    (still : (reconcile volumeId after attempts).reconciliationSeen volumeId ≠ none) :
    ∃ more, Owes volumeId seen before (reconcile volumeId after attempts) more := by
  induction attempts generalizing after ids with
  | nil => exact ⟨ids, owes⟩
  | cons attempt attempts ih =>
    have first : (after.finishReconciliationPass volumeId attempt.1 attempt.2).reconciliationSeen
        volumeId ≠ none := by
      intro ended
      have stuck := reconcile_of_none ended attempts
      exact still ((congrArg (fun last => last.reconciliationSeen volumeId) stuck).trans ended)
    obtain ⟨more, next⟩ := owes.finish attempt.1 attempt.2 first
    exact ih next still

/-- A finish whose commits succeed leaves the rows that were observed and are included. -/
theorem table_finishReconciliationPass (faithful : pipeline.Faithful volumeId)
    (active : pipeline.reconciliationSeen volumeId = some seen)
    (succeeds : committedRemovals (pipeline.reconciliationRemovals volumeId seen) commits =
      pipeline.reconciliationRemovals volumeId seen) :
    (pipeline.finishReconciliationPass volumeId true commits).store.table volumeId =
      pipeline.reconciledTable volumeId seen := by
  obtain ⟨loses, -⟩ := finishReconciliationPass_spec active commits
  rw [loses.stored, succeeds, removeAll_reconciliationRemovals faithful]

/-- An observed row that is not to be kept, is still stored and whose folders are gone. -/
def Stranded (volumeId : VolumeRowId) (before after : Pipeline) (id : FileId) : Prop :=
  (after.store.table volumeId id).isSome ∧ before.includes volumeId id = false ∧
    ¬ (before.Unruled volumeId ∨
      Spared (before.store.table volumeId) (after.store.table volumeId) id)

/-- **The finish of a pass that is owed leaves the right rows exactly if no observed row is
stranded.** -/
theorem Owes.finish_eq_iff {ids : List FileId} (faithful : before.Faithful volumeId)
    (owes : Owes volumeId seen before after ids) (succeeds : false ∉ commits) :
    (after.finishReconciliationPass volumeId true commits).store.table volumeId =
        before.reconciledTable volumeId seen ↔
      ∀ id ∈ seen, ¬ Stranded volumeId before after id := by
  rw [table_finishReconciliationPass (owes.loses.faithful faithful) owes.active
    (committedRemovals_of_notMem _ succeeds)]
  have kept {id : FileId} {record : EntryRecord}
      (found : after.store.table volumeId id = some record) :
      before.store.table volumeId id = some record := by
    rw [owes.loses.stored, removeAll] at found
    split_ifs at found
    exact found
  constructor
  · rintro same id observed ⟨stored, excluded, spoiled⟩
    -- It is included now, so the retry leaves it; a clean finish does not.
    have included : after.includes volumeId id = true := by
      rw [← Bool.not_eq_false, owes.loses.excluded_iff]
      exact fun both => spoiled both.2
    have row := congrFun same id
    rw [reconciledTable, reconciledTable, if_pos ⟨observed, included⟩,
      if_neg (by simp [excluded])] at row
    rw [row] at stored
    cases stored
  · intro spared
    funext id
    rw [reconciledTable, reconciledTable]
    cases found : after.store.table volumeId id with
    | none =>
      rw [ite_self]
      cases stored : before.store.table volumeId id with
      | none => rw [ite_self]
      | some record =>
        -- The row was lost, so it was to go.
        have gone : id ∈ ids := by
          by_contra stays
          rw [owes.loses.stored, removeAll, if_neg stays, stored] at found
          cases found
        have why := ((mem_reconciliationRemovals faithful).mp (owes.owed gone)).2
        rw [if_neg]
        rintro ⟨observed, included⟩
        rcases why with unseen | excluded
        · exact unseen observed
        · cases included.symm.trans excluded
    | some record =>
      rw [kept found]
      by_cases observed : id ∈ seen
      · have verdict : after.includes volumeId id = before.includes volumeId id := by
          rw [Bool.eq_iff_iff, ← Bool.not_eq_false, ← Bool.not_eq_false, not_iff_not,
            owes.loses.excluded_iff, and_iff_left_iff_imp]
          intro excluded
          by_contra spoiled
          exact spared id observed ⟨by rw [found]; rfl, excluded, spoiled⟩
        rw [verdict]
      · rw [if_neg fun both => observed both.1, if_neg fun both => observed both.1]

/-- **Reconciliation.**  A finish loses a prefix of its removals on both sides; with all of them it
ends the pass and leaves, where the projection shows the stored tree, the rows that were observed and
are included; otherwise the pass is kept.  After any attempts that leave the pass owed, a finish that
succeeds leaves the same rows exactly if no observed row is stranded. -/
theorem reconciliation_retry_iff (active : pipeline.reconciliationSeen volumeId = some seen) :
    (∀ commits,
      let removals := pipeline.reconciliationRemovals volumeId seen
      let committed := committedRemovals removals commits
      let next := pipeline.finishReconciliationPass volumeId true commits
      committed <+: removals ∧ Loses volumeId committed pipeline next ∧
        (committed = removals → next.reconciliationSeen volumeId = none ∧
          (pipeline.Faithful volumeId →
            next.store.table volumeId = pipeline.reconciledTable volumeId seen)) ∧
        (committed ≠ removals → next.reconciliationSeen volumeId = some seen)) ∧
    ∀ attempts commits,
      let interrupted := reconcile volumeId pipeline attempts
      interrupted.reconciliationSeen volumeId ≠ none → false ∉ commits →
        interrupted.reconciliationSeen volumeId = some seen ∧
        (pipeline.Faithful volumeId →
          ((interrupted.finishReconciliationPass volumeId true commits).store.table volumeId =
              pipeline.reconciledTable volumeId seen ↔
            ∀ id ∈ seen, ¬ Stranded volumeId pipeline interrupted id)) := by
  constructor
  · intro commits removals committed next
    obtain ⟨loses, pass⟩ := finishReconciliationPass_spec active commits
    refine ⟨prefix_committedRemovals removals commits, loses, fun all => ?_, fun fails => ?_⟩
    · exact ⟨pass.trans (if_pos all), fun faithful =>
        table_finishReconciliationPass faithful active all⟩
    · exact pass.trans (if_neg fails)
  · intro attempts commits interrupted still succeeds
    have start : Owes volumeId seen pipeline pipeline [] :=
      ⟨active, .refl pipeline, List.nil_subset _⟩
    obtain ⟨ids, owes⟩ := start.reconcile attempts still
    exact ⟨owes.active, fun faithful => owes.finish_eq_iff faithful succeeds⟩

/-! ## A pass that strands a row -/

namespace LargePass

def root : FileId := ⟨5, 0⟩

def folder : FileId := ⟨6, 0⟩

def child : FileId := ⟨7, 0⟩

/-- A file that the pass does not find any more. -/
def stale (index : Nat) : FileId := ⟨.ofNat (index + 8), 0⟩

def ids (count : Nat) : List FileId :=
  root :: folder :: ((List.range count).map stale ++ [child])

def name (id : FileId) : Text :=
  if id = root then [] else if id = folder then [0x46] else [0x63]

/-- `F` and the stale files are in the root, `c` is in `F`. -/
def row (id : FileId) : StoredEntry where
  parentFrn := if id = child then folder else root
  name := utf16ToUtf8 (name id)
  sizeBytes := 0
  allocatedSizeBytes := none
  creationTime := 0
  lastModifiedTime := 0
  lastAccessTime := 0
  attributes := 0

@[simp] theorem name_record (id : FileId) : ((row id).record id).name = name id :=
  utf8ToUtf16_utf16ToUtf8 _

theorem stale_inj {left right : Nat} (small : left < 2 ^ 32) (small' : right < 2 ^ 32)
    (same : stale left = stale right) : left = right := by
  have low := congrArg (fun id => id.low.toNat) same
  simp only [stale, UInt64.toNat_ofNat'] at low
  omega

theorem stale_ne (index : Nat) (small : index < 2 ^ 32) (early : id.low.toNat < 8) :
    stale index ≠ id := by
  intro same
  have low := congrArg (fun id => id.low.toNat) same
  simp only [stale, UInt64.toNat_ofNat'] at low
  omega

theorem stale_notMem (count : Nat) (small : count ≤ 2 ^ 32)
    (early : id.low.toNat < 8) : id ∉ (List.range count).map stale := by
  rw [List.mem_map]
  rintro ⟨index, mem, same⟩
  exact stale_ne index (by have := List.mem_range.mp mem; omega) early same

theorem nodup_ids (count : Nat) (small : count ≤ 2 ^ 32) : (ids count).Nodup := by
  have stales : ((List.range count).map stale).Nodup := by
    refine List.Nodup.map_on ?_ List.nodup_range
    intro left leftMem right rightMem
    have := List.mem_range.mp leftMem
    have := List.mem_range.mp rightMem
    exact stale_inj (by omega) (by omega)
  have fresh {id : FileId} (early : id.low.toNat < 8) := stale_notMem count small early
  have apart : root ≠ folder ∧ root ≠ child ∧ folder ≠ child := by decide
  have withChild : ((List.range count).map stale ++ [child]).Nodup := by
    rw [← List.concat_eq_append]
    exact List.Nodup.concat (fresh (by decide)) stales
  rw [ids, List.nodup_cons, List.nodup_cons]
  refine ⟨?_, ?_, withChild⟩
  · simpa [apart] using @fresh root (by decide)
  · simpa [apart] using @fresh folder (by decide)

variable {count : Nat} (small : count ≤ 2 ^ 32)

def rows : StoredRows :=
  ⟨(ids count).map fun id => ⟨id, row id⟩, by
    rw [List.NodupKeys, List.keys, List.map_map]
    exact (List.map_id (ids count)).symm ▸ nodup_ids count small⟩

def observedIds : List FileId := [root, folder, child]

/-- `C:\F` is excluded. -/
def setting : VolumeSetting where
  key := [0x43, 0x3A]
  enabled := true
  rules := [{ path := [0x43, 0x3A, 0x5C, 0x46], include_ := false }]

/-- The volume is in memory, and the rule was set after `folder` and `child` were observed. -/
def pass : Pipeline :=
  { initial with
    store :=
      { volumes := [{ rowId := 1, key := ⟨[], 0⟩, available := true }]
        lastVolumeRowId := 1
        entries := Function.update (fun _ => ∅) 1 (rows small) }
    projection := empty.upsertAll 1 (rows small).records
    volumeRules := fun _ => some setting
    reconciliationSeen := Function.update (fun _ => none) 1 (some observedIds) }

theorem active : (pass small).reconciliationSeen 1 = some observedIds := rfl

theorem table_store (id : FileId) : (pass small).store.table 1 id =
      if id ∈ ids count then some ((row id).record id) else none := by
  show ((rows small).lookup id).map _ = _
  split_ifs with mem
  · have found : (⟨id, row id⟩ : Sigma fun _ : FileId => StoredEntry) ∈ (rows small).entries :=
      List.mem_map.mpr ⟨id, mem, rfl⟩
    rw [AList.mem_lookup_iff.mpr found]
    rfl
  · have absent : (rows small).lookup id = none := by
      rw [AList.lookup_eq_none]
      intro here
      obtain ⟨entry, found⟩ := List.mem_keys.mp here
      obtain ⟨other, member, same⟩ := List.mem_map.mp found
      exact mem ((Sigma.mk.inj same).1 ▸ member)
    rw [absent]
    rfl

theorem table_projection : (pass small).projection.table 1 = (pass small).store.table 1 := by
  show (empty.upsertAll 1 (rows small).records).table 1 = (rows small).table
  rw [table_upsertAll_self, ← StoredRows.insertAll_records]
  rfl

theorem faithful : (pass small).Faithful 1 := .inl (table_projection small)

theorem agreed : (pass small).Agreed := by
  intro volumeId _
  by_cases own : volumeId = 1
  · rw [own, table_projection]
  · have elsewhere : (pass small).store.table volumeId = (∅ : StoredRows).table := by
      have none : (pass small).store.entries volumeId = ∅ := dif_neg own
      rw [Store.table, none]
    rw [elsewhere]
    exact table_upsertAll_of_ne _ _ _ own

theorem found (mem : id ∈ observedIds) :
    (pass small).projection.table 1 id = some ((row id).record id) := by
  rw [table_projection, table_store, if_pos]
  simp only [observedIds, List.mem_cons, List.not_mem_nil, or_false] at mem
  rcases mem with rfl | rfl | rfl <;> simp [ids]

theorem chain_folder :
    ParentChain ((pass small).projection.table 1) folder
      [(row folder).record folder, (row root).record root] :=
  .step (found small (by decide)) (by decide) (.root (found small (by decide)) (by decide))

theorem chain_child :
    ParentChain ((pass small).projection.table 1) child
      [(row child).record child, (row folder).record folder, (row root).record root] :=
  .step (found small (by decide)) (by decide) (chain_folder small)

/-- The verdict on a row with a short chain. -/
theorem verdict_of_chain {chain : List EntryRecord}
    (complete : ParentChain ((pass small).projection.table 1) id chain) (short : chain.length ≤ 3) :
    (pass small).isEntryIncluded 1 id = isPathIncluded setting
      (ingestionPrefix setting.key ++ joinNames (chain.map (·.name)).reverse) := by
  have path := path_of_chain ((pass small).projection.keyed_table 1) complete
    (short.trans (by decide : 3 ≤ maxProjectionPathDepth))
  show Index.isEntryIncluded (some setting) _ id = _
  simp [Index.isEntryIncluded, setting, path]

/-- `F` and the file in it are excluded. -/
theorem verdicts : (pass small).isEntryIncluded 1 root = true ∧
    (pass small).isEntryIncluded 1 folder = false ∧ (pass small).isEntryIncluded 1 child = false := by
  rw [verdict_of_chain small (.root (found small (by decide)) (by decide)) (by decide),
    verdict_of_chain small (chain_folder small) (by decide),
    verdict_of_chain small (chain_child small) (by decide)]
  simp only [List.map_cons, List.map_nil, name_record]
  decide

theorem removals : (pass small).reconciliationRemovals 1 observedIds =
      folder :: ((List.range count).map stale ++ [child]) := by
  have keys : (pass small).store.listEntryIds 1 = ids count := by
    show ((ids count).map fun id => (⟨id, row id⟩ : Sigma fun _ : FileId => StoredEntry)).keys = _
    rw [List.keys, List.map_map]
    exact List.map_id _
  have stales : ((List.range count).map stale).filter (fun id =>
      decide (id ∉ observedIds) || !(pass small).isEntryIncluded 1 id) = (List.range count).map stale := by
    rw [List.filter_eq_self]
    intro id mem
    have unseen : id ∉ observedIds := by
      intro observed
      have early : id.low.toNat < 8 := by
        simp only [observedIds, List.mem_cons, List.not_mem_nil, or_false] at observed
        rcases observed with rfl | rfl | rfl <;> decide
      exact stale_notMem count small early mem
    simp [unseen]
  have observed : root ∈ observedIds ∧ folder ∈ observedIds ∧ child ∈ observedIds := by decide
  rw [reconciliationRemovals, keys, ids, List.filter_cons, List.filter_cons,
    List.filter_append, stales]
  simp [observed, verdicts]

theorem cleaned_child : ((pass small).finishReconciliationPass 1 true []).store.table 1 child = none := by
  rw [table_finishReconciliationPass (faithful small) (active small)
      (committedRemovals_of_notMem _ List.not_mem_nil),
    reconciledTable, if_neg]
  rintro ⟨-, included⟩
  rw [← (faithful small).verdict] at included
  cases included.symm.trans (verdicts small).2.2

include small in
theorem child_notMem : child ∉ folder :: (List.range count).map stale := by
  rw [List.mem_cons, not_or]
  exact ⟨by decide, stale_notMem count small (by decide)⟩

section Interrupted

variable (full : count + 1 = Pipeline.reconciliationRemovalChunkRows)

include full

/-- The folder and the stale files fill the first chunk. -/
theorem committed_first :
    committedRemovals ((pass small).reconciliationRemovals 1 observedIds) [true, false] =
      folder :: (List.range count).map stale := by
  have first : committedRemovals ((pass small).reconciliationRemovals 1 observedIds) [true, false] =
      ((pass small).reconciliationRemovals 1 observedIds).take
        (1 * reconciliationRemovalChunkRows) := rfl
  rw [first, removals, ← List.cons_append, Nat.one_mul, ← full]
  exact List.take_left' (by simp)

theorem interrupted_spec :
    let interrupted := (pass small).finishReconciliationPass 1 true [true, false]
    Loses 1 (folder :: (List.range count).map stale) (pass small) interrupted ∧
      interrupted.reconciliationSeen 1 = some observedIds := by
  intro interrupted
  obtain ⟨loses, kept⟩ := finishReconciliationPass_spec (active small) [true, false]
  rw [committed_first small full] at loses kept
  refine ⟨loses, kept.trans (if_neg ?_)⟩
  rw [removals]
  intro same
  refine child_notMem small ?_
  rw [same]
  simp

/-- Without its folder, `child` counts as included. -/
theorem interrupted_includes_child :
    ((pass small).finishReconciliationPass 1 true [true, false]).includes 1 child = true := by
  obtain ⟨loses, -⟩ := interrupted_spec small full
  rw [← Bool.not_eq_false, loses.excluded_iff]
  rintro ⟨-, unruled | spared⟩
  · exact List.cons_ne_nil _ _ (unruled setting rfl)
  · have chain := chain_child small
    rw [table_projection] at chain
    have above := spared _ chain ((row folder).record folder) (.tail _ (.head _))
    rw [loses.stored] at above
    change (removeAll _ _ folder).isSome = true at above
    rw [removeAll, if_pos List.mem_cons_self] at above
    cases above

theorem retried_keeps_child :
    let interrupted := (pass small).finishReconciliationPass 1 true [true, false]
    (interrupted.finishReconciliationPass 1 true []).reconciliationSeen 1 = none ∧
      (interrupted.finishReconciliationPass 1 true []).store.table 1 child =
        some ((row child).record child) := by
  intro interrupted
  obtain ⟨loses, kept⟩ := interrupted_spec small full
  have succeeds (ids : List FileId) : committedRemovals ids [] = ids :=
    committedRemovals_of_notMem ids List.not_mem_nil
  constructor
  · exact (finishReconciliationPass_spec kept []).2.trans (if_pos (succeeds _))
  · rw [table_finishReconciliationPass (loses.faithful (faithful small)) kept (succeeds _),
      reconciledTable,
      if_pos ⟨by decide, interrupted_includes_child small full⟩, loses.stored, removeAll,
      if_neg (child_notMem small), table_store, if_pos (by simp [ids])]

theorem stranded :
    let interrupted := (pass small).finishReconciliationPass 1 true [true, false]
    let retried := interrupted.finishReconciliationPass 1 true []
    (pass small).Agreed ∧ (pass small).isEntryIncluded 1 child = false ∧
      ((pass small).finishReconciliationPass 1 true []).store.table 1 child = none ∧
      interrupted.reconciliationSeen 1 = some observedIds ∧
      retried.reconciliationSeen 1 = none ∧
      retried.store.table 1 child = some ((row child).record child) :=
  ⟨agreed small, (verdicts small).2.2, cleaned_child small, (interrupted_spec small full).2,
    retried_keeps_child small full⟩

end Interrupted

/-- **The retry keeps a row that the rules exclude and that a clean finish removes**: the first chunk
takes the folder, the second one fails, and the row below the folder has lost its path. -/
theorem retry_keeps_stranded_row :
    let large := pass (by decide : 4999 ≤ 2 ^ 32)
    let interrupted := large.finishReconciliationPass 1 true [true, false]
    let retried := interrupted.finishReconciliationPass 1 true []
    large.Agreed ∧ large.isEntryIncluded 1 child = false ∧
      (large.finishReconciliationPass 1 true []).store.table 1 child = none ∧
      interrupted.reconciliationSeen 1 = some observedIds ∧
      retried.reconciliationSeen 1 = none ∧
      retried.store.table 1 child = some ((row child).record child) := by
  have full : 4999 + 1 = reconciliationRemovalChunkRows := by
    simp [reconciliationRemovalChunkRows]
  exact stranded _ full

/-- A first finish cannot list the ids, the next one loses its only chunk, and the retry leaves the
right rows: nothing is stranded. -/
theorem reconciliation_retry_iff_small :
    let pipeline := pass (by decide : 1 ≤ 2 ^ 32)
    let interrupted := reconcile 1 pipeline [(false, []), (true, [false])]
    interrupted.reconciliationSeen 1 = some observedIds ∧
      (interrupted.finishReconciliationPass 1 true [true]).store.table 1 =
        pipeline.reconciledTable 1 observedIds ∧
      pipeline.reconciledTable 1 observedIds child = none := by
  intro pipeline interrupted
  have small : 1 ≤ 2 ^ 32 := by decide
  have nothing : committedRemovals (pipeline.reconciliationRemovals 1 observedIds) [false] = [] := rfl
  obtain ⟨loses, kept⟩ := finishReconciliationPass_spec (active small) [false]
  have all : pipeline.reconciliationRemovals 1 observedIds = folder :: ([stale 0] ++ [child]) :=
    removals small
  rw [nothing, all] at kept
  have owed : interrupted.reconciliationSeen 1 = some observedIds := kept
  have spec := (reconciliation_retry_iff (active small)).2 [(false, []), (true, [false])] [true]
    (by rw [show (reconcile 1 (pass small) [(false, []), (true, [false])]).reconciliationSeen 1 =
      some observedIds from owed]; simp) (by decide)
  refine ⟨spec.1, (spec.2 (faithful small)).mpr ?_, ?_⟩
  · rintro id - ⟨-, -, spoiled⟩
    refine spoiled (.inr fun chain complete record mem => ?_)
    have same : interrupted.store.table 1 = pipeline.store.table 1 :=
      loses.stored.trans (by rw [nothing, removeAll_nil])
    rw [same]
    exact Option.isSome_iff_exists.mpr ⟨record, complete.mem_found (keyed_stored _ 1) mem⟩
  · rw [reconciledTable, if_neg]
    rintro ⟨-, included⟩
    rw [← (faithful small).verdict] at included
    cases included.symm.trans (verdicts small).2.2

end LargePass

end Pipeline

end FastFiles.Index
