import FastFiles.Manager.ScanAuthority

/-!
# A completed scan has covered the volume

A volume is marked scan-complete when the completion terminal of an attempt is
accepted.  The attempt started from the stored cursor, so its own batches cover
only the records from there on; the records before the cursor were applied by
earlier attempts.  The invariant `ScanCovered` therefore couples

* the scan traffic (`Client.Sound`),
* the flags of the session: a clean session has no output of an attempt that lost
  a batch ahead of it, and
* every cursor in the system, stored, in a procedure's hands or sent: all records
  before it have been applied.

The stored cursor keeps the last property only if it is frozen once a batch of
the attempt was lost.  `ApplyScanBatch` does not freeze it: a batch that the store
refuses leaves the cursor alone, but the next batch of the same attempt moves it
past the hole.  `scanComplete_over_hole` is a run in which the retry then starts
behind the hole and the volume is marked complete without the lost records.
`scanComplete_covers` is the property for all runs in which the cursor is frozen
(`CursorFrozen`).
-/

namespace FastFiles.Manager

open FastFiles.WorkerStream FastFiles.Transition VolumeState

/-! ## Indexed records -/

/-- Record `i` has been applied to the store at least once. -/
def Core.Indexed (c : Core) (i : Nat) : Prop :=
  ∃ attempt first last, Event.batchApplied attempt first last ∈ c.history ∧ first ≤ i ∧ i < last

/-- Every record of the volume before position `p` has been applied to the store. -/
def Core.IndexedBelow (volume : Volume) (c : Core) (p : Nat) : Prop :=
  ∀ i, i < p → i < volume.recordCount → c.Indexed i

/-- Whether an event applied record `i`. -/
def Event.indexes (i : Nat) : Event → Bool
  | .batchApplied _ first last => decide (first ≤ i) && decide (i < last)
  | _ => false

instance (c : Core) (i : Nat) : Decidable (c.Indexed i) :=
  decidable_of_iff (c.history.any (Event.indexes i) = true) <| by
    rw [List.any_eq_true]
    constructor
    · rintro ⟨event, mem, indexes⟩
      cases event <;> simp [Event.indexes] at indexes
      exact ⟨_, _, _, mem, indexes⟩
    · rintro ⟨attempt, first, last, mem, bounds⟩
      exact ⟨_, mem, by simp [Event.indexes, bounds]⟩

theorem VolumeState.indexed_iff (s : VolumeState) (i : Nat) :
    s.core.Indexed i ↔ ∃ attempt, (s.client scanView).AppliedBy attempt i := by
  simp [Core.Indexed, appliedBy_iff]

variable {volume : Volume} {s s' : VolumeState} {a : Action}

theorem Moved.indexed (owned : s.Owned) (moved : Moved volume s a s') {i : Nat}
    (h : s.core.Indexed i) : s'.core.Indexed i := by
  rw [indexed_iff] at h ⊢
  obtain ⟨attempt, applied⟩ := h
  exact ⟨attempt, (moved.scanStep owned).appliedBy applied⟩

theorem Moved.indexedBelow (owned : s.Owned) (moved : Moved volume s a s') {p : Nat}
    (h : s.core.IndexedBelow volume p) :
    s'.core.IndexedBelow volume p := fun i hi hn => moved.indexed owned (h i hi hn)

/-! ## The condition on runs -/

/-- The runs in which the stored cursor stays frozen:

* `SetScanCursor` does not succeed for a batch of an attempt that lost a batch,
  unless the volume is complete already, and
* a session is created only when nothing of an earlier attempt is left on the
  connection. -/
def CursorFrozen (s : VolumeState) : Action → Prop
  | .run .reader env =>
    ∀ attempt cursor, s.threads .reader = .batchCursor attempt cursor → env.ok = true →
      s.core.metadata.scanComplete = false → ¬ s.core.Lost attempt
  | .deliver env =>
    ∀ e core, s.core.takeFrame = some (e, .volumeList true, core) → core.find e = none →
      core.configured = some true → env.ok = true → core.stream scanView = []
  | _ => True

/-! ## The invariant -/

/-- The row a procedure read before it starts a scan. -/
def Task.row : Task → Option VolumeMetadata
  | .startClaim _ row _ | .startSend _ row _ => row
  | _ => none

/-- The completion of an attempt has been accepted and is being made durable. -/
def Task.finishing : Task → Bool
  | .completeCheck _ _ _ | .completeFinish _ _ | .completeRecheck _ _
  | .completeMark _ _ _ _ => true
  | _ => false

theorem Task.Next.row {task task' : Task} (next : task.Next task')
    (other : ∀ e ret, task ≠ .startMetadata e ret) {row : VolumeMetadata}
    (h : task'.row = some row) : task.row = some row := by
  cases next with
  | startMetadata e _ ret => exact absurd rfl (other e ret)
  | startClaim e row ret => exact h
  | _ => first | cases h | cases ‹Continuation› <;> cases h | cases ‹Bool› <;> cases h

variable {task : Task} {c : Core}

/-- A procedure keeps the row it read. -/
theorem Task.row_run {env : Env} {row : VolumeMetadata} (h : (task.run env c).2.row = some row) :
    task.row = some row ∨ row = c.metadata := by
  by_cases reads : ∃ e ret, task = .startMetadata e ret
  · obtain ⟨e, ret, rfl⟩ := reads
    simp only [Task.run, Core.startMetadata, Task.row] at h
    split at h
    · exact .inr (Option.some.inj h).symm
    · cases h
  · exact .inl ((task.run_next env c).row (fun e ret eq => reads ⟨e, ret, eq⟩) h)

variable {w : Nat} {cursor : ScanCursor}

/-- The cursor is stored right after the store accepted the batch. -/
theorem Task.Next.of_batchCursor (next : task.Next (.batchCursor w cursor)) :
    ∃ e first, task = .batchApply e w first cursor := by
  generalize target : Task.batchCursor w cursor = task' at next
  cases next with
  | batchApply e _ first _ =>
    cases target
    exact ⟨e, first, rfl⟩
  | _ =>
    first | cases target | cases ‹Continuation› <;> cases target | cases ‹Bool› <;> cases target

theorem Task.Next.finishing {task task' : Task} (next : task.Next task')
    (h : task'.finishing = true) : task.finishing = true := by
  cases next with
  | completeCheck_pass _ _ | completeCheck _ _ _ | completeFinish _ _ | completeRecheck _ _ => rfl
  | _ => first | cases h | cases ‹Continuation› <;> cases h | cases ‹Bool› <;> cases h

/-- The records before every cursor in the system have been applied. -/
structure VolumeState.CursorsCovered (volume : Volume) (s : VolumeState) : Prop where
  stored : s.core.IndexedBelow volume s.core.metadata.scanCursor.start
  requested : ∀ a p, (a, p) ∈ (s.client scanView).requested → s.core.IndexedBelow volume p
  held : ∀ t row, (s.threads t).row = some row →
    s.core.IndexedBelow volume row.scanCursor.start
  storing : ∀ a cursor, s.threads .reader = .batchCursor a cursor → ¬ s.core.Lost a →
    s.core.IndexedBelow volume cursor.start

/-- The invariant behind completed scans. -/
structure ScanCovered (volume : Volume) (s : VolumeState) : Prop where
  owned : s.Owned
  linked : s.Linked
  sound : (s.client scanView).Sound volume.recordCount
  settled : s.SettledFor fun _ => True
  cursors : s.CursorsCovered volume
  finishing : (s.threads .reader).finishing = true →
    s.core.IndexedBelow volume volume.recordCount
  complete : s.core.metadata.scanComplete = true →
    s.core.IndexedBelow volume volume.recordCount

/-- A session that is created has nothing of an earlier attempt ahead of it. -/
theorem Moved.inherits_any (moved : Moved volume s a s') (ok : CursorFrozen s a) :
    s.Inherits (fun _ => True) s' := by
  intro session' hs _
  cases moved with
  | run t env busy =>
    obtain ⟨session, before, -⟩ := Task.session_run hs
    exact .inr ⟨session, before, trivial⟩
  | @deliver env e frame core free taken =>
    rcases Frame.session_receive hs with ⟨session, hcore, -⟩ | ⟨rfl, gone, conf, resolved, -⟩
    · exact .inr ⟨session, (Core.SameBooks.takeFrame taken).owners ▸ hcore, trivial⟩
    · left
      rw [scanClient_deliver free taken (by simp)]
      intro w _ x hx
      rw [ok e core taken gone conf resolved] at hx
      exact absurd hx List.not_mem_nil
  | spawn free spawned =>
    rw [advance_core, spawned.owners_only.2] at hs
    exact .inr ⟨session', hs, trivial⟩
  | core move => exact .inr ⟨session', move.session hs, trivial⟩

/-! ## Every cursor stays covered -/

section Cursors

/-- A completely indexed volume covers every cursor. -/
theorem Core.IndexedBelow.of_all
    (h : c.IndexedBelow volume volume.recordCount) (p : Nat) : c.IndexedBelow volume p :=
  fun i _ hn => h i hn hn

/-- The cursor a scan is started from is the one in the row, or empty. -/
theorem Core.initialCursor_covered {row : Option VolumeMetadata}
    (h : ∀ m, row = some m → c.IndexedBelow volume m.scanCursor.start) :
    c.IndexedBelow volume (Core.initialCursor row).start := by
  have nothing : c.IndexedBelow volume ScanCursor.empty.start :=
    fun i hi => absurd hi (Nat.not_lt_zero i)
  cases row with
  | none => exact nothing
  | some m =>
    simp only [Core.initialCursor, Option.map_some, Option.getD_some, buildStartScanPayload]
    split
    · exact nothing
    · exact h m rfl

theorem ScanCovered.stored_run (cov : ScanCovered volume s) (t : ThreadId) (env : Env)
    (ok : CursorFrozen s (.run t env)) :
    s.core.IndexedBelow volume ((s.threads t).run env s.core).1.metadata.scanCursor.start := by
  cases writes : (s.threads t).writesScanRow with
  | false =>
    rw [(((s.threads t).footprint_run env s.core).scanRow writes).scanCursor]
    exact cov.cursors.stored
  | true =>
    have ht : t = .reader := by
      cases task : s.threads t with
      | batchCursor _ _ | completeMark _ _ _ _ => exact cov.owned.reader (by rw [task]; rfl)
      | _ => rw [task] at writes; cases writes
    subst ht
    cases task : s.threads .reader with
    | batchCursor a cursor =>
      simp only [Task.run, Core.batchCursor]
      split
      · rename_i succeeded
        cases done : s.core.metadata.scanComplete with
        | true => exact (cov.complete done).of_all _
        | false => exact cov.cursors.storing a cursor task (ok a cursor task succeeded done)
      · exact cov.cursors.stored
    | completeMark e was finalized deferred =>
      have all := cov.finishing (by rw [task]; rfl)
      exact all.of_all _
    | _ => rw [task] at writes; cases writes

theorem ScanCovered.requested_run (cov : ScanCovered volume s) (t : ThreadId) (env : Env)
    {w p : Nat} (h : (w, p) ∈ (((s.threads t).run env s.core).1.client scanView []).requested) :
    s.core.IndexedBelow volume p := by
  cases sends : (s.threads t).sendsScan with
  | false =>
    rw [Task.scanRequested_run sends] at h
    exact cov.cursors.requested w p h
  | true =>
    cases task : s.threads t with
    | startSend e row ret =>
      rw [task] at h
      rcases List.mem_cons.mp h with h | h
      · cases h
        refine Core.initialCursor_covered fun m hm => cov.cursors.held t m ?_
        rw [task]
        exact hm
      · exact cov.cursors.requested w p h
    | triggerSend e ret =>
      rw [task] at h
      rcases List.mem_cons.mp h with h | h
      · cases h
        exact fun i hi => absurd hi (Nat.not_lt_zero i)
      · exact cov.cursors.requested w p h
    | _ =>
      rw [task] at sends
      cases sends

/-- A batch the store accepts moves the cursor only over records that are
applied. -/
theorem ScanCovered.storing_run (cov : ScanCovered volume s) (env : Env)
    (task' : ((s.threads .reader).run env s.core).2 = .batchCursor w cursor)
    (kept : ¬ ((s.threads .reader).run env s.core).1.Lost w) :
    ((s.threads .reader).run env s.core).1.IndexedBelow volume cursor.start := by
  have next := (s.threads .reader).run_next env s.core
  rw [task'] at next
  obtain ⟨e, first, task⟩ := next.of_batchCursor
  rw [task, Task.run, Core.batchApply] at task' kept ⊢
  have items : (s.client scanView).items = .span w first cursor.position :: s.core.stream scanView := by
    rw [client, task]
    rfl
  have succeeded : env.ok = true := by
    by_contra refused
    rw [if_neg refused] at task'
    cases task'
  rw [if_pos succeeded] at kept ⊢
  have kept' : w ∉ (s.client scanView).lost := by
    rw [lost_iff]
    exact fun h => kept (.tail _ h)
  obtain ⟨p, requested, le, done⟩ := cov.sound.covers_span items kept'
  intro i hi hn
  by_cases inside : first ≤ i
  · exact ⟨w, first, cursor.position, .head _, inside,
      Nat.lt_of_lt_of_le hi cursor.start_le⟩
  · -- earlier records were applied by this attempt or lie before its own start
    have old : s.core.Indexed i := by
      by_cases before : i < p
      · exact cov.cursors.requested w p requested i before hn
      · exact (s.indexed_iff i).mpr
          ⟨w, done i (Nat.le_of_not_lt before) (Nat.lt_of_not_le inside)⟩
    obtain ⟨a', f', l', mem, bounds⟩ := old
    exact ⟨a', f', l', .tail _ mem, bounds⟩

variable {e : Nat}

theorem Frame.First.ne_batchCursor {frame : Frame} (first : frame.First e task) (w : Nat)
    (cursor : ScanCursor) : task ≠ .batchCursor w cursor := by
  cases first <;> simp

variable (cov : ScanCovered volume s) (moved : Moved volume s a s')

include cov moved

theorem ScanCovered.held_moved {u : ThreadId} {row : VolumeMetadata}
    (h : (s'.threads u).row = some row) : s.core.IndexedBelow volume row.scanCursor.start := by
  have move := moved.threadMove u
  generalize s'.threads u = task' at move h
  cases move with
  | rest => exact cov.cursors.held u row h
  | run env _ =>
    rcases Task.row_run h with h | rfl
    · exact cov.cursors.held u row h
    · exact cov.cursors.stored
  | first _ first => cases first <;> cases h
  | started _ started => cases started <;> cases h

theorem ScanCovered.storing_moved (h : s'.threads .reader = .batchCursor w cursor)
    (kept : ¬ s'.core.Lost w) : s'.core.IndexedBelow volume cursor.start := by
  cases moved.readerMove with
  | rest same =>
    exact moved.indexedBelow cov.owned
      (cov.cursors.storing w cursor (same ▸ h) fun lost => kept (moved.lost cov.owned lost))
  | run env =>
    rw [advance_threads_self] at h
    exact cov.storing_run env h kept
  | @deliver env e frame core _ _ =>
    rw [advance_threads_self] at h
    exact absurd h ((frame.receive_first env e core).ne_batchCursor w cursor)

/-- **Every cursor stays covered.** -/
theorem ScanCovered.cursors_moved (ok : CursorFrozen s a) : s'.CursorsCovered volume := by
  have later : ∀ {p}, s.core.IndexedBelow volume p → s'.core.IndexedBelow volume p :=
    fun h => moved.indexedBelow cov.owned h
  refine ⟨later ?_, fun w p h => later ?_, fun u row h => later (cov.held_moved moved h),
    fun w cursor h lost => cov.storing_moved moved h lost⟩
  · cases moved with
    | run t env _ => exact cov.stored_run t env ok
    | @deliver env e frame core _ taken =>
      have books := Core.SameBooks.takeFrame taken
      rw [advance_core, (frame.footprint_receive env e core).scanRow.scanCursor, books.metadata]
      exact cov.cursors.stored
    | spawn _ spawned =>
      rw [advance_core, spawned.metadata]
      exact cov.cursors.stored
    | core move =>
      rw [withCore_core, move.row.1]
      exact cov.cursors.stored
  · cases moved with
    | run t env _ => exact cov.requested_run t env h
    | @deliver env e frame core _ taken =>
      have same : (w, p) ∈ ((frame.receive env e core).1.client scanView []).requested := h
      rw [Frame.scanRequested_receive] at same
      refine cov.cursors.requested w p ?_
      show (w, p) ∈ (s.core.client scanView []).requested
      rw [Core.client_takeFrame taken]
      exact same
    | @spawn a t result _ spawned =>
      have same : (w, p) ∈ (result.1.client scanView []).requested := h
      rw [spawned.sameTraffic.client] at same
      exact cov.cursors.requested w p same
    | core move =>
      rw [client, withCore_core, (move.scanServed _).requested] at h
      exact cov.cursors.requested w p h

end Cursors

/-! ## Completion -/

section Completion

/-- **A completion that is accepted has the whole volume behind it.** -/
theorem ScanCovered.accepted (cov : ScanCovered volume s) {core : Core}
    (free : s.threads .reader = .idle) (taken : s.core.takeFrame = some (e, .scanComplete w, core))
    {session : VolumeSession} (hs : s.core.owners.session = some session) (clean : session.Clean) :
    s.core.IndexedBelow volume volume.recordCount := by
  have items : (s.client scanView).items = .finished w :: core.stream scanView := by
    rw [client, free]
    show (s.core.client scanView []).items = _
    rw [Core.client_takeFrame taken]
    rfl
  have settled := cov.settled session hs trivial clean (by simp [free])
  have kept : w ∉ (s.client scanView).lost := by
    intro lost
    exact settled w lost (.finished w) (by simp [items]) rfl
  obtain ⟨p, requested⟩ := cov.sound.known (.finished w) (by simp [items])
  intro i hi hn
  by_cases before : i < p
  · exact cov.cursors.requested w p requested i before hn
  · exact (s.indexed_iff i).mpr
      ⟨w, cov.sound.covers_finished items kept requested (Nat.le_of_not_lt before) hi⟩

theorem Frame.First.finishing {frame : Frame} (first : frame.First e task)
    (h : task.finishing = true) :
    ∃ w was deferred, frame = .scanComplete w ∧ task = .completeCheck e was deferred := by
  cases first <;> cases h
  exact ⟨_, _, _, rfl, rfl⟩

theorem ScanCovered.finishing_moved (cov : ScanCovered volume s) (moved : Moved volume s a s')
    (h : (s'.threads .reader).finishing = true) :
    s'.core.IndexedBelow volume volume.recordCount := by
  refine moved.indexedBelow cov.owned ?_
  cases moved.readerMove with
  | rest same => exact cov.finishing (same ▸ h)
  | run env =>
    rw [advance_threads_self] at h
    exact cov.finishing (((s.threads .reader).run_next env s.core).finishing h)
  | @deliver env e frame core free taken =>
    rw [advance_threads_self] at h
    obtain ⟨w, was, deferred, rfl, task⟩ :=
      (frame.receive_first env e core).finishing h
    obtain ⟨session, found, clean, -⟩ := Core.receiveScanComplete_accepts task
    have hs : s.core.owners.session = some session :=
      (Core.SameBooks.takeFrame taken).owners ▸ (Core.find_eq_some.mp found).1
    exact cov.accepted free taken hs clean

theorem ScanCovered.complete_moved (cov : ScanCovered volume s) (moved : Moved volume s a s')
    (h : s'.core.metadata.scanComplete = true) :
    s'.core.IndexedBelow volume volume.recordCount := by
  refine moved.indexedBelow cov.owned ?_
  cases moved with
  | run t env busy =>
    by_cases mark : ∃ e was finalized deferred,
        s.threads t = .completeMark e was finalized deferred
    · obtain ⟨e, was, finalized, deferred, task⟩ := mark
      have ht : t = .reader := cov.owned.reader (by rw [task]; rfl)
      subst ht
      exact cov.finishing (by rw [task]; rfl)
    by_cases cursor : ∃ w cursor, s.threads t = .batchCursor w cursor
    · obtain ⟨w, cursor, task⟩ := cursor
      rw [advance_core, task, Task.run, Core.batchCursor] at h
      refine cov.complete ?_
      split at h <;> exact h
    · have quiet : (s.threads t).writesScanRow = false := by
        cases task : s.threads t with
        | completeMark e was finalized deferred =>
          exact absurd ⟨e, was, finalized, deferred, task⟩ mark
        | batchCursor w stored => exact absurd ⟨w, stored, task⟩ cursor
        | _ => rfl
      rw [advance_core, (((s.threads t).footprint_run env s.core).scanRow quiet).scanComplete] at h
      exact cov.complete h
  | @deliver env e frame core free taken =>
    rw [advance_core, (frame.footprint_receive env e core).scanRow.scanComplete,
      (Core.SameBooks.takeFrame taken).metadata] at h
    exact cov.complete h
  | spawn free spawned =>
    rw [advance_core, spawned.metadata] at h
    exact cov.complete h
  | core move =>
    rw [withCore_core, move.row.1] at h
    exact cov.complete h

end Completion

/-! ## All runs -/

theorem ScanCovered.initial (volume : Volume) (journal : Journal) :
    ScanCovered volume (.initial journal) where
  owned := nofun
  linked := ⟨nofun, nofun⟩
  sound := client_initial journal volume.recordCount rfl
  settled := nofun
  cursors :=
    ⟨fun i hi => absurd hi (Nat.not_lt_zero i), fun _ _ h => absurd h List.not_mem_nil,
      nofun, nofun⟩
  finishing := nofun
  complete := nofun

/-- **One guarded move keeps the invariant.** -/
theorem ScanCovered.moved (cov : ScanCovered volume s) (moved : Moved volume s a s')
    (ok : CursorFrozen s a) :
    ScanCovered volume s' where
  owned := cov.owned.moved moved
  linked := cov.linked.moved moved
  sound := cov.sound.step (moved.scanStep cov.owned)
  settled := cov.settled.moved cov.owned cov.linked cov.sound moved (moved.inherits_any ok)
  cursors := cov.cursors_moved moved ok
  finishing := cov.finishing_moved moved
  complete := cov.complete_moved moved

/-- **No false completion.**  In every run of any number of volumes in which the
stored cursors stay frozen, a volume that is marked scan-complete has had every
record of its enumeration applied to the store. -/
theorem scanComplete_covers {ι : Type} (volumes : ι → Volume) {s : ι → VolumeState}
    (reach : Family (fun i => step (volumes i)) Initial CursorFrozen s) (i : ι)
    (complete : (s i).core.metadata.scanComplete = true) (n : Nat)
    (inside : n < (volumes i).recordCount) : (s i).core.Indexed n := by
  have covered : ScanCovered (volumes i) (s i) := by
    refine (reach.component i).invariant ?_ ?_
    · rintro _ ⟨journal, rfl⟩
      exact .initial (volumes i) journal
    · intro s a s' cov ok h
      exact cov.moved (step_moved h) ok
  exact covered.complete complete n inside inside

/-! ### Two runs -/

/-- Everything the environment decides is in the manager's favour. -/
def Env.good (now : Nat) : Env := ⟨now, true, true, true⟩

/-- The store refuses, everything else is in the manager's favour. -/
def Env.refusing (now : Nat) : Env := ⟨now, false, true, true⟩

/-- A configured volume is connected, listed, and its initial scan is requested. -/
def initialScanRequested : List Action :=
  [.reloadConfiguration (some true) (.good 0), .connectionActive 7 true (.good 0),
    .serve (.good 0), .deliver (.good 0)] ++ List.replicate 5 (.run .reader (.good 0))

/-- The service scans a volume of three records in three batches, and the reader
takes the start marker. -/
def threeBatches : List Action :=
  [.serve (.good 0), .scanBatch 1 8, .scanBatch 2 8, .scanBatch 3 8, .scanComplete,
    .serve (.refusing 0), .deliver (.good 0)]

/-- The reader applies a batch and stores its cursor, or the store refuses it. -/
def readBatch (env : Env) : List Action :=
  [.deliver (.good 0), .run .reader env, .run .reader (.good 0)]

/-- A completion that is accepted and made durable. -/
def readCompletion (now : Nat) : List Action :=
  [.deliver (.good now), .run .reader (.good now), .run .reader (.good now)]

/-- A scan whose batches are all applied. -/
def wholeScan : List Action :=
  List.flatten
    [initialScanRequested, threeBatches, readBatch (.good 0), readBatch (.good 0),
      readBatch (.good 0), readCompletion 0]

/-- A scan whose second batch the store refuses.  The third batch moves the cursor
to the end of the volume, the completion is not accepted, and the retry finds
nothing left to scan. -/
def scanWithHole : List Action :=
  List.flatten
    [initialScanRequested, threeBatches, readBatch (.good 0), readBatch (.refusing 0),
      readBatch (.good 0), [.deliver (.good 0), .run .reader (.good 0), .schedulerTake (.good 9)],
      List.replicate 7 (.run .scheduler (.good 9)),
      [.serve (.good 9), .scanComplete, .deliver (.good 9)], readCompletion 9]

/-- A decidable condition that implies `CursorFrozen`. -/
def cursorFrozenCheck (s : VolumeState) : Action → Bool
  | .run .reader _ =>
    match s.threads .reader with
    | .batchCursor attempt _ => !decide (s.core.Lost attempt)
    | _ => true
  | .deliver _ =>
    match s.core.takeFrame with
    | some (_, .volumeList true, core) => (core.stream scanView).isEmpty
    | _ => true
  | _ => true

theorem cursorFrozen_of_check (s : VolumeState) (a : Action)
    (h : cursorFrozenCheck s a = true) : CursorFrozen s a := by
  cases a with
  | run t env =>
    cases t with
    | reader =>
      intro attempt cursor task _ _
      simpa [cursorFrozenCheck, task] using h
    | _ => trivial
  | deliver env =>
    intro e core taken _ _ _
    simpa [cursorFrozenCheck, taken] using h
  | _ => trivial

/-- A scan whose batches are all applied is a run with frozen cursor, and it ends
with the volume marked and covered. -/
theorem scanComplete_covers_wholeScan :
    ∃ s : Unit → VolumeState,
      Family (fun _ => step ⟨3⟩) Initial CursorFrozen s ∧
        (s ()).core.metadata.scanComplete = true ∧ ∀ n < 3, (s ()).core.Indexed n := by
  have exec : (run (fun s a => if cursorFrozenCheck s a then step ⟨3⟩ s a else none)
      (.initial ⟨1, 0⟩) wholeScan).map (·.core.metadata.scanComplete) = some true := by
    decide +kernel
  obtain ⟨t, exec, complete⟩ := Option.map_eq_some_iff.mp exec
  have reach : Family (fun _ : Unit => step ⟨3⟩) Initial CursorFrozen fun _ => t :=
    .of_component (.of_checked_run (fun s a _ => cursorFrozen_of_check s a)
      (fun _ _ _ _ _ _ => trivial) (.start ⟨_, rfl⟩) trivial exec)
  exact ⟨fun _ => t, reach, complete, scanComplete_covers (fun _ => ⟨3⟩) reach () complete⟩

/-- **A false completion.**  The volume is marked scan-complete although record 1
was never applied to the store. -/
theorem scanComplete_over_hole :
    ∃ s : Unit → VolumeState,
      Family (fun _ => step ⟨3⟩) Initial (fun _ _ => True) s ∧
        (s ()).core.metadata.scanComplete = true ∧ ¬ (s ()).core.Indexed 1 := by
  have exec : (run (step ⟨3⟩) (.initial ⟨1, 0⟩) scanWithHole).map
      (fun s => (s.core.metadata.scanComplete, decide (s.core.Indexed 1))) =
        some (true, false) := by
    decide +kernel
  obtain ⟨t, exec, result⟩ := Option.map_eq_some_iff.mp exec
  obtain ⟨complete, hole⟩ := Prod.mk.inj result
  exact ⟨fun _ => t, .of_component (.of_run (.start ⟨_, rfl⟩) exec), complete,
    of_decide_eq_false hole⟩

end FastFiles.Manager
