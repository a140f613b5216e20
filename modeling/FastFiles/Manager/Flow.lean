import FastFiles.Manager.Step

/-!
# The control flow of the handlers

`Task.Next` is the flow graph of the manager's procedures: one constructor for
every hand-over from a section to the next one.  `Task.run_next` says that the
sections follow it, so that what a thread can be doing is argued on the graph and
not on the sections.

The first such argument is `Owned`: the sections of the frame handlers are only
ever run by the reader, and those of the scheduler loop only by the scheduler.
-/

namespace FastFiles.Manager

open FastFiles.Transition Manager.Core VolumeState

/-- The flow graph. -/
inductive Task.Next : Task → Task → Prop
  | idle : Next .idle .idle
  -- `StartOrResumeVolume`
  | startGate_refused (e ret) : Next (.startGate e ret) (ret.resume false)
  | startGate (e ret) : Next (.startGate e ret) (.startMetadata e ret)
  | startMetadata (e row ret) : Next (.startMetadata e ret) (.startClaim e row ret)
  | startClaim_refused (e row ret) : Next (.startClaim e row ret) (ret.resume false)
  | startClaim_complete (e row usn ret) : Next (.startClaim e row ret) (.openJournal e usn ret)
  | startClaim_reset (e row ret) : Next (.startClaim e row ret) (.dropConnection ret)
  | startClaim (e row ret) : Next (.startClaim e row ret) (.startSend e row ret)
  | startSend_failed (e row ret) : Next (.startSend e row ret) (.dropConnection ret)
  | startSend (e row usn ret) : Next (.startSend e row ret) (.openJournal e usn ret)
  | openJournal (e usn ret result) : Next (.openJournal e usn ret) (ret.resume result)
  -- `TriggerReconciliation`
  | triggerClaim_refused (e ret) : Next (.triggerClaim e ret) (ret.resume false)
  | triggerClaim_reset (e ret) : Next (.triggerClaim e ret) (.dropConnection ret)
  | triggerClaim (e ret) : Next (.triggerClaim e ret) (.triggerBegin e ret)
  | triggerBegin (e ret) : Next (.triggerBegin e ret) (.triggerSend e ret)
  | triggerSend_failed (e ret) : Next (.triggerSend e ret) (.triggerRearm e ret)
  | triggerSend (e ret) : Next (.triggerSend e ret) (ret.resume true)
  | triggerRearm (e ret) : Next (.triggerRearm e ret) (.dropConnection ret)
  -- `OnConnectionStateChanged`
  | dropConnection (ret) : Next (.dropConnection ret) (.dropActive ret)
  | dropActive (ret) : Next (.dropActive ret) (.dropSessions ret)
  | dropSessions_none (ret) : Next (.dropSessions ret) (ret.resume false)
  | dropSessions (ret) : Next (.dropSessions ret) (.dropPass ret)
  | dropPass (ret) : Next (.dropPass ret) (ret.resume false)
  -- `ApplyScanBatch`
  | batchApply_failed (e a first cursor) : Next (.batchApply e a first cursor) (.batchMark e)
  | batchApply (e a first cursor) : Next (.batchApply e a first cursor) (.batchCursor a cursor)
  | batchMark (e) : Next (.batchMark e) .idle
  | batchCursor (a cursor) : Next (.batchCursor a cursor) .idle
  -- `OnScanComplete`
  | completeAbort (e deferred) : Next (.completeAbort e deferred) .idle
  | completeAbort_deferred (e) : Next (.completeAbort e true) (.completeDefer e)
  | completeDefer (e) : Next (.completeDefer e) .idle
  | completeCheck_pass (e deferred) :
      Next (.completeCheck e true deferred) (.completeFinish e deferred)
  | completeCheck (e was deferred) :
      Next (.completeCheck e was deferred) (.completeMark e was false deferred)
  | completeFinish (e deferred) : Next (.completeFinish e deferred) (.completeRecheck e deferred)
  | completeRecheck_failed (e deferred) :
      Next (.completeRecheck e deferred) (.completeRetry e true)
  | completeRecheck (e deferred) :
      Next (.completeRecheck e deferred) (.completeMark e true true deferred)
  | completeMark_failed (e was finalized deferred) :
      Next (.completeMark e was finalized deferred) (.completeRetry e (was || deferred))
  | completeMark_finalized (e was deferred) :
      Next (.completeMark e was true deferred) (.completeTime e was deferred)
  | completeMark (e was deferred) :
      Next (.completeMark e was false deferred) (.completeClear e was deferred)
  | completeTime_failed (e was deferred) :
      Next (.completeTime e was deferred) (.completeRetry e (was || deferred))
  | completeTime (e was deferred) :
      Next (.completeTime e was deferred) (.completeClear e was deferred)
  | completeRetry (e reconciliation) : Next (.completeRetry e reconciliation) .idle
  | completeClear (e deferred) :
      Next (.completeClear e true deferred) (afterCompletion e deferred)
  | completeClear_initial (e deferred) :
      Next (.completeClear e false deferred) (.completeForeign e deferred)
  | completeForeign (e deferred) :
      Next (.completeForeign e deferred) (afterCompletion e deferred)
  | failedAbort : Next .failedAbort .idle
  -- journal handlers
  | openedMetadata (e j current usn reconcile) :
      Next (.openedMetadata e j current) (.openedPosition e j usn reconcile)
  | openedPosition (e j usn) : Next (.openedPosition e j usn false) .idle
  | openedPosition_reconcile (e j usn) :
      Next (.openedPosition e j usn true) (.triggerClaim e .finish)
  | journalApply_failed (e j o first latest) :
      Next (.journalApply e j o first latest) (.triggerClaim e .finish)
  | journalApply (e j o first latest) :
      Next (.journalApply e j o first latest) (.journalPosition j latest)
  | journalPosition (j latest) : Next (.journalPosition j latest) .idle
  | invalidPosition (e j) : Next (.invalidPosition e j) (.triggerClaim e (.reopenJournal e))
  -- `ReconciliationSchedulerLoop`
  | adopt_gone (e reconciliation) : Next (.adopt e reconciliation) .idle
  | adopt_busy (e reconciliation) : Next (.adopt e reconciliation) (.requeue e)
  | adopt_reconciliation (e) :
      Next (.adopt e true) (.triggerClaim e (.settleDispatch e true))
  | adopt_initial (e) : Next (.adopt e false) (.startGate e (.settleDispatch e false))
  | requeue (e) : Next (.requeue e) .idle
  | settle (e reconciliation issued) : Next (.settle e reconciliation issued) .idle
  | settle_abort (e reconciliation issued) : Next (.settle e reconciliation issued) .settleAbort
  | settleAbort : Next .settleAbort .idle

theorem Core.afterSettle_next (e : Nat) (reconciliation issued kept : Bool) :
    Task.Next (.settle e reconciliation issued) (afterSettle reconciliation issued kept) := by
  unfold afterSettle
  split
  · exact .settle_abort e reconciliation issued
  · exact .settle e reconciliation issued

/-- **The sections follow the flow graph.** -/
theorem Task.run_next (task : Task) (env : Env) (c : Core) :
    task.Next (task.run env c).2 := by
  cases task with
  | completeAbort e deferred =>
    cases deferred <;> constructor
  | completeCheck e was deferred =>
    cases was with
    | false => exact .completeCheck e false deferred
    | true =>
      simp only [Task.run, Core.completeCheck, Bool.true_and]
      split <;> constructor
  | completeMark e was finalized deferred =>
    simp only [Task.run, Core.completeMark]
    cases finalized <;> split <;> constructor
  | completeClear e was deferred =>
    cases was <;> constructor
  | openedPosition e j usn reconcile =>
    cases reconcile <;> constructor
  | adopt e reconciliation =>
    simp only [Task.run, Core.adopt]
    repeat' split
    all_goals first | exact .adopt_gone e _ | exact .adopt_busy e _ | skip
    · rename_i h
      subst h
      exact .adopt_reconciliation e
    · rename_i h
      rw [Bool.not_eq_true] at h
      subst h
      exact .adopt_initial e
  | settle e reconciliation issued =>
    simp only [Task.run, Core.settle]
    repeat' split
    all_goals exact Core.afterSettle_next e reconciliation issued _
  | _ =>
    simp only [Task.run, Core.startGate, Core.startClaim, Core.startSend, Core.openJournal,
      Core.triggerClaim, Core.triggerSend, Core.triggerRearm, Core.dropSessions, Core.batchApply,
      Core.batchMark, Core.completeDefer, Core.completeFinish, Core.completeRecheck,
      Core.completeTime, Core.completeRetry, Core.openedMetadata, Core.journalApply, Core.requeue]
    (repeat' split) <;> constructor

/-- Where the reader stands after the first section on a frame. -/
inductive Frame.First (e : Nat) : Frame → Task → Prop
  | ignored (frame) : First e frame .idle
  | volumeList (listed) : First e (.volumeList listed) (.startGate e .finish)
  | scanRecordBatch (a first cursor) :
      First e (.scanRecordBatch a first cursor) (.batchApply e a first cursor)
  | scanComplete_lost (a deferred) : First e (.scanComplete a) (.completeAbort e deferred)
  | scanComplete (a was deferred) : First e (.scanComplete a) (.completeCheck e was deferred)
  | scanFailed (a) : First e (.scanFailed a) .failedAbort
  | usnJournalOpened (o j current) :
      First e (.usnJournalOpened o j current) (.openedMetadata e j current)
  | journalRecordBatch (j o first latest) :
      First e (.journalRecordBatch o first latest) (.journalApply e j o first latest)
  | journalResumeInvalid (o) :
      First e (.journalResumeInvalid o) (.triggerClaim e (.reopenJournal e))
  | journalResumeInvalid_known (o j) :
      First e (.journalResumeInvalid o) (.invalidPosition e j)

theorem Frame.receive_first (frame : Frame) (env : Env) (e : Nat) (c : Core) :
    frame.First e (frame.receive env e c).2 := by
  cases frame
  all_goals
    simp only [Frame.receive, receiveVolumeList, receiveScanAttemptStarted,
      receiveScanBatch, receiveScanComplete, receiveScanFailed,
      receiveJournalOpened, receiveJournalBatch, receiveJournalResumeInvalid]
    (repeat' split) <;> constructor

/-- Where a thread stands after it began a procedure. -/
inductive Started (s : VolumeState) : ThreadId → Task → Prop
  | resume (thread e) : Started s (.control thread) (.startGate e .finish)
  | connectionLost : Started s .lifecycle (.dropConnection .finish)
  | schedulerTake (e reconciliation) : Started s .scheduler (.adopt e reconciliation)
  | schedulerSweep (e) : Started s .scheduler (.triggerClaim e .finish)

variable {s : VolumeState} {t : ThreadId} {a : Action} {result : Core × Task}

/-- The reader begins nothing but the handling of a frame. -/
theorem Spawn.ne_reader (spawn : Spawn s a t result) : .reader ≠ t := by
  rintro rfl
  cases spawn

theorem Spawn.started (spawn : Spawn s a t result) : Started s t result.2 := by
  cases spawn with
  | resume thread e => exact .resume thread e
  | connectionLost => exact .connectionLost
  | schedulerTake env taken =>
    rw [Core.schedulerTake] at taken
    repeat' split at taken
    all_goals cases taken
    exact .schedulerTake _ _
  | schedulerSweep env due =>
    rw [Core.schedulerSweep] at due
    repeat' split at due
    all_goals cases due
    exact .schedulerSweep _

/-- Where a thread stands after a move. -/
inductive ThreadMove (s : VolumeState) (a : Action) (u : ThreadId) : Task → Prop
  | rest : ThreadMove s a u (s.threads u)
  | run (env : Env) : a = .run u env → ThreadMove s a u ((s.threads u).run env s.core).2
  | first {e : Nat} {frame : Frame} {task : Task} : s.threads u = .idle →
      frame.First e task → ThreadMove s a u task
  | started {task : Task} : s.threads u = .idle → Started s u task → ThreadMove s a u task

variable {volume : Volume} {s' : VolumeState}

theorem Moved.threadMove {s : VolumeState} (moved : Moved volume s a s') (u : ThreadId) :
    ThreadMove s a u (s'.threads u) := by
  -- the thread that moves, and every other thread
  have other : ∀ {t result}, (u = t → ThreadMove s a u result.2) →
      ThreadMove s a u ((s.advance t result).threads u) := by
    intro t result self
    by_cases hu : u = t
    · subst hu
      rw [advance_threads_self]
      exact self rfl
    · rw [advance_threads_of_ne hu]
      exact .rest
  cases moved with
  | run t env _ =>
    refine other fun hu => ?_
    subst hu
    exact .run env rfl
  | @deliver env e frame core free _ =>
    refine other fun hu => ?_
    subst hu
    exact .first free (frame.receive_first env e core)
  | spawn free spawned =>
    refine other fun hu => ?_
    subst hu
    exact .started free spawned.started
  | core _ => exact .rest

/-- What a move does to the reader. -/
inductive ReaderMove (s : VolumeState) : Action → VolumeState → Prop
  | rest {a : Action} {s' : VolumeState} : s'.threads .reader = s.threads .reader → ReaderMove s a s'
  | run (env : Env) : ReaderMove s (.run .reader env)
      (s.advance .reader ((s.threads .reader).run env s.core))
  | deliver (env : Env) {e : Nat} {frame : Frame} {core : Core} : s.threads .reader = .idle →
      s.core.takeFrame = some (e, frame, core) →
      ReaderMove s (.deliver env) (s.advance .reader (frame.receive env e core))

theorem Moved.readerMove {s : VolumeState} (moved : Moved volume s a s') : ReaderMove s a s' := by
  cases moved with
  | run t env _ =>
    by_cases ht : .reader = t
    · subst ht
      exact .run env
    · exact .rest (advance_threads_of_ne ht _ s)
  | deliver env free taken => exact .deliver env free taken
  | spawn _ spawned => exact .rest (advance_threads_of_ne spawned.ne_reader _ s)
  | core _ => exact .rest rfl

/-- No thread of the UI server is inside the manager. -/
def VolumeState.Unattended (s : VolumeState) : Prop :=
  ∀ n, s.threads (.control n) = .idle

/-- Only `ResumeAffectedSessions` brings a thread of the UI server in. -/
theorem VolumeState.Unattended.moved {s : VolumeState} (idle : s.Unattended)
    (moved : Moved volume s a s') (other : ∀ thread e, a ≠ .resume thread e) : s'.Unattended := by
  intro n
  cases moved with
  | run t env busy =>
    by_cases ht : .control n = t
    · subst ht
      exact absurd (idle n) busy
    · rw [advance_threads_of_ne ht]
      exact idle n
  | deliver env _ _ => exact (advance_threads_of_ne (by simp) _ s).trans (idle n)
  | @spawn a t result _ spawned =>
    by_cases ht : .control n = t
    · subst ht
      cases spawned
      exact absurd rfl (other _ _)
    · rw [advance_threads_of_ne ht]
      exact idle n
  | core _ => exact idle n

/-! ## Which thread runs what -/

/-- The thread that waits for a procedure. -/
def Continuation.thread : Continuation → Option ThreadId
  | .finish => none
  | .reopenJournal _ => some .reader
  | .settleDispatch _ _ => some .scheduler

/-- The only thread that can be at a section, if there is only one. -/
def Task.thread : Task → Option ThreadId
  | .idle => none
  | .startGate _ ret | .startMetadata _ ret | .startClaim _ _ ret | .startSend _ _ ret
  | .openJournal _ _ ret | .triggerClaim _ ret | .triggerBegin _ ret | .triggerSend _ ret
  | .triggerRearm _ ret | .dropConnection ret | .dropActive ret | .dropSessions ret
  | .dropPass ret => ret.thread
  | .adopt _ _ | .requeue _ | .settle _ _ _ | .settleAbort => some .scheduler
  | _ => some .reader

theorem Continuation.thread_resume (ret : Continuation) (result : Bool) :
    (ret.resume result).thread = none ∨ (ret.resume result).thread = ret.thread := by
  cases ret <;> simp [Continuation.resume, Task.thread, Continuation.thread]

variable {task : Task}

/-- A procedure never moves to another thread. -/
theorem Task.Next.thread {task' : Task} (next : task.Next task') :
    task'.thread = none ∨ task'.thread = task.thread := by
  cases next with
  | startGate_refused e ret | startClaim_refused e row ret | openJournal e usn ret result
  | triggerClaim_refused e ret | triggerSend e ret | dropSessions_none ret | dropPass ret =>
    exact ret.thread_resume _
  | completeClear e deferred | completeForeign e deferred =>
    exact .inl (by cases deferred <;> rfl)
  | _ => simp [Task.thread, Continuation.thread]

theorem Frame.First.thread {e : Nat} {frame : Frame} (first : frame.First e task) :
    task.thread = none ∨ task.thread = some .reader := by
  cases first <;> simp [Task.thread, Continuation.thread]

theorem Started.thread (started : Started s t task) :
    task.thread = none ∨ task.thread = some t := by
  cases started <;> simp [Task.thread, Continuation.thread]

/-- Every thread runs only what can run on it. -/
def VolumeState.Owned (s : VolumeState) : Prop :=
  ∀ t owner, (s.threads t).thread = some owner → owner = t

theorem VolumeState.Owned.advance (owned : s.Owned)
    (fits : result.2.thread = none ∨ result.2.thread = some t ∨
      result.2.thread = (s.threads t).thread) : (s.advance t result).Owned := by
  intro u owner h
  by_cases hu : u = t
  · subst hu
    rw [advance_threads_self] at h
    rcases fits with none | self | same
    · rw [none] at h
      cases h
    · rw [self] at h
      exact (Option.some.inj h).symm
    · exact owned u owner (same ▸ h)
  · rw [advance_threads_of_ne hu] at h
    exact owned u owner h

/-- **Sections stay on their thread.** -/
theorem VolumeState.Owned.moved {s : VolumeState} (owned : s.Owned) (moved : Moved volume s a s') :
    s'.Owned := by
  cases moved with
  | run t env _ =>
    exact owned.advance (((s.threads t).run_next env s.core).thread.imp id Or.inr)
  | @deliver env e frame core _ _ =>
    exact owned.advance ((frame.receive_first env e core).thread.imp id Or.inl)
  | spawn _ spawned => exact owned.advance (spawned.started.thread.imp id Or.inl)
  | core _ => exact owned

/-- A thread other than the reader never runs a frame handler. -/
theorem VolumeState.Owned.reader (owned : s.Owned)
    (h : (s.threads t).thread = some .reader) : t = .reader :=
  (owned t .reader h).symm

end FastFiles.Manager
