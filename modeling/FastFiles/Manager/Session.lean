import FastFiles.Manager.Ownership

/-!
# What can happen to a session

Only the reader creates a session, and only for a `VolumeList` frame.  Every
section of every procedure erases the session, leaves it, or changes it in one of
the ways listed by `SessionStep`; `Task.session_run` says so.  The frame handlers
close attempts on top of that; `closes` below is what they may do.

A session is `Clean` when the next terminal would have authority: no marker is
awaited and no batch of the attempt was lost.  No section makes a session clean:
that is left to the frames that close an attempt or announce a new one.
-/

namespace FastFiles.Manager

open VolumeState Owners

/-- What a section can do to a session that it keeps. -/
inductive SessionStep (session : VolumeSession) : VolumeSession → Prop
  | keep : SessionStep session session
  | journalOpen (requested : Bool) :
      SessionStep session { session with journalOpenRequested := requested }
  | claim : session.Clean →
      SessionStep session
        { session with
          scanBatchFailed := false, scanInProgress := true, reconciliationScan := false }
  | supersede :
      SessionStep session
        { session with
          awaitingScanAttemptStarted := true
          scanInProgress := true
          reconciliationScan := false }
  | reconcile :
      SessionStep session { session with scanInProgress := true, reconciliationScan := true }
  | defer : SessionStep session { session with deferredReconciliation := true }
  | rearm :
      SessionStep session { session with scanInProgress := false, reconciliationScan := false }
  | mark : SessionStep session { session with scanBatchFailed := true }

section

variable {session session' : VolumeSession} (h : SessionStep session session')

include h

theorem SessionStep.ephemeralId : session'.ephemeralId = session.ephemeralId := by
  cases h <;> rfl

/-- No section makes a session clean. -/
theorem SessionStep.clean (clean : session'.Clean) : session.Clean := by
  cases h with
  | claim before => exact before
  | supersede => cases clean.1
  | mark => cases clean.2
  | _ => exact clean

end

/-! ## The sections -/

@[simp] theorem Owners.mergeDurableFloorLocked_session (retry : FailedScanRetry) (o : Owners) :
    (o.mergeDurableFloorLocked retry).session = o.session := by
  unfold mergeDurableFloorLocked
  split <;> rfl

@[simp] theorem Owners.installNonAuthoritativeRetryLocked_session (active : Bool)
    (retry : FailedScanRetry) (o : Owners) :
    (o.installNonAuthoritativeRetryLocked active retry).session = o.session := by
  unfold installNonAuthoritativeRetryLocked
  dsimp only
  split
  · rfl
  · simp

@[simp] theorem Owners.floorDispatch_session (dispatch : FailedScanRetry) (o : Owners) :
    (o.floorDispatch dispatch).session = o.session := by
  simp [floorDispatch]

@[simp] theorem Owners.clearConnectionScoped_session (o : Owners) :
    o.clearConnectionScoped.session = o.session := by
  unfold clearConnectionScoped
  dsimp only
  split
  · exact floorDispatch_session _ _
  · rfl

variable {session' : VolumeSession} {verdicts : List (Option Bool)} {owners : Owners} {c : Core}
  {env : Env} {task task' : Task}

theorem OwnersStep.session (h : OwnersStep env c task owners verdicts task')
    (hs : owners.session = some session') :
    ∃ session, c.owners.session = some session ∧ SessionStep session session' := by
  have found {e session} := @Core.session_of_find c e session
  cases h with
  | keep _ _ | startRequeue _ _ _ _ _ _ _ | triggerRequeue _ _ _ _ | clear _ _ _ _ _
  | requeue _ _ | settleRunning _ _ _ _ _ _ _ | settleQueue _ _ _ _ _ _ =>
    exact ⟨session', hs, .keep⟩
  | retry | retryFloor | adoptGone | settleFloor =>
    simp only [installNonAuthoritativeRetryLocked_session,
      mergeDurableFloorLocked_session, floorDispatch_session] at hs
    exact ⟨session', hs, .keep⟩
  | dropNone _ gone =>
    rw [clearConnectionScoped_session, gone] at hs
    cases hs
  | drop _ _ => cases hs
  | rearm e ret h =>
    rw [rearmFailedAdmissionLocked, installNonAuthoritativeRetryLocked_session] at hs
    cases hs
    exact ⟨_, found h, .rearm⟩
  | journalOpen e usn ret h =>
    cases hs
    exact ⟨_, found h, .journalOpen env.reported⟩
  | claim e row ret h clean _ _ _ =>
    cases hs
    exact ⟨_, found h, .claim clean⟩
  | supersede e row ret h _ _ _ =>
    cases hs
    exact ⟨_, found h, .supersede⟩
  | defer _ _ h _ | deferAgain _ h =>
    cases hs
    exact ⟨_, found h, .defer⟩
  | reconcile e ret h _ _ _ _ =>
    cases hs
    exact ⟨_, found h, .reconcile⟩
  | mark e h =>
    cases hs
    exact ⟨_, found h, .mark⟩

/-- **A section keeps the session, changes it by a `SessionStep`, or erases it.** -/
theorem Task.session_run {task : Task} (h : (task.run env c).1.owners.session = some session') :
    ∃ session, c.owners.session = some session ∧ SessionStep session session' :=
  task.owners_run.session h

/-! ## Moves of the system and beginnings -/

/-- No move outside the sections creates or changes a session. -/
theorem OwnersMove.session (h : OwnersMove c owners verdicts)
    (hs : owners.session = some session') : c.owners.session = some session' := by
  cases h with
  | retired _ _ => cases hs
  | keep | postponed _ | taken _ _ => exact hs

variable {volume : Volume} {s : VolumeState} {core : Core}

theorem CoreMove.session {a : Action} (move : CoreMove volume s a core)
    (h : core.owners.session = some session') : s.core.owners.session = some session' :=
  move.owners.session h

/-! ## Frames -/

/-- What the first section on a frame can do to a session that it keeps. -/
inductive SessionFrame (session : VolumeSession) : Frame → VolumeSession → Prop
  | keep (frame) : SessionFrame session frame session
  | dropped (a first cursor) :
      SessionFrame session (.scanRecordBatch a first cursor)
        { session with scanBatchFailed := true }
  | released (a) : session.scanInProgress = true →
      session.awaitingScanAttemptStarted = true →
      SessionFrame session (.scanAttemptStarted a)
        { session with awaitingScanAttemptStarted := false, scanBatchFailed := false }
  | completed (a) : session.scanInProgress = true →
      session.awaitingScanAttemptStarted = false →
      SessionFrame session (.scanComplete a) (Core.closedByComplete session)
  | failed (a) : session.scanInProgress = true →
      session.awaitingScanAttemptStarted = false →
      SessionFrame session (.scanFailed a) (Core.closedByFailure session)
  | opened (o j current) :
      SessionFrame session (.usnJournalOpened o j current)
        { session with
          journalId := j, journalIdKnown := true, journalOpenRequested := true }

variable {frame : Frame}

theorem SessionFrame.ephemeralId {session session' : VolumeSession}
    (h : SessionFrame session frame session') :
    session'.ephemeralId = session.ephemeralId := by
  cases h <;> rfl

variable {e : Nat}

theorem OwnersFrame.session {task' : Task}
    (inversion : OwnersFrame env e c frame owners verdicts task')
    (h : owners.session = some session') :
    (∃ session, c.owners.session = some session ∧ SessionFrame session frame session') ∨
      (frame = .volumeList true ∧ c.find e = none ∧ c.configured = some true ∧
        env.ok = true ∧ session' = .fresh e) := by
  have known {session} := @Core.session_of_find c e session
  cases inversion with
  | keep _ _ _ => exact .inl ⟨session', h, .keep _⟩
  | retired _ _ _ => cases h
  | dropped a first cursor found =>
    cases h
    exact .inl ⟨_, known found, .dropped a first cursor⟩
  | released a found running waiting =>
    cases h
    exact .inl ⟨_, known found, .released a running waiting⟩
  | completedLost a found running ordered _ =>
    rw [installNonAuthoritativeRetryLocked_session] at h
    cases h
    exact .inl ⟨_, known found, .completed a running ordered⟩
  | completedPaused a found running clean _ | accepted a found running clean _ =>
    cases h
    exact .inl ⟨_, known found, .completed a running clean.1⟩
  | failed a found running ordered =>
    rw [installNonAuthoritativeRetryLocked_session] at h
    cases h
    exact .inl ⟨_, known found, .failed a running ordered⟩
  | opened o j current found =>
    cases h
    exact .inl ⟨_, known found, .opened o j current⟩
  | created gone wanted resolved =>
    cases h
    have missing : c.find e = none := by rw [Core.find, find, gone]; rfl
    exact .inr ⟨rfl, missing, wanted, resolved, rfl⟩
  | replaced _ missing wanted resolved =>
    cases h
    exact .inr ⟨rfl, missing, wanted, resolved, rfl⟩

/-- **The first section on a frame keeps the session, changes it by a
`SessionFrame`, erases it, or creates one for a listed volume.** -/
theorem Frame.session_receive (h : (frame.receive env e c).1.owners.session = some session') :
    (∃ session, c.owners.session = some session ∧ SessionFrame session frame session') ∨
      (frame = .volumeList true ∧ c.find e = none ∧ c.configured = some true ∧
        env.ok = true ∧ session' = .fresh e) :=
  frame.owners_receive.session h

/-! ## Sessions belong to the connection -/

/-- The id under which the connection knows the volume. -/
def Core.ephemeralId (c : Core) : Option Nat :=
  c.service.map (·.ephemeralId)

theorem Core.Notifies.ephemeralId_eq {c c' : Core} (h : c.Notifies c') :
    c'.ephemeralId = c.ephemeralId := h.ephemeralId

theorem Core.ephemeralId_sendRequest (request : Request) (delivered : Bool) (c : Core) :
    (c.sendRequest request delivered).ephemeralId = c.ephemeralId := by
  unfold Core.sendRequest
  split
  · simp [Core.ephemeralId, Function.comp_def]
  · rfl

/-- A section keeps the connection or drops it. -/
theorem Task.ephemeralId_run (task : Task) (env : Env) (c : Core) :
    (task.run env c).1.ephemeralId = c.ephemeralId ∨
      (task.run env c).1.ephemeralId = none := by
  cases quiet : task.communicates with
  | false => exact .inl ((task.footprint_run env c).traffic quiet).notifies.ephemeralId_eq
  | true =>
    cases task with
    | dropConnection ret => exact .inr rfl
    | startSend | triggerSend => exact .inl (Core.ephemeralId_sendRequest _ _ _)
    | openJournal e usn ret =>
      simp only [Task.run, Core.openJournal]
      split
      · exact .inl rfl
      · exact .inl (Core.ephemeralId_sendRequest _ _ _)
    | batchApply | journalApply =>
      simp only [Task.run, Core.batchApply, Core.journalApply]
      split <;> exact .inl rfl
    | _ => cases quiet

theorem Core.ephemeralId_takeFrame {c core : Core} (taken : c.takeFrame = some (e, frame, core)) :
    c.ephemeralId = some e ∧ core.ephemeralId = some e := by
  obtain ⟨service, frames, hs, rfl, -, rfl⟩ := Core.takeFrame_eq_some taken
  exact ⟨by rw [Core.ephemeralId, hs]; rfl, rfl⟩

theorem Frame.ephemeralId_receive (frame : Frame) (env : Env) (e : Nat) (c : Core) :
    (frame.receive env e c).1.ephemeralId = c.ephemeralId := by
  cases quiet : frame.communicates with
  | false => exact ((frame.footprint_receive env e c).traffic quiet).notifies.ephemeralId_eq
  | true =>
    cases frame with
    | volumeList listed => exact (c.receiveVolumeList_notifies e listed env).ephemeralId_eq
    | scanRecordBatch | journalRecordBatch =>
      simp only [Frame.receive, Core.receiveScanBatch, Core.receiveJournalBatch]
      (repeat' split) <;> rfl
    | _ => cases quiet

theorem CoreMove.ephemeralId {a : Action} (move : CoreMove volume s a core) :
    core.ephemeralId = s.core.ephemeralId ∨ s.core.owners.session = none := by
  cases own : a.service with
  | true =>
    obtain ⟨service, service', hs, rfl | ⟨event, -, rfl⟩, same⟩ := move.withService own
    · exact .inl (by simp [Core.ephemeralId, Core.withService, hs, same])
    · exact .inl (by simp [Core.ephemeralId, Core.withService, Core.record, hs, same])
  | false =>
    cases move with
    | reloadConfiguration entry env =>
      exact .inl (s.core.reloadConfiguration_notifies entry env).ephemeralId_eq
    | lateStop => exact .inl (s.core.ephemeralId_sendRequest _ _)
    | connectionActive _ _ _ _ _ gone => exact .inr gone
    | setIndexingPaused _ | schedulerPostpone _ _ | journalGrow _ | journalRecreate _ _ =>
      exact .inl rfl
    | _ => cases own

/-- The session a task of the batch handler has looked up. -/
def Task.batchId : Task → Option Nat
  | .batchApply e _ _ _ | .batchMark e => some e
  | _ => none

theorem Task.Next.batchId (next : task.Next task')
    (h : task'.batchId = some e) : task.batchId = some e := by
  cases next with
  | batchApply_failed _ _ _ _ => exact h
  | _ => first | cases h | cases ‹Continuation› <;> cases h | cases ‹Bool› <;> cases h

/-- The session is the one the connection knows the volume by, and the one the
reader has looked up. -/
structure VolumeState.Linked (s : VolumeState) : Prop where
  connection : ∀ session e, s.core.owners.session = some session →
    s.core.ephemeralId = some e → session.ephemeralId = e
  reader : ∀ session e, s.core.owners.session = some session →
    (s.threads .reader).batchId = some e → session.ephemeralId = e

/-- **Sessions stay linked to the connection.** -/
theorem VolumeState.Linked.moved {s s' : VolumeState} {a : Action}
    (linked : s.Linked) (moved : Moved volume s a s') : s'.Linked := by
  have reader := moved.readerMove
  cases moved with
  | run t env _ =>
    refine ⟨fun session' e h hc => ?_, fun session' e h hr => ?_⟩
    · obtain ⟨session, hs, step⟩ := Task.session_run h
      rw [step.ephemeralId]
      rcases (s.threads t).ephemeralId_run env s.core with same | gone
      · exact linked.connection session e hs (same ▸ hc)
      · rw [advance_core, gone] at hc
        cases hc
    · obtain ⟨session, hs, step⟩ := Task.session_run h
      rw [step.ephemeralId]
      cases reader with
      | rest same => exact linked.reader session e hs (same ▸ hr)
      | run =>
        rw [advance_threads_self] at hr
        exact linked.reader session e hs
          (((s.threads .reader).run_next env s.core).batchId hr)
  | @deliver env e frame core free taken =>
    obtain ⟨known, still⟩ := Core.ephemeralId_takeFrame taken
    have books := Core.SameBooks.takeFrame taken
    -- whatever session there is afterwards has the id of the connection
    have mine : ∀ session', (frame.receive env e core).1.owners.session = some session' →
        session'.ephemeralId = e := by
      intro session' h
      rcases Frame.session_receive h with ⟨session, hs, step⟩ | ⟨-, -, -, -, fresh⟩
      · rw [step.ephemeralId]
        exact linked.connection session e (books.owners ▸ hs) known
      · rw [fresh]
        rfl
    refine ⟨fun session' e' h hc => ?_, fun session' e' h hr => ?_⟩
    · rw [advance_core, Frame.ephemeralId_receive, still] at hc
      exact (mine session' h).trans (Option.some.inj hc)
    · rw [advance_threads_self] at hr
      have first := frame.receive_first env e core
      rw [mine session' h]
      revert hr
      generalize (frame.receive env e core).2 = task at first
      intro hr
      cases first <;> cases hr
      rfl
  | @spawn a t result free spawned =>
    refine ⟨fun session' e h hc => ?_, fun session' e h hr => ?_⟩
    · rw [advance_core, spawned.owners_only.2] at h
      rw [advance_core, spawned.sameTraffic.notifies.ephemeralId_eq] at hc
      exact linked.connection session' e h hc
    · rw [advance_core, spawned.owners_only.2] at h
      rw [advance_threads_of_ne spawned.ne_reader] at hr
      exact linked.reader session' e h hr
  | core move =>
    refine ⟨fun session' e h hc => ?_, fun session' e h hr => ?_⟩
    · have hs := move.session h
      rcases move.ephemeralId with same | gone
      · exact linked.connection session' e hs (same ▸ hc)
      · rw [gone] at hs
        cases hs
    · exact linked.reader session' e (move.session h) hr

end FastFiles.Manager
