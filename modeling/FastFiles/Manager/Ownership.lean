import FastFiles.Manager.Traffic

/-!
# What can happen to the owners

`OwnersStep` lists what a section can do to the session and the retry owners of
its volume, what it decides about the attempt in flight, and where the thread goes
from there; `Task.owners_run` says that the list is complete.  `OwnersFrame` and
`Frame.owners_receive` do the same for the first section on a frame, and
`OwnersMove` for everything else.  The properties of sessions and of retry intents
are argued on these lists and not on the handlers.

The decisions about attempts are read off the history: a verdict is `none` for an
authoritative completion, and otherwise the kind of the attempt that ended without
authority.
-/

namespace FastFiles.Manager

open Manager.Core

/-! ## Verdicts -/

/-- The verdict an event passes on the attempt in flight. -/
def Event.verdict : Event → Option (Option Bool)
  | .completionAccepted _ => some none
  | .attemptFailed reconciliation => some (some reconciliation)
  | _ => none

/-- The verdicts so far, the latest first. -/
def Core.verdicts (c : Core) : List (Option Bool) :=
  c.history.filterMap Event.verdict

/-- The verdicts after a session was erased: an attempt in flight ends. -/
def Core.verdictsErased (c : Core) (session : VolumeSession) : List (Option Bool) :=
  if session.scanInProgress then some session.reconciliationScan :: c.verdicts else c.verdicts

/-- A section that records no verdict keeps the verdicts. -/
theorem Grows.verdicts {kind : Event → Bool} {c c' : Core} (grows : Grows kind c.history c'.history)
    (silent : ∀ event, kind event = true → event.verdict = none) :
    c'.verdicts = c.verdicts := by
  obtain same | ⟨event, isKind, same⟩ := grows
  · rw [Core.verdicts, same, Core.verdicts]
  · rw [Core.verdicts, same, List.filterMap_cons, silent event isKind, Core.verdicts]

/-! ## Sections -/

/-- The next terminal of the session has authority. -/
def VolumeSession.Clean (session : VolumeSession) : Prop :=
  session.awaitingScanAttemptStarted = false ∧ session.scanBatchFailed = false

/-- The thread has claimed an attempt and not sent its request yet. -/
def Task.unsent : Task → Bool
  | .startSend _ _ _ | .triggerBegin _ _ | .triggerSend _ _ => true
  | _ => false

theorem Continuation.unsent_resume (ret : Continuation) (result : Bool) :
    (ret.resume result).unsent = false := by
  cases ret <;> rfl

/-- What the next section of a task can do. -/
inductive OwnersStep (env : Env) (c : Core) :
    Task → Owners → List (Option Bool) → Task → Prop
  | keep (task task') : (task'.unsent = true → task.unsent = true) →
      OwnersStep env c task c.owners c.verdicts task'
  | journalOpen (e usn ret) {session} : c.find e = some session →
      OwnersStep env c (.openJournal e usn ret)
        (c.owners.setSession { session with journalOpenRequested := env.reported })
        c.verdicts (ret.resume env.reported)
  -- `StartOrResumeVolume`
  | startRequeue (e row ret task') {session floor} : c.find e = some session →
      c.owners.scanReissueFloor = some floor → task'.unsent = false →
      OwnersStep env c (.startClaim e row ret) (c.owners.requeueFloor floor) c.verdicts task'
  | claim (e row ret) {session} : c.find e = some session → session.Clean →
      session.scanInProgress = false → c.owners.scanReissueFloor = none →
      c.owners.failedScanRetry = none →
      OwnersStep env c (.startClaim e row ret)
        (c.owners.claimActiveAttemptLocked { session with scanBatchFailed := false } false)
        c.verdicts (.startSend e row ret)
  | supersede (e row ret) {session} : c.find e = some session →
      session.awaitingScanAttemptStarted = false → c.owners.scanReissueFloor = none →
      c.owners.failedScanRetry = none →
      OwnersStep env c (.startClaim e row ret)
        (c.owners.claimActiveAttemptLocked
          { session with awaitingScanAttemptStarted := true } false)
        c.verdicts (.startSend e row ret)
  -- `TriggerReconciliation`
  | defer (e ret) {session} : c.find e = some session → session.scanInProgress = true →
      OwnersStep env c (.triggerClaim e ret)
        (c.owners.setSession { session with deferredReconciliation := true })
        c.verdicts (ret.resume false)
  | triggerRequeue (e ret) {session floor} : c.find e = some session →
      c.owners.scanReissueFloor = some floor →
      OwnersStep env c (.triggerClaim e ret) (c.owners.requeueFloor floor) c.verdicts
        (ret.resume false)
  | reconcile (e ret) {session} : c.find e = some session → session.scanInProgress = false →
      session.scanBatchFailed = false → c.owners.scanReissueFloor = none →
      c.owners.failedScanRetry = none →
      OwnersStep env c (.triggerClaim e ret) (c.owners.claimActiveAttemptLocked session true)
        c.verdicts (.triggerBegin e ret)
  | rearm (e ret) {session} : c.find e = some session →
      OwnersStep env c (.triggerRearm e ret)
        (c.owners.rearmFailedAdmissionLocked c.active session
          ⟨env.now + scanFailureRetryDelay, true⟩)
        (some true :: c.verdicts) (.dropConnection ret)
  -- `OnConnectionStateChanged`
  | drop (ret) {session} : c.owners.session = some session →
      OwnersStep env c (.dropSessions ret) (c.owners.eraseSession session env.now)
        (c.verdictsErased session) (.dropPass ret)
  | dropNone (ret) : c.owners.session = none →
      OwnersStep env c (.dropSessions ret) c.owners.clearConnectionScoped c.verdicts
        (ret.resume false)
  -- frame handlers
  | mark (e) {session} : c.find e = some session →
      OwnersStep env c (.batchMark e)
        (c.owners.setSession { session with scanBatchFailed := true }) c.verdicts .idle
  | deferAgain (e) {session} : c.find e = some session →
      OwnersStep env c (.completeDefer e)
        (c.owners.setSession { session with deferredReconciliation := true }) c.verdicts .idle
  | retry (e reconciliation) {session} : c.find e = some session →
      OwnersStep env c (.completeRetry e reconciliation)
        (c.owners.installNonAuthoritativeRetryLocked c.active
          ⟨env.now + scanFailureRetryDelay, reconciliation⟩)
        (some reconciliation :: c.verdicts) .idle
  | retryFloor (e reconciliation) : c.find e = none →
      OwnersStep env c (.completeRetry e reconciliation)
        (c.owners.mergeDurableFloorLocked
          ⟨env.now + scanFailureRetryDelay, reconciliation⟩)
        (some reconciliation :: c.verdicts) .idle
  | clear (e was deferred task') : task'.unsent = false →
      OwnersStep env c (.completeClear e was deferred)
        c.owners.clearRetryOwnerLocked c.verdicts task'
  -- `ReconciliationSchedulerLoop`
  | adoptGone (e reconciliation) {dispatch} :
      c.owners.schedulerDispatchRetry = some dispatch → c.find e = none →
      OwnersStep env c (.adopt e reconciliation) (c.owners.floorDispatch dispatch)
        c.verdicts .idle
  | requeue (e) {dispatch} : c.owners.schedulerDispatchRetry = some dispatch →
      OwnersStep env c (.requeue e) (c.owners.requeueDispatch dispatch env.now)
        c.verdicts .idle
  | settleRunning (e reconciliation issued task') {dispatch session} :
      c.owners.schedulerDispatchRetry = some dispatch → c.find e = some session →
      session.scanInProgress = true → task'.unsent = false →
      OwnersStep env c (.settle e reconciliation issued)
        { c.owners with schedulerDispatchRetry := none } c.verdicts task'
  | settleQueue (e reconciliation issued task') {dispatch session} :
      c.owners.schedulerDispatchRetry = some dispatch → c.find e = some session →
      task'.unsent = false →
      OwnersStep env c (.settle e reconciliation issued)
        (c.owners.requeueDispatch dispatch env.now) c.verdicts task'
  | settleFloor (e reconciliation issued task') {dispatch} :
      c.owners.schedulerDispatchRetry = some dispatch → c.find e = none →
      task'.unsent = false →
      OwnersStep env c (.settle e reconciliation issued)
        (c.owners.floorDispatch dispatch) c.verdicts task'

/-- Only a claim makes a thread one that has yet to send. -/
theorem Task.Next.unsent {task task' : Task} (next : task.Next task')
    (other : task.claims = false) (h : task'.unsent = true) : task.unsent = true := by
  cases next with
  | startClaim e row ret | triggerClaim e ret => cases other
  | triggerBegin e ret => rfl
  | _ => first | cases h | cases ‹Continuation› <;> cases h | cases ‹Bool› <;> cases h

theorem Core.find_eq_some {c : Core} {e : Nat} {session : VolumeSession} :
    c.find e = some session ↔ c.owners.session = some session ∧ session.ephemeralId = e := by
  simp [find, Owners.find, Option.filter_eq_some_iff]

theorem Core.session_of_find {c : Core} {e : Nat} {session : VolumeSession}
    (found : c.find e = some session) : c.owners.session = some session :=
  (find_eq_some.mp found).1

@[simp] theorem Core.sendSessionTeardown_owners (session : VolumeSession) (delivered : Bool)
    (c : Core) : (c.sendSessionTeardown session delivered).owners = c.owners := by
  unfold sendSessionTeardown
  dsimp only
  (repeat' split) <;> rfl

theorem Core.sendSessionTeardown_verdicts (session : VolumeSession) (delivered : Bool)
    (c : Core) : (c.sendSessionTeardown session delivered).verdicts = c.verdicts := by
  unfold sendSessionTeardown
  dsimp only
  (repeat' split) <;> rfl

theorem Core.eraseSession_owners (session : VolumeSession) (now : Nat) (c : Core) :
    (c.eraseSession session now).owners = c.owners.eraseSession session now ∧
      (c.eraseSession session now).verdicts = c.verdictsErased session := by
  unfold eraseSession verdictsErased
  dsimp only
  split <;> exact ⟨rfl, rfl⟩

theorem Core.retireSession_owners (session : VolumeSession) (env : Env) (c : Core) :
    (c.retireSession session env).owners = c.owners.eraseSession session env.now ∧
      (c.retireSession session env).verdicts = c.verdictsErased session := by
  rw [retireSession, sendSessionTeardown_owners, sendSessionTeardown_verdicts]
  exact c.eraseSession_owners session env.now

section Sections

variable {env : Env} {c : Core}

/-- A section that touches neither the owners nor the verdicts. -/
theorem OwnersStep.of_same {task : Task} {result : Core × Task} (next : task.Next result.2)
    (other : task.claims = false) (owners : result.1.owners = c.owners)
    (verdicts : result.1.verdicts = c.verdicts) :
    OwnersStep env c task result.1.owners result.1.verdicts result.2 := by
  rw [owners, verdicts]
  exact .keep task result.2 (next.unsent other)

/-- A claiming section that refuses. -/
theorem OwnersStep.refuse {task task' : Task} (idle : task'.unsent = false) :
    OwnersStep env c task c.owners c.verdicts task' :=
  .keep task task' fun h => Bool.noConfusion (h.symm.trans idle)

theorem Core.owners_startClaim (e : Nat) (row : Option VolumeMetadata) (ret : Continuation) :
    OwnersStep env c (.startClaim e row ret) (c.startClaim e row ret).1.owners
      (c.startClaim e row ret).1.verdicts (c.startClaim e row ret).2 := by
  unfold startClaim
  dsimp only
  split
  · exact .refuse (ret.unsent_resume false)
  · rename_i session found
    split
    · exact .refuse (ret.unsent_resume false)
    · rename_i notAwaiting
      rw [Bool.not_eq_true] at notAwaiting
      split
      · rename_i floor hfloor
        refine .startRequeue e row ret _ found hfloor ?_
        split
        · rfl
        · exact ret.unsent_resume false
      · rename_i noFloor
        split
        · exact .refuse rfl
        · rename_i open'
          rw [Bool.or_eq_true, not_or] at open'
          have noQueue : c.owners.failedScanRetry = none := by simpa using open'.1
          split
          · split
            · exact .supersede e row ret found notAwaiting noFloor noQueue
            · exact .refuse rfl
          · rename_i fresh
            rw [Bool.or_eq_true, not_or, Bool.not_eq_true, Bool.not_eq_true] at fresh
            exact .claim e row ret found ⟨notAwaiting, fresh.1⟩ fresh.2 noFloor noQueue

theorem Core.owners_triggerClaim (e : Nat) (ret : Continuation) :
    OwnersStep env c (.triggerClaim e ret) (c.triggerClaim e ret).1.owners
      (c.triggerClaim e ret).1.verdicts (c.triggerClaim e ret).2 := by
  unfold triggerClaim
  split
  · exact .refuse (ret.unsent_resume false)
  · rename_i session found
    split
    · exact .refuse (ret.unsent_resume false)
    · split
      · rename_i running
        exact .defer e ret found running
      · rename_i notRunning
        rw [Bool.not_eq_true] at notRunning
        split
        · rename_i floor hfloor
          exact .triggerRequeue e ret found hfloor
        · rename_i noFloor
          split
          · exact .refuse rfl
          · rename_i whole
            rw [Bool.not_eq_true] at whole
            split
            · exact .refuse (ret.unsent_resume false)
            · rename_i noQueue
              exact .reconcile e ret found notRunning whole noFloor (by simpa using noQueue)

theorem Core.afterSettle_unsent (reconciliation issued kept : Bool) :
    (afterSettle reconciliation issued kept).unsent = false := by
  unfold afterSettle
  split <;> rfl

/-- **What a section can do to the owners.** -/
theorem Task.owners_run (task : Task) :
    OwnersStep env c task (task.run env c).1.owners (task.run env c).1.verdicts
      (task.run env c).2 := by
  have next := task.run_next env c
  cases task with
  | startClaim e row ret => exact Core.owners_startClaim e row ret
  | triggerClaim e ret => exact Core.owners_triggerClaim e ret
  -- these sections change the session or the dispatched retry, if there is one
  | openJournal | triggerRearm | batchMark | completeDefer | requeue =>
    simp only [Task.run, Core.openJournal, Core.triggerRearm, Core.batchMark, Core.completeDefer,
      Core.requeue] at next ⊢
    split at next
    · exact .of_same next rfl rfl rfl
    · rename_i held
      first
      | exact .journalOpen _ _ _ held
      | exact .rearm _ _ held
      | exact .mark _ held
      | exact .deferAgain _ held
      | exact .requeue _ held
  | dropSessions ret =>
    simp only [Task.run, Core.dropSessions]
    split
    · rename_i session hs
      rw [(c.eraseSession_owners session env.now).1, (c.eraseSession_owners session env.now).2]
      exact .drop ret hs
    · rename_i gone
      exact .dropNone ret gone
  | completeRetry e reconciliation =>
    simp only [Task.run, Core.completeRetry]
    split
    · rename_i session found
      exact .retry e reconciliation found
    · rename_i gone
      exact .retryFloor e reconciliation gone
  | completeClear e was deferred =>
    have sent : (if was then Core.afterCompletion e deferred
        else .completeForeign e deferred).unsent = false := by
      cases was <;> cases deferred <;> rfl
    exact .clear e was deferred _ sent
  | adopt e reconciliation =>
    simp only [Task.run, Core.adopt] at next ⊢
    split at next
    · exact .of_same next rfl rfl rfl
    · rename_i dispatch held
      split at next
      · rename_i gone
        exact .adoptGone e reconciliation held gone
      · exact .of_same next rfl rfl rfl
  | settle e reconciliation issued =>
    simp only [Task.run, Core.settle] at next ⊢
    split at next
    · exact .of_same next rfl rfl rfl
    · rename_i dispatch held
      split at next
      · rename_i session found
        split
        · rename_i running
          exact .settleRunning e reconciliation issued _ held found running
            (Core.afterSettle_unsent _ _ _)
        · exact .settleQueue e reconciliation issued _ held found
            (Core.afterSettle_unsent _ _ _)
      · rename_i gone
        exact .settleFloor e reconciliation issued _ held gone (Core.afterSettle_unsent _ _ _)
  | startGate | batchApply | batchCursor | completeFinish | completeMark | completeTime
  | openedPosition | journalPosition | invalidPosition | journalApply =>
    refine .of_same next rfl ?_ ?_
    all_goals
      simp only [Task.run, Core.startGate, Core.batchApply, Core.batchCursor, Core.completeFinish,
        Core.completeMark, Core.completeTime, Core.openedPosition, Core.journalPosition,
        Core.invalidPosition, Core.setJournalPosition, Core.journalApply]
      (repeat' split) <;> rfl
  | _ => exact .of_same next rfl rfl rfl

end Sections

/-! ## Frames -/

/-- What the first section on a frame can do. -/
inductive OwnersFrame (env : Env) (e : Nat) (c : Core) :
    Frame → Owners → List (Option Bool) → Task → Prop
  | keep (frame task') : (∀ was deferred, task' ≠ .completeCheck e was deferred) →
      OwnersFrame env e c frame c.owners c.verdicts task'
  | dropped (a first cursor) {session} : c.find e = some session →
      OwnersFrame env e c (.scanRecordBatch a first cursor)
        (c.owners.setSession { session with scanBatchFailed := true }) c.verdicts .idle
  | released (a) {session} : c.find e = some session → session.scanInProgress = true →
      session.awaitingScanAttemptStarted = true →
      OwnersFrame env e c (.scanAttemptStarted a)
        (c.owners.setSession
          { session with awaitingScanAttemptStarted := false, scanBatchFailed := false })
        c.verdicts .idle
  | completedLost (a) {session} : c.find e = some session → session.scanInProgress = true →
      session.awaitingScanAttemptStarted = false → session.scanBatchFailed = true →
      OwnersFrame env e c (.scanComplete a)
        ((c.owners.setSession (closedByComplete session)).installNonAuthoritativeRetryLocked
          c.active ⟨env.now + scanFailureRetryDelay, session.reconciliationScan⟩)
        (some session.reconciliationScan :: c.verdicts)
        (.completeAbort e session.deferredReconciliation)
  | completedPaused (a) {session} : c.find e = some session → session.scanInProgress = true →
      session.Clean → c.paused = true →
      OwnersFrame env e c (.scanComplete a)
        (c.owners.setSession (closedByComplete session))
        (some session.reconciliationScan :: c.verdicts)
        (.completeAbort e session.deferredReconciliation)
  | accepted (a) {session} : c.find e = some session → session.scanInProgress = true →
      session.Clean → c.paused = false →
      OwnersFrame env e c (.scanComplete a)
        (c.owners.setSession (closedByComplete session))
        (none :: c.verdicts)
        (.completeCheck e session.reconciliationScan session.deferredReconciliation)
  | failed (a) {session} : c.find e = some session → session.scanInProgress = true →
      session.awaitingScanAttemptStarted = false →
      OwnersFrame env e c (.scanFailed a)
        ((c.owners.setSession (closedByFailure session)).installNonAuthoritativeRetryLocked
          c.active ⟨env.now + scanFailureRetryDelay, session.reconciliationScan⟩)
        (some session.reconciliationScan :: c.verdicts) .failedAbort
  | opened (o j current) {session} : c.find e = some session →
      OwnersFrame env e c (.usnJournalOpened o j current)
        (c.owners.setSession
          { session with
            journalId := j, journalIdKnown := true, journalOpenRequested := true })
        c.verdicts (.openedMetadata e j current)
  | retired (listed) {session} : c.owners.session = some session →
      (listed = true → c.find e = none) →
      OwnersFrame env e c (.volumeList listed) (c.owners.eraseSession session env.now)
        (c.verdictsErased session) .idle
  | created : c.owners.session = none → c.configured = some true → env.ok = true →
      OwnersFrame env e c (.volumeList true) (c.owners.setSession (.fresh e)) c.verdicts
        (.startGate e .finish)
  | replaced {session} : c.owners.session = some session → c.find e = none →
      c.configured = some true → env.ok = true →
      OwnersFrame env e c (.volumeList true)
        ((c.owners.eraseSession session env.now).setSession (.fresh e))
        (c.verdictsErased session) (.startGate e .finish)

section Frames

variable {env : Env} {e : Nat} {c : Core}

theorem Core.owners_receiveVolumeList (listed : Bool) :
    OwnersFrame env e c (.volumeList listed) (c.receiveVolumeList e listed env).1.owners
      (c.receiveVolumeList e listed env).1.verdicts (c.receiveVolumeList e listed env).2 := by
  have retired : ∀ session, c.owners.session = some session →
      (listed = true → c.find e = none) →
      OwnersFrame env e c (.volumeList listed)
        ((c.retireSession session env).setAvailable false).owners
        ((c.retireSession session env).setAvailable false).verdicts .idle := by
    intro session hs absent
    show OwnersFrame env e c _ (c.retireSession session env).owners
      (c.retireSession session env).verdicts _
    rw [(c.retireSession_owners session env).1, (c.retireSession_owners session env).2]
    exact .retired listed hs absent
  cases listed with
  | false =>
    simp only [receiveVolumeList, Bool.false_eq_true, if_false]
    split
    · rename_i session hs
      exact retired session hs (by simp)
    · exact .keep _ _ (by simp)
  | true =>
    simp only [receiveVolumeList, if_true]
    split
    · exact .keep _ _ (by simp)
    · rename_i absent
      have gone : c.find e = none := by simpa using absent
      cases hs : c.owners.session with
      | none =>
        dsimp only
        split
        · rename_i wanted
          rw [Bool.and_eq_true, decide_eq_true_eq] at wanted
          exact .created hs wanted.1 wanted.2
        · exact .keep _ _ (by simp)
      | some session =>
        dsimp only
        split
        · rename_i wanted
          rw [Bool.and_eq_true, decide_eq_true_eq] at wanted
          show OwnersFrame env e c _
            ((c.retireSession session env).owners.setSession (.fresh e))
            (c.retireSession session env).verdicts _
          rw [(c.retireSession_owners session env).1, (c.retireSession_owners session env).2]
          exact .replaced hs gone wanted.1 wanted.2
        · exact retired session hs fun _ => gone

/-- **What the first section on a frame can do to the owners.** -/
theorem Frame.owners_receive (frame : Frame) :
    OwnersFrame env e c frame (frame.receive env e c).1.owners
      (frame.receive env e c).1.verdicts (frame.receive env e c).2 := by
  cases frame with
  | volumeList listed => exact owners_receiveVolumeList listed
  | scanAttemptStarted a =>
    simp only [Frame.receive, receiveScanAttemptStarted]
    split
    · exact .keep _ _ (by simp)
    · rename_i session found
      split
      · rename_i waiting
        rw [Bool.and_eq_true] at waiting
        exact .released a found waiting.1 waiting.2
      · exact .keep _ _ (by simp)
  | scanRecordBatch a first cursor =>
    simp only [Frame.receive, receiveScanBatch]
    split
    · exact .keep _ _ (by simp)
    · rename_i session found
      split
      · exact .keep _ _ (by simp)
      · split
        · exact .dropped a first cursor found
        · exact .keep _ _ (by simp)
  | scanComplete a =>
    simp only [Frame.receive, receiveScanComplete]
    split
    · exact .keep _ _ (by simp)
    · rename_i session found
      split
      · exact .keep _ _ (by simp)
      · rename_i ordered
        split
        · exact .keep _ _ (by simp)
        · rename_i running
          simp only [Bool.not_eq_true, Bool.not_eq_true', Bool.not_eq_false] at ordered running
          split
          · rename_i lost
            exact .completedLost a found running ordered lost
          · rename_i whole
            rw [Bool.not_eq_true] at whole
            split
            · rename_i paused
              exact .completedPaused a found running ⟨ordered, whole⟩ paused
            · rename_i unpaused
              rw [Bool.not_eq_true] at unpaused
              exact .accepted a found running ⟨ordered, whole⟩ unpaused
  | scanFailed a =>
    simp only [Frame.receive, receiveScanFailed]
    split
    · exact .keep _ _ (by simp)
    · rename_i session found
      split
      · exact .keep _ _ (by simp)
      · rename_i ordered
        split
        · exact .keep _ _ (by simp)
        · rename_i running
          simp only [Bool.not_eq_true, Bool.not_eq_true', Bool.not_eq_false] at ordered running
          exact .failed a found running ordered
  | usnJournalOpened o j current =>
    simp only [Frame.receive, receiveJournalOpened]
    split
    · exact .keep _ _ (by simp)
    · rename_i session found
      exact .opened o j current found
  | journalRecordBatch | journalResumeInvalid =>
    simp only [Frame.receive, receiveJournalBatch, receiveJournalResumeInvalid]
    (repeat' split) <;> exact .keep _ _ (by simp)

end Frames

/-! ## Other moves -/

/-- What the moves outside the sections can do. -/
inductive OwnersMove (c : Core) : Owners → List (Option Bool) → Prop
  | keep : OwnersMove c c.owners c.verdicts
  /-- `ReloadConfiguration` disables the volume. -/
  | retired (now : Nat) {session} : c.owners.session = some session →
      OwnersMove c (c.owners.eraseSession session now) (c.verdictsErased session)
  /-- The scheduler moves the deadline of the queued retry. -/
  | postponed (due : Nat → Nat) :
      OwnersMove c
        { c.owners with
          failedScanRetry := c.owners.failedScanRetry.map fun retry =>
            { retry with due := due retry.due } }
        c.verdicts
  /-- The scheduler takes the queued retry in hand. -/
  | taken {session retry} : c.owners.session = some session →
      c.owners.failedScanRetry = some retry →
      OwnersMove c
        { c.owners with schedulerDispatchRetry := some retry, failedScanRetry := none }
        c.verdicts

theorem Core.owners_reloadConfiguration (entry : Option Bool) (env : Env) (c : Core) :
    OwnersMove c (c.reloadConfiguration entry env).owners
      (c.reloadConfiguration entry env).verdicts := by
  have sent : ∀ d : Core, OwnersMove c d.owners d.verdicts →
      OwnersMove c (if d.active then d.sendRequest .enumerateVolumes env.delivered else d).owners
        (if d.active then d.sendRequest .enumerateVolumes env.delivered else d).verdicts := by
    intro d h
    split <;> exact h
  unfold reloadConfiguration
  apply sent
  dsimp only
  cases hs : c.owners.session with
  | none => exact .keep
  | some session =>
    dsimp only
    split
    · exact .keep
    · have retired := retireSession_owners session env { c with configured := entry }
      rw [retired.1, retired.2]
      exact .retired env.now hs

/-- **What a move that leaves the threads alone can do to the owners.** -/
theorem CoreMove.owners {volume : Volume} {s : VolumeState} {a : Action} {core : Core}
    (move : CoreMove volume s a core) : OwnersMove s.core core.owners core.verdicts := by
  by_cases outside : a.Outside
  · have verdicts : core.verdicts = s.core.verdicts := by
      refine move.grows.1.verdicts fun event records => ?_
      cases a with
      | reloadConfiguration _ _ => exact absurd outside id
      | _ => cases event <;> first | rfl | exact absurd records Bool.false_ne_true
    rw [(move.sameBooks outside).owners, verdicts]
    exact .keep
  · cases move with
    | reloadConfiguration entry env => exact owners_reloadConfiguration entry env s.core
    | schedulerPostpone env _ =>
      exact .postponed fun due => max due (env.now + scanFailureRetryDelay)
    | _ => exact absurd trivial outside

/-- **What a thread that begins a procedure can do to the owners.** -/
theorem Spawn.owners {s : VolumeState} {a : Action} {t : ThreadId} {result : Core × Task}
    (spawn : Spawn s a t result) : OwnersMove s.core result.1.owners result.1.verdicts := by
  cases spawn with
  | resume _ _ | connectionLost => exact .keep
  | schedulerTake env taken =>
    rw [Core.schedulerTake] at taken
    repeat' split at taken
    all_goals cases taken
    rename_i session retry hs queued _
    exact .taken hs queued
  | schedulerSweep env due =>
    rw [Core.schedulerSweep] at due
    repeat' split at due
    all_goals cases due
    exact .keep

end FastFiles.Manager
