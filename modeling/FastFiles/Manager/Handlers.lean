import FastFiles.Manager.Retry

/-!
# The sections of the manager's handlers

Every definition below is one section of a handler of `VolumeSessionManager`: a
critical section, or one call of the pipeline or of the connection.  It takes the
slice of the volume and what the environment decides during the section, and
returns the slice and the section to run next.

Diagnostics, snapshot publication, `SetBulkScanActive` and the scheduler's wakeup
counter are left out: no handler reads them back.
-/

namespace FastFiles.Manager

/-- What the environment decides during a section. -/
structure Env where
  /-- The clock. -/
  now : Nat
  /-- Whether the store call of the section succeeds. -/
  ok : Bool
  /-- What `SendRequest` reports. -/
  reported : Bool
  /-- Whether the request reaches the service: a write that is reported as failed
  may still have been read in full. -/
  delivered : Bool
deriving DecidableEq

/-- The section that follows a procedure that returned `result`. -/
def Continuation.resume : Continuation → (result : Bool) → Task
  | .finish, _ => .idle
  | .reopenJournal ephemeralId, _ => .openJournal ephemeralId .start .finish
  | .settleDispatch ephemeralId reconciliation, issued =>
    .settle ephemeralId reconciliation issued

namespace Core

/-- Append an event to the history. -/
def record (event : Event) (c : Core) : Core :=
  { c with history := event :: c.history }

/-- Replace the owners. -/
def withOwners (owners : Owners) (c : Core) : Core :=
  { c with owners }

variable (ephemeralId : Nat) (ret : Continuation) (c : Core)

/-- `sessionsByEphemeralId_.find`. -/
def find (ephemeralId : Nat) : Option VolumeSession :=
  c.owners.find ephemeralId

variable (session : VolumeSession) (env : Env)

/-- Overwrite the session. -/
def setSession (c : Core) : Core :=
  c.withOwners (c.owners.setSession session)

/-- `SendRequest` on the volume's connection. -/
def sendRequest (request : Request) (delivered : Bool) (c : Core) : Core :=
  { c with
    service :=
      if delivered then c.service.map fun service =>
        { service with requests := service.requests ++ [request] }
      else c.service }

/-- Hand a `StartVolumeScan` request with this cursor to the connection. -/
def sendStartVolumeScan (cursor : ScanCursor) (delivered : Bool) (c : Core) : Core :=
  ({ c with
      attempts := c.attempts + 1
      history := .scanRequested c.attempts cursor :: c.history }).sendRequest
    (.startVolumeScan c.attempts cursor) delivered

/-- `SendSessionTeardown`. -/
def sendSessionTeardown (delivered : Bool) (c : Core) : Core :=
  if c.active then
    let c := c.sendRequest .stopVolumeScan delivered
    if session.journalOpenRequested then c.sendRequest .closeUsnJournal delivered else c
  else c

/-- Move a session's retry intent to the durable floor and erase the session.  An
attempt in flight becomes unreportable here, so it ends without authority. -/
def eraseSession (now : Nat) (c : Core) : Core :=
  let erased := c.withOwners (c.owners.eraseSession session now)
  if session.scanInProgress then erased.record (.attemptFailed session.reconciliationScan)
  else erased

/-- Erase a session whose volume was disabled or is no longer listed. -/
def retireSession (c : Core) : Core :=
  (c.eraseSession session env.now).sendSessionTeardown session env.delivered

variable (reconciliation : Bool) (row : Option VolumeMetadata)

/-- Claim the attempt in flight for the session. -/
def claim (c : Core) : Core :=
  (c.withOwners (c.owners.claimActiveAttemptLocked session reconciliation)).record
    (.attemptClaimed reconciliation)

/-- End an attempt without authority, with this retry as its next owner. -/
def failAttempt (retry : FailedScanRetry) (c : Core) : Core :=
  (c.withOwners (c.owners.installNonAuthoritativeRetryLocked c.active retry)).record
    (.attemptFailed retry.reconciliation)

/-! ## `StartOrResumeVolume` and `RequestJournalOpen` -/

/-- First critical section: disabled and paused volumes are never started. -/
def startGate : Core × Task :=
  if c.configured = some false then (c, ret.resume false)
  else if c.paused then (c, ret.resume false)
  else (c, .startMetadata ephemeralId ret)

/-- `GetVolumeMetadata`, which may fail. -/
def startMetadata (c : Core) : Core × Task :=
  (c, .startClaim ephemeralId (if env.ok then some c.metadata else none) ret)

/-- The persisted journal position, or zero when the row could not be read. -/
def resumePositionOf : ResumePosition :=
  (row.map (·.resumePosition)).getD .start

/-- Second critical section: inspect the queue, take the floor, claim.  An attempt
that supersedes one in flight, or a coverage hole, stays provisional until the
start marker arrives. -/
def startClaim (ret : Continuation) (c : Core) : Core × Task :=
  let scanComplete := row.any (·.scanComplete)
  match c.find ephemeralId with
  | none => (c, ret.resume false)
  | some session =>
    if session.awaitingScanAttemptStarted then (c, ret.resume false)
    else match c.owners.scanReissueFloor with
      | some floor =>
        (c.withOwners (c.owners.requeueFloor floor),
          if scanComplete then .openJournal ephemeralId (resumePositionOf row) ret
          else ret.resume false)
      | none =>
        if c.owners.failedScanRetry.isSome || scanComplete then
          (c, .openJournal ephemeralId (resumePositionOf row) ret)
        else if session.scanBatchFailed || session.scanInProgress then
          if c.supportsScanAttemptStarted then
            (c.claim { session with awaitingScanAttemptStarted := true } false,
              .startSend ephemeralId row ret)
          else (c, .dropConnection ret)
        else
          (c.claim { session with scanBatchFailed := false } false,
            .startSend ephemeralId row ret)

/-- The cursor of an initial scan: the stored one, unless it is oversized. -/
def initialCursor : ScanCursor :=
  (buildStartScanPayload ((row.map (·.scanCursor)).getD .empty)).getD .empty

/-- Send `StartVolumeScan`; a failed write discards the connection. -/
def startSend (ret : Continuation) (env : Env) (c : Core) : Core × Task :=
  (c.sendStartVolumeScan (initialCursor row) env.delivered,
    if env.reported then .openJournal ephemeralId (resumePositionOf row) ret
    else .dropConnection ret)

/-- `RequestJournalOpen`: the lookup, the send and the reset of the flag after a failed send are one
step. -/
def openJournal (position : ResumePosition) (ret : Continuation) (env : Env) (c : Core) :
    Core × Task :=
  match c.find ephemeralId with
  | none => (c, ret.resume false)
  | some session =>
    ((({ c.setSession { session with journalOpenRequested := env.reported } with
        openings := c.openings + 1 }).record
          (.journalRequested c.openings position)).sendRequest
            (.openUsnJournal c.openings position.usn) env.delivered,
      ret.resume env.reported)

/-! ## `TriggerReconciliation` -/

/-- The busy check, the floor transfer and the claim. -/
def triggerClaim : Core × Task :=
  match c.find ephemeralId with
  | none => (c, ret.resume false)
  | some session =>
    if c.paused then (c, ret.resume false)
    else if session.scanInProgress then
      (c.setSession { session with deferredReconciliation := true }, ret.resume false)
    else match c.owners.scanReissueFloor with
      | some floor => (c.withOwners (c.owners.requeueFloor floor), ret.resume false)
      | none =>
        if session.scanBatchFailed then (c, .dropConnection ret)
        else if c.owners.failedScanRetry.isSome then (c, ret.resume false)
        else (c.claim session true, .triggerBegin ephemeralId ret)

/-- `BeginReconciliationPass`. -/
def triggerBegin : Core × Task :=
  (({ c with pass := some c.passes, passes := c.passes + 1 }).record (.passBegun c.passes),
    .triggerSend ephemeralId ret)

/-- Send `StartVolumeScan` without a cursor. -/
def triggerSend (c : Core) : Core × Task :=
  (c.sendStartVolumeScan .empty env.delivered,
    if env.reported then ret.resume true else .triggerRearm ephemeralId ret)

/-- `RearmFailedAdmissionLocked`: a failed admission restores a retry owner and
discards the connection. -/
def triggerRearm (c : Core) : Core × Task :=
  match c.find ephemeralId with
  | none => (c, .dropConnection ret)
  | some session =>
    ((c.withOwners (c.owners.rearmFailedAdmissionLocked c.active session
        ⟨env.now + scanFailureRetryDelay, true⟩)).record (.attemptFailed true),
      .dropConnection ret)

/-! ## `OnConnectionStateChanged` -/

/-- The connection's state leaves Active: no frame of it is dispatched any more. -/
def dropConnection : Core × Task :=
  ({ c with service := none }, .dropActive ret)

def dropActive : Core × Task :=
  ({ c with active := false }, .dropSessions ret)

/-- Transfer every retry intent to the floor and clear the connection-scoped
state. -/
def dropSessions (c : Core) : Core × Task :=
  match c.owners.session with
  | some session => (c.eraseSession session env.now, .dropPass ret)
  | none => (c.withOwners c.owners.clearConnectionScoped, ret.resume false)

/-- `AbortReconciliationPass` for the lost session's volume. -/
def dropPass : Core × Task :=
  ({ c with pass := none }, ret.resume false)

/-! ## `ApplyScanBatch` -/

/-- The critical section of `ApplyScanBatch`. -/
def receiveScanBatch (attempt first : Nat) (cursor : ScanCursor) (c : Core) : Core × Task :=
  match c.find ephemeralId with
  | none => (c.record (.batchLost attempt), .idle)
  | some session =>
    if session.awaitingScanAttemptStarted then (c.record (.batchLost attempt), .idle)
    else if c.paused then
      ((c.setSession { session with scanBatchFailed := true }).record
        (.batchLost attempt), .idle)
    else (c, .batchApply ephemeralId attempt first cursor)

/-- `ApplyMftBatch`. -/
def batchApply (attempt first : Nat) (cursor : ScanCursor) (env : Env) (c : Core) : Core × Task :=
  if env.ok then
    (c.record (.batchApplied attempt first cursor.position), .batchCursor attempt cursor)
  else (c.record (.batchLost attempt), .batchMark ephemeralId)

/-- A batch the store refused makes the scan non-authoritative. -/
def batchMark : Core × Task :=
  match c.find ephemeralId with
  | none => (c, .idle)
  | some session => (c.setSession { session with scanBatchFailed := true }, .idle)

/-- `SetScanCursor`. -/
def batchCursor (cursor : ScanCursor) (env : Env) (c : Core) : Core × Task :=
  (if env.ok then { c with metadata := { c.metadata with scanCursor := cursor } } else c,
    .idle)

/-! ## `OnScanComplete` -/

/-- The session after a completion terminal closed its attempt. -/
def closedByComplete : VolumeSession :=
  { session with
    scanInProgress := false
    reconciliationScan := false
    scanBatchFailed := false
    deferredReconciliation := false }

/-- The critical section of `OnScanComplete`: close the attempt, and install its
next owner when a batch was lost. -/
def receiveScanComplete (attempt : Nat) (env : Env) (c : Core) : Core × Task :=
  match c.find ephemeralId with
  | none => (c, .idle)
  | some session =>
    if session.awaitingScanAttemptStarted then (c, .idle)
    else if !session.scanInProgress then (c, .idle)
    else
      let closed := c.setSession (closedByComplete session)
      if session.scanBatchFailed then
        (closed.failAttempt
            ⟨env.now + scanFailureRetryDelay, session.reconciliationScan⟩,
          .completeAbort ephemeralId session.deferredReconciliation)
      else if c.paused then
        -- no owner is installed here
        (closed.record (.attemptFailed session.reconciliationScan),
          .completeAbort ephemeralId session.deferredReconciliation)
      else
        (closed.record (.completionAccepted attempt),
          .completeCheck ephemeralId session.reconciliationScan
            session.deferredReconciliation)

/-- A completion without authority discards the pass. -/
def completeAbort (deferred : Bool) (c : Core) : Core × Task :=
  ({ c with pass := none }, if deferred then .completeDefer ephemeralId else .idle)

/-- The deferred request is still owed. -/
def completeDefer : Core × Task :=
  match c.find ephemeralId with
  | none => (c, .idle)
  | some session => (c.setSession { session with deferredReconciliation := true }, .idle)

/-- `IsReconciliationPassActive` before finalization. -/
def completeCheck (wasReconciliation deferred : Bool) (c : Core) : Core × Task :=
  (c, if wasReconciliation && c.pass.isSome then .completeFinish ephemeralId deferred
    else .completeMark ephemeralId wasReconciliation false deferred)

/-- `FinishReconciliationPass`: a failed removal keeps the pass active. -/
def completeFinish (deferred : Bool) (env : Env) (c : Core) : Core × Task :=
  match c.pass with
  | none => (c, .completeRecheck ephemeralId deferred)
  | some serial =>
    (({ c with pass := if env.ok then none else some serial }).record
      (.passFinished serial), .completeRecheck ephemeralId deferred)

/-- `IsReconciliationPassActive` after `FinishReconciliationPass`. -/
def completeRecheck (deferred : Bool) (c : Core) : Core × Task :=
  (c, if c.pass.isSome then .completeRetry ephemeralId true
    else .completeMark ephemeralId true true deferred)

/-- `MarkScanComplete`. -/
def completeMark (wasReconciliation finalized deferred : Bool) (env : Env) (c : Core) :
    Core × Task :=
  if env.ok then
    ({ c with metadata := { c.metadata with scanComplete := true, scanCursor := .empty } },
      if finalized then .completeTime ephemeralId wasReconciliation deferred
      else .completeClear ephemeralId wasReconciliation deferred)
  else (c, .completeRetry ephemeralId (wasReconciliation || deferred))

/-- `SetLastReconciliationTime`. -/
def completeTime (wasReconciliation deferred : Bool) (env : Env) (c : Core) : Core × Task :=
  if env.ok then
    ({ c with metadata := { c.metadata with lastReconciliationTime := env.now } },
      .completeClear ephemeralId wasReconciliation deferred)
  else (c, .completeRetry ephemeralId (wasReconciliation || deferred))

/-- `retryFinalization`. -/
def completeRetry (env : Env) (c : Core) : Core × Task :=
  let retry : FailedScanRetry := ⟨env.now + scanFailureRetryDelay, reconciliation⟩
  match c.find ephemeralId with
  | some _ => (c.failAttempt retry, .idle)
  | none =>
    ((c.withOwners (c.owners.mergeDurableFloorLocked retry)).record
      (.attemptFailed reconciliation), .idle)

/-- The section after finalization: a deferred request is issued now. -/
def afterCompletion (deferred : Bool) : Task :=
  if deferred then .triggerClaim ephemeralId .finish else .idle

/-- Only durable finalization satisfies the repair intent. -/
def completeClear (wasReconciliation deferred : Bool) (c : Core) : Core × Task :=
  (c.withOwners c.owners.clearRetryOwnerLocked,
    if wasReconciliation then afterCompletion ephemeralId deferred
    else .completeForeign ephemeralId deferred)

/-- An initial scan never finalizes a pass it does not own. -/
def completeForeign (deferred : Bool) (c : Core) : Core × Task :=
  ({ c with pass := none }, afterCompletion ephemeralId deferred)

/-! ## `OnScanFailed` and `OnScanAttemptStarted` -/

/-- The session after a failure terminal closed its attempt. -/
def closedByFailure : VolumeSession :=
  { session with
    scanInProgress := false
    reconciliationScan := false
    scanBatchFailed := false }

/-- The critical section of `OnScanFailed`. -/
def receiveScanFailed (c : Core) : Core × Task :=
  match c.find ephemeralId with
  | none => (c, .idle)
  | some session =>
    if session.awaitingScanAttemptStarted then (c, .idle)
    else if !session.scanInProgress then (c, .idle)
    else
      ((c.setSession (closedByFailure session)).failAttempt
          ⟨env.now + scanFailureRetryDelay, session.reconciliationScan⟩,
        .failedAbort)

def failedAbort : Core × Task :=
  ({ c with pass := none }, .idle)

/-- `OnScanAttemptStarted`: only a provisional replacement has authority to
release. -/
def receiveScanAttemptStarted : Core × Task :=
  match c.find ephemeralId with
  | none => (c, .idle)
  | some session =>
    (if session.scanInProgress && session.awaitingScanAttemptStarted then
      c.setSession
        { session with awaitingScanAttemptStarted := false, scanBatchFailed := false }
    else c, .idle)

/-! ## Journal handlers -/

/-- The critical section of `OnJournalOpened`. -/
def receiveJournalOpened (journalId currentUsn : Nat) (c : Core) : Core × Task :=
  match c.find ephemeralId with
  | none => (c, .idle)
  | some session =>
    (c.setSession
        { session with journalId, journalIdKnown := true, journalOpenRequested := true },
      .openedMetadata ephemeralId journalId currentUsn)

/-- A journal that was recreated is read from its current position and repaired
by a reconciliation; otherwise the persisted position stands. -/
def openedMetadata (journalId currentUsn : Nat) (env : Env) (c : Core) : Core × Task :=
  (c, if env.ok then
        if c.metadata.journalId.any (· != journalId) then
          .openedPosition ephemeralId journalId currentUsn true
        else .openedPosition ephemeralId journalId c.metadata.resumeUsn false
      else .openedPosition ephemeralId journalId currentUsn false)

/-- `SetJournalPosition`. -/
def setJournalPosition (journalId usn : Nat) (ok : Bool) (c : Core) : Core :=
  if ok then
    { c with metadata := { c.metadata with journalId := some journalId, resumeUsn := usn } }
  else c

def openedPosition (journalId usn : Nat) (reconcile : Bool) (env : Env) (c : Core) : Core × Task :=
  (c.setJournalPosition journalId usn env.ok,
    if reconcile then .triggerClaim ephemeralId .finish else .idle)

/-- The critical section of `ApplyJournalBatch`: while paused the batch is dropped
without advancing the position. -/
def receiveJournalBatch (opening first latestUsn : Nat) (c : Core) : Core × Task :=
  match c.find ephemeralId with
  | none => (c.record (.journalDropped opening), .idle)
  | some session =>
    if !session.journalIdKnown then (c.record (.journalDropped opening), .idle)
    else if c.paused then (c.record (.journalDropped opening), .idle)
    else (c, .journalApply ephemeralId session.journalId opening first latestUsn)

/-- `ApplyUsnBatch`: a batch that cannot be applied requests a reconciliation. -/
def journalApply (journalId opening first latestUsn : Nat) (env : Env) (c : Core) : Core × Task :=
  if env.ok then
    (c.record (.journalApplied opening journalId first latestUsn),
      .journalPosition journalId latestUsn)
  else
    (c.record (.journalRefused opening journalId first latestUsn),
      .triggerClaim ephemeralId .finish)

def journalPosition (journalId latestUsn : Nat) (env : Env) (c : Core) : Core × Task :=
  (c.setJournalPosition journalId latestUsn env.ok, .idle)

/-- The critical section of `OnJournalResumeInvalid`. -/
def receiveJournalResumeInvalid : Core × Task :=
  (c, match c.find ephemeralId with
    | none => .idle
    | some session =>
      if session.journalIdKnown then .invalidPosition ephemeralId session.journalId
      else .triggerClaim ephemeralId (.reopenJournal ephemeralId))

def invalidPosition (journalId : Nat) (env : Env) (c : Core) : Core × Task :=
  (c.setJournalPosition journalId 0 env.ok,
    .triggerClaim ephemeralId (.reopenJournal ephemeralId))

/-! ## `OnVolumeList` -/

/-- Mark the volume's row available or not. -/
def setAvailable (available : Bool) (c : Core) : Core :=
  { c with metadata := { c.metadata with available } }

/-- A listed volume without a session gets one if it is configured and enabled
and its durable identity resolves; a volume that is no longer listed loses its
session. -/
def receiveVolumeList (listed : Bool) (env : Env) (c : Core) : Core × Task :=
  if listed then
    if (c.find ephemeralId).isSome then (c, .idle)
    else
      -- a session under an id that is not listed is retired after the insertion,
      -- which leaves the volume marked unavailable
      let retired := match c.owners.session with
        | some session => (c.retireSession session env).setAvailable false
        | none => c
      if c.configured = some true && env.ok then
        ((retired.setAvailable c.owners.session.isNone).setSession (.fresh ephemeralId),
          .startGate ephemeralId .finish)
      else (retired, .idle)
  else match c.owners.session with
    | some session => ((c.retireSession session env).setAvailable false, .idle)
    | none => (c, .idle)

/-! ## `ReconciliationSchedulerLoop` -/

/-- A due retry whose session is alive becomes the in-hand dispatch. -/
def schedulerTake (c : Core) : Option (Core × Task) :=
  match c.owners.session, c.owners.failedScanRetry with
  | some session, some retry =>
    if retry.due ≤ env.now then
      some (c.withOwners { c.owners with
          schedulerDispatchRetry := some retry, failedScanRetry := none },
        .adopt session.ephemeralId retry.reconciliation)
    else none
  | _, _ => none

/-- Adopt the dispatch, unless it was transferred meanwhile. -/
def adopt (c : Core) : Core × Task :=
  match c.owners.schedulerDispatchRetry with
  | none => (c, .idle)
  | some dispatch =>
    match c.find ephemeralId with
    | none => (c.withOwners (c.owners.floorDispatch dispatch), .idle)
    | some session =>
      (c, if !session.scanInProgress && !c.paused then
          if reconciliation
          then .triggerClaim ephemeralId (.settleDispatch ephemeralId true)
          else .startGate ephemeralId (.settleDispatch ephemeralId false)
        else .requeue ephemeralId)

/-- A paused or busy volume keeps a non-issuing owner. -/
def requeue (c : Core) : Core × Task :=
  match c.owners.schedulerDispatchRetry with
  | none => (c, .idle)
  | some dispatch => (c.withOwners (c.owners.requeueDispatch dispatch env.now), .idle)

/-- What follows when the dispatch found no owner of its own. -/
def afterSettle (issued kept : Bool) : Task :=
  if !issued && !kept && reconciliation then .settleAbort else .idle

/-- Settle a dispatch that the admission did not consume. -/
def settle (issued : Bool) (env : Env) (c : Core) : Core × Task :=
  match c.owners.schedulerDispatchRetry with
  | none => (c, afterSettle reconciliation issued false)
  | some dispatch =>
    match c.find ephemeralId with
    | some session =>
      if session.scanInProgress then
        (c.withOwners { c.owners with schedulerDispatchRetry := none },
          afterSettle reconciliation issued false)
      else
        (c.withOwners (c.owners.requeueDispatch dispatch env.now),
          afterSettle reconciliation issued true)
    | none =>
      (c.withOwners (c.owners.floorDispatch dispatch),
        afterSettle reconciliation issued false)

def settleAbort : Core × Task :=
  ({ c with pass := none }, .idle)

/-- The periodic sweep: an available, completely scanned volume that is not paused
and whose last reconciliation is old enough. -/
def schedulerSweep (c : Core) : Option (Core × Task) :=
  match c.owners.session with
  | none => none
  | some session =>
    if c.metadata.available && c.metadata.scanComplete && !c.paused
        && decide (reconciliationInterval ≤ env.now - c.metadata.lastReconciliationTime) then
      some (c, .triggerClaim session.ephemeralId .finish)
    else none

/-- While the connection is down a queued retry is pushed back. -/
def schedulerPostpone (c : Core) : Core :=
  c.withOwners { c.owners with
    failedScanRetry := c.owners.failedScanRetry.map fun retry =>
      { retry with due := max retry.due (env.now + scanFailureRetryDelay) } }

end Core

/-! ## Running a task -/

/-- Run the next section of a task. -/
def Task.run (env : Env) (c : Core) : Task → Core × Task
  | .idle => (c, .idle)
  | .startGate ephemeralId ret => c.startGate ephemeralId ret
  | .startMetadata ephemeralId ret => c.startMetadata ephemeralId ret env
  | .startClaim ephemeralId row ret => c.startClaim ephemeralId row ret
  | .startSend ephemeralId row ret => c.startSend ephemeralId row ret env
  | .openJournal ephemeralId position ret => c.openJournal ephemeralId position ret env
  | .triggerClaim ephemeralId ret => c.triggerClaim ephemeralId ret
  | .triggerBegin ephemeralId ret => c.triggerBegin ephemeralId ret
  | .triggerSend ephemeralId ret => c.triggerSend ephemeralId ret env
  | .triggerRearm ephemeralId ret => c.triggerRearm ephemeralId ret env
  | .dropConnection ret => c.dropConnection ret
  | .dropActive ret => c.dropActive ret
  | .dropSessions ret => c.dropSessions ret env
  | .dropPass ret => c.dropPass ret
  | .batchApply ephemeralId attempt first cursor =>
    c.batchApply ephemeralId attempt first cursor env
  | .batchMark ephemeralId => c.batchMark ephemeralId
  | .batchCursor _ cursor => c.batchCursor cursor env
  | .completeAbort ephemeralId deferred => c.completeAbort ephemeralId deferred
  | .completeDefer ephemeralId => c.completeDefer ephemeralId
  | .completeCheck ephemeralId wasReconciliation deferred =>
    c.completeCheck ephemeralId wasReconciliation deferred
  | .completeFinish ephemeralId deferred => c.completeFinish ephemeralId deferred env
  | .completeRecheck ephemeralId deferred => c.completeRecheck ephemeralId deferred
  | .completeMark ephemeralId wasReconciliation finalized deferred =>
    c.completeMark ephemeralId wasReconciliation finalized deferred env
  | .completeTime ephemeralId wasReconciliation deferred =>
    c.completeTime ephemeralId wasReconciliation deferred env
  | .completeRetry ephemeralId reconciliation =>
    c.completeRetry ephemeralId reconciliation env
  | .completeClear ephemeralId wasReconciliation deferred =>
    c.completeClear ephemeralId wasReconciliation deferred
  | .completeForeign ephemeralId deferred => c.completeForeign ephemeralId deferred
  | .failedAbort => c.failedAbort
  | .openedMetadata ephemeralId journalId currentUsn =>
    c.openedMetadata ephemeralId journalId currentUsn env
  | .openedPosition ephemeralId journalId usn reconcile =>
    c.openedPosition ephemeralId journalId usn reconcile env
  | .journalApply ephemeralId journalId opening first latestUsn =>
    c.journalApply ephemeralId journalId opening first latestUsn env
  | .journalPosition journalId latestUsn => c.journalPosition journalId latestUsn env
  | .invalidPosition ephemeralId journalId => c.invalidPosition ephemeralId journalId env
  | .adopt ephemeralId reconciliation => c.adopt ephemeralId reconciliation
  | .requeue _ => c.requeue env
  | .settle ephemeralId reconciliation issued =>
    c.settle ephemeralId reconciliation issued env
  | .settleAbort => c.settleAbort

/-- The reader's first section on a frame. -/
def Frame.receive (env : Env) (ephemeralId : Nat) (c : Core) : Frame → Core × Task
  | .volumeList listed => c.receiveVolumeList ephemeralId listed env
  | .scanAttemptStarted _ => c.receiveScanAttemptStarted ephemeralId
  | .scanRecordBatch attempt first cursor =>
    c.receiveScanBatch ephemeralId attempt first cursor
  | .scanComplete attempt => c.receiveScanComplete ephemeralId attempt env
  | .scanFailed _ => c.receiveScanFailed ephemeralId env
  | .usnJournalOpened _ journalId currentUsn =>
    c.receiveJournalOpened ephemeralId journalId currentUsn
  | .journalRecordBatch opening first latestUsn =>
    c.receiveJournalBatch ephemeralId opening first latestUsn
  | .journalResumeInvalid _ => c.receiveJournalResumeInvalid ephemeralId

end FastFiles.Manager
