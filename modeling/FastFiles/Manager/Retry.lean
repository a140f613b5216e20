import FastFiles.Manager.State

/-!
# Retry owners

The helpers of `VolumeSessionManager` that move a volume's retry intent between
its possible owners: the attempt in flight, the connection-scoped queue entry,
the scheduler's in-hand dispatch and the durable floor.  Each runs inside a
critical section that holds both locks, so each is a function on the owners.
-/

namespace FastFiles.Manager

namespace Owners

/-- `sessionsByEphemeralId_.find`. -/
def find (o : Owners) (ephemeralId : Nat) : Option VolumeSession :=
  o.session.filter fun session => session.ephemeralId == ephemeralId

variable (active : Bool) (session : VolumeSession) (retry : FailedScanRetry)

/-- Overwrite the session. -/
def setSession (o : Owners) : Owners :=
  { o with session := some session }

/-- `MergeDurableFloorLocked`: the later deadline, and a reconciliation if either
side owes one. -/
def mergeDurableFloorLocked (o : Owners) : Owners :=
  match o.scanReissueFloor with
  | none => { o with scanReissueFloor := some retry }
  | some floor =>
    { o with
      scanReissueFloor := some
        { due := max floor.due retry.due
          reconciliation := floor.reconciliation || retry.reconciliation } }

/-- The retry a session's in-flight attempt or queue entry leaves behind. -/
def pendingRetry (queued : Option FailedScanRetry) (session : VolumeSession)
    (now : Nat) : Option FailedScanRetry :=
  if session.scanInProgress then
    some
      { due := match queued with
          | some retry => max retry.due (now + scanFailureRetryDelay)
          | none => now + scanFailureRetryDelay
        reconciliation := session.reconciliationScan }
  else queued

/-- The pending retry after the scheduler's dispatch has been folded in. -/
def foldDispatch (pending dispatch : Option FailedScanRetry) : Option FailedScanRetry :=
  match dispatch, pending with
  | none, pending => pending
  | some dispatch, none => some dispatch
  | some dispatch, some retry => some { retry with due := max retry.due dispatch.due }

/-- `TransferSessionRetryToFloorLocked`. -/
def transferSessionRetryToFloorLocked (now : Nat) (o : Owners) : Owners :=
  let pending := foldDispatch (pendingRetry o.failedScanRetry session now)
    o.schedulerDispatchRetry
  let o := match pending with
    | some retry => o.mergeDurableFloorLocked retry
    | none => o
  { o with schedulerDispatchRetry := none, failedScanRetry := none }

/-- `TakeScanReissueFloorLocked` by a caller that moves the intent onto the
connection's own retry slot. -/
def requeueFloor (floor : FailedScanRetry) (o : Owners) : Owners :=
  { o with scanReissueFloor := none, failedScanRetry := some floor }

/-- `InstallNonAuthoritativeRetryLocked`: the queue while the connection is
current, otherwise the durable floor. -/
def installNonAuthoritativeRetryLocked (o : Owners) : Owners :=
  let o := { o with schedulerDispatchRetry := none }
  if active then { o with failedScanRetry := some retry }
  else o.mergeDurableFloorLocked retry

/-- `ClaimActiveAttemptLocked` for the session the caller has found. -/
def claimActiveAttemptLocked (reconciliation : Bool) (o : Owners) : Owners :=
  { o with
    schedulerDispatchRetry := none
    failedScanRetry := none
    session := some
      { session with scanInProgress := true, reconciliationScan := reconciliation } }

/-- `ClearRetryOwnerLocked`. -/
def clearRetryOwnerLocked (o : Owners) : Owners :=
  { o with
    failedScanRetry := none
    schedulerDispatchRetry := none
    scanReissueFloor := none }

/-- `RearmFailedAdmissionLocked` for the session it has found. -/
def rearmFailedAdmissionLocked (o : Owners) : Owners :=
  (o.setSession
    { session with scanInProgress := false, reconciliationScan := false }
    ).installNonAuthoritativeRetryLocked active retry

/-- Put a dispatch back into the queue at the five-second cadence. -/
def requeueDispatch (dispatch : FailedScanRetry) (now : Nat) (o : Owners) : Owners :=
  { o with
    failedScanRetry := some
      { due := now + scanFailureRetryDelay, reconciliation := dispatch.reconciliation }
    schedulerDispatchRetry := none }

/-- Move a dispatch whose session vanished onto the floor. -/
def floorDispatch (dispatch : FailedScanRetry) (o : Owners) : Owners :=
  { o.mergeDurableFloorLocked dispatch with schedulerDispatchRetry := none }

/-- Erase a session after its retry intent was moved to the durable floor. -/
def eraseSession (now : Nat) (o : Owners) : Owners :=
  { o.transferSessionRetryToFloorLocked session now with session := none }

/-- What a lost connection does when there is no session: only the dispatch may hold
an intent. -/
def clearConnectionScoped (o : Owners) : Owners :=
  let o := match o.schedulerDispatchRetry with
    | some dispatch => o.floorDispatch dispatch
    | none => o
  { o with failedScanRetry := none }

end Owners

end FastFiles.Manager
