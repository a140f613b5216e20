import FastFiles.Foundations.Transition

/-!
# The volume session manager: state

`VolumeSessionManager` keeps, for every durable volume, a connection-scoped
session, the three retry owners of that volume (queue entry, scheduler dispatch,
durable floor) and the two switches `active_` and paused.  Every handler names
one volume and touches only the entries of that volume, so the state below is
that of **one volume**: its slice of the manager's maps, the durable row the
pipeline keeps for it, its part of the service connection, and the manager
procedures currently in flight for it.  The manager as a whole is a family of
such slices (`FastFiles.Transition.Family`): a connection loss or a global pause
moves all of them in one step.

A handler is not atomic: it is a sequence of sections, each of which runs under
the manager's locks or is a single call of the pipeline or the connection.
`Task` is the program counter between two sections, with the locals the rest of
the handler needs.

The service is the other party.  Requests and frames travel in two first-in
first-out streams; a scan worker started from a cursor delivers the records from
that cursor on, each batch with the position just after it.

The fields `attempts`, `openings`, `passes` and `history`, the numbers in requests,
frames and workers, and the journal in a `ResumePosition` are never read by a handler.  They identify scan attempts, journal
openings and reconciliation passes, and record what has happened, so that properties
of whole runs can be stated.
-/

namespace FastFiles.Manager

/-! ## Durable data -/

/-- An opaque resume cursor: the enumeration position it stands for and its
length on the wire.  The empty cursor means "from the beginning". -/
structure ScanCursor where
  position : Nat
  lengthBytes : Nat
deriving DecidableEq

namespace ScanCursor

/-- The cursor of a scan that was never started. -/
def empty : ScanCursor := ⟨0, 0⟩

/-- Where a service started from this cursor begins. -/
def start (cursor : ScanCursor) : Nat :=
  if cursor.lengthBytes = 0 then 0 else cursor.position

theorem start_le (cursor : ScanCursor) : cursor.start ≤ cursor.position := by
  unfold start
  split <;> omega

end ScanCursor

/-- `kMaxScanCursorLengthBytes`. -/
def maxScanCursorLengthBytes : Nat := 256

/-- `BuildStartScanPayload` as far as the cursor is concerned: an oversized
cursor yields no payload. -/
def buildStartScanPayload (cursor : ScanCursor) : Option ScanCursor :=
  if maxScanCursorLengthBytes < cursor.lengthBytes then none else some cursor

/-- The volume row the pipeline stores. -/
structure VolumeMetadata where
  available : Bool
  scanComplete : Bool
  scanCursor : ScanCursor
  journalId : Option Nat
  resumeUsn : Nat
  lastReconciliationTime : Nat
deriving DecidableEq

/-- The row `ResolveVolume` creates for a volume it has not seen before. -/
def VolumeMetadata.fresh : VolumeMetadata where
  available := false
  scanComplete := false
  scanCursor := .empty
  journalId := none
  resumeUsn := 0
  lastReconciliationTime := 0

/-- A position in the change journal, with the journal it was stored for.  A request
carries the position alone. -/
structure ResumePosition where
  journalId : Option Nat
  usn : Nat
deriving DecidableEq

/-- The position before the first record. -/
def ResumePosition.start : ResumePosition := ⟨none, 0⟩

/-- The position a row holds. -/
def VolumeMetadata.resumePosition (row : VolumeMetadata) : ResumePosition :=
  ⟨row.journalId, row.resumeUsn⟩

/-! ## Manager data -/

/-- `FailedScanRetry`: a bounded retry deadline and the kind of work owed. -/
structure FailedScanRetry where
  due : Nat
  reconciliation : Bool
deriving DecidableEq

/-- `kScanFailureRetryDelay`, in seconds. -/
def scanFailureRetryDelay : Nat := 5

/-- `kReconciliationIntervalFileTime`, in FILETIME ticks. -/
def reconciliationInterval : Nat := 6 * 3600 * 10000000

/-- `VolumeSession`, with the ephemeral id that is its key in the map. -/
structure VolumeSession where
  ephemeralId : Nat
  journalId : Nat
  journalIdKnown : Bool
  journalOpenRequested : Bool
  scanInProgress : Bool
  scanBatchFailed : Bool
  reconciliationScan : Bool
  deferredReconciliation : Bool
  awaitingScanAttemptStarted : Bool
deriving DecidableEq

/-- The session `OnVolumeList` inserts. -/
def VolumeSession.fresh (ephemeralId : Nat) : VolumeSession where
  ephemeralId := ephemeralId
  journalId := 0
  journalIdKnown := false
  journalOpenRequested := false
  scanInProgress := false
  scanBatchFailed := false
  reconciliationScan := false
  deferredReconciliation := false
  awaitingScanAttemptStarted := false

/-! ## The service connection -/

/-- Requests of the engine that concern this volume. -/
inductive Request
  | enumerateVolumes
  | startVolumeScan (attempt : Nat) (cursor : ScanCursor)
  | stopVolumeScan
  | openUsnJournal (opening : Nat) (resumeUsn : Nat)
  | closeUsnJournal
deriving DecidableEq

/-- Frames of the service that concern this volume. -/
inductive Frame
  /-- `VolumeList`: whether the volume is listed. -/
  | volumeList (listed : Bool)
  | scanAttemptStarted (attempt : Nat)
  /-- The records from position `first` up to the cursor's position, which is the
  position just after the batch. -/
  | scanRecordBatch (attempt first : Nat) (cursor : ScanCursor)
  | scanComplete (attempt : Nat)
  | scanFailed (attempt : Nat)
  | usnJournalOpened (opening journalId currentUsn : Nat)
  /-- The change records at positions `first, …, latestUsn`. -/
  | journalRecordBatch (opening first latestUsn : Nat)
  | journalResumeInvalid (opening : Nat)
deriving DecidableEq

/-- A live scan worker and the position it has reached. -/
structure ScanWorker where
  attempt : Nat
  position : Nat
deriving DecidableEq

/-- A live journal worker: the journal it reads and its next position. -/
structure JournalWorker where
  opening : Nat
  journalId : Nat
  position : Nat
deriving DecidableEq

/-- One live connection, as far as this volume is concerned. -/
structure ServiceConnection where
  ephemeralId : Nat
  requests : List Request
  frames : List Frame
  scanWorker : Option ScanWorker
  journalWorker : Option JournalWorker
deriving DecidableEq

/-- The change journal of the volume itself. -/
structure Journal where
  id : Nat
  nextUsn : Nat
deriving DecidableEq

/-! ## History -/

/-- What happened in a run. -/
inductive Event
  /-- `ClaimActiveAttemptLocked`. -/
  | attemptClaimed (reconciliation : Bool)
  /-- `BeginReconciliationPass`. -/
  | passBegun (serial : Nat)
  /-- A `StartVolumeScan` request was handed to the connection. -/
  | scanRequested (attempt : Nat) (cursor : ScanCursor)
  /-- The records `first, …, last - 1` of a scan were applied to the store. -/
  | batchApplied (attempt first last : Nat)
  /-- A scan batch was dropped, or the store refused it. -/
  | batchLost (attempt : Nat)
  /-- A completion terminal ended the attempt in flight with authority. -/
  | completionAccepted (attempt : Nat)
  /-- The attempt in flight ended without authority, or its finalization failed. -/
  | attemptFailed (reconciliation : Bool)
  /-- `FinishReconciliationPass` ran on an active pass. -/
  | passFinished (serial : Nat)
  /-- An `OpenUsnJournal` request was handed to the connection. -/
  | journalRequested (opening : Nat) (position : ResumePosition)
  /-- The service opened the journal for the request. -/
  | journalStarted (opening journalId : Nat)
  /-- The service read change records `first, …, latestUsn`. -/
  | journalRead (journalId first latestUsn : Nat)
  /-- A journal batch was applied to the store. -/
  | journalApplied (opening journalId first latestUsn : Nat)
  /-- The store refused a journal batch. -/
  | journalRefused (opening journalId first latestUsn : Nat)
  /-- A journal batch was dropped. -/
  | journalDropped (opening : Nat)
deriving DecidableEq

/-! ## Threads and program counters -/

/-- The threads that run manager procedures. -/
inductive ThreadId
  /-- The connection's reader, which dispatches the service's frames. -/
  | reader
  /-- `ReconciliationSchedulerLoop`. -/
  | scheduler
  /-- The connection's lifecycle thread. -/
  | lifecycle
  /-- A thread of the UI server. -/
  | control (index : Nat)
deriving DecidableEq

/-- What the caller of `StartOrResumeVolume` or `TriggerReconciliation` does with
the result. -/
inductive Continuation
  /-- The result is ignored and the handler ends. -/
  | finish
  /-- `OnJournalResumeInvalid` reopens the journal from position zero. -/
  | reopenJournal (ephemeralId : Nat)
  /-- The scheduler settles the dispatch it adopted. -/
  | settleDispatch (ephemeralId : Nat) (reconciliation : Bool)
deriving DecidableEq

/-- The program counter of a thread: the next section it runs. -/
inductive Task
  | idle
  -- `StartOrResumeVolume`
  | startGate (ephemeralId : Nat) (ret : Continuation)
  | startMetadata (ephemeralId : Nat) (ret : Continuation)
  | startClaim (ephemeralId : Nat) (row : Option VolumeMetadata) (ret : Continuation)
  | startSend (ephemeralId : Nat) (row : Option VolumeMetadata) (ret : Continuation)
  | openJournal (ephemeralId : Nat) (position : ResumePosition) (ret : Continuation)
  -- `TriggerReconciliation`
  | triggerClaim (ephemeralId : Nat) (ret : Continuation)
  | triggerBegin (ephemeralId : Nat) (ret : Continuation)
  | triggerSend (ephemeralId : Nat) (ret : Continuation)
  | triggerRearm (ephemeralId : Nat) (ret : Continuation)
  -- `OnConnectionStateChanged` for a state that is not Active
  | dropConnection (ret : Continuation)
  | dropActive (ret : Continuation)
  | dropSessions (ret : Continuation)
  | dropPass (ret : Continuation)
  -- `ApplyScanBatch`
  | batchApply (ephemeralId attempt first : Nat) (cursor : ScanCursor)
  | batchMark (ephemeralId : Nat)
  | batchCursor (attempt : Nat) (cursor : ScanCursor)
  -- `OnScanComplete`
  | completeAbort (ephemeralId : Nat) (deferred : Bool)
  | completeDefer (ephemeralId : Nat)
  | completeCheck (ephemeralId : Nat) (wasReconciliation deferred : Bool)
  | completeFinish (ephemeralId : Nat) (deferred : Bool)
  | completeRecheck (ephemeralId : Nat) (deferred : Bool)
  | completeMark (ephemeralId : Nat) (wasReconciliation finalized deferred : Bool)
  | completeTime (ephemeralId : Nat) (wasReconciliation deferred : Bool)
  | completeRetry (ephemeralId : Nat) (reconciliation : Bool)
  | completeClear (ephemeralId : Nat) (wasReconciliation deferred : Bool)
  | completeForeign (ephemeralId : Nat) (deferred : Bool)
  -- `OnScanFailed`
  | failedAbort
  -- journal handlers
  | openedMetadata (ephemeralId journalId currentUsn : Nat)
  | openedPosition (ephemeralId journalId usn : Nat) (reconcile : Bool)
  | journalApply (ephemeralId journalId opening first latestUsn : Nat)
  | journalPosition (journalId latestUsn : Nat)
  | invalidPosition (ephemeralId journalId : Nat)
  -- `ReconciliationSchedulerLoop`
  | adopt (ephemeralId : Nat) (reconciliation : Bool)
  | requeue (ephemeralId : Nat)
  | settle (ephemeralId : Nat) (reconciliation issued : Bool)
  | settleAbort
deriving DecidableEq

/-- The volume's session and the three places besides it that can own a retry. -/
structure Owners where
  /-- The volume's entry in `sessionsByEphemeralId_`. -/
  session : Option VolumeSession
  /-- Its entry in `failedScanRetries_`. -/
  failedScanRetry : Option FailedScanRetry
  /-- Its entry in `schedulerDispatchRetries_`. -/
  schedulerDispatchRetry : Option FailedScanRetry
  /-- Its entry in `scanReissueFloors_`. -/
  scanReissueFloor : Option FailedScanRetry
deriving DecidableEq

/-- The slice of the system that belongs to one volume, without the threads. -/
structure Core where
  /-- The volume's entry in `configuredVolumes_`, by its enabled flag. -/
  configured : Option Bool
  /-- `IsPausedLocked` for the volume's letter. -/
  paused : Bool
  active : Bool
  /-- `ProtocolSupportsScanAttemptStarted` of the version negotiated last. -/
  supportsScanAttemptStarted : Bool
  owners : Owners
  metadata : VolumeMetadata
  /-- The pipeline's active reconciliation pass for the volume. -/
  pass : Option Nat
  service : Option ServiceConnection
  journal : Journal
  attempts : Nat
  openings : Nat
  passes : Nat
  history : List Event

/-- The slice of the system that belongs to one volume. -/
structure VolumeState where
  core : Core
  threads : ThreadId → Task

end FastFiles.Manager
