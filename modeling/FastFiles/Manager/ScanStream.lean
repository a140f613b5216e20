import FastFiles.Manager.Stream

/-!
# The scan traffic of a volume

Scan attempts are the workers of `scanView`, scan batches their spans,
`ScanAttemptStarted` the start marker, `ScanComplete` and `ScanFailed` the
terminals, and the `StartVolumeScan` requests that the service has not read yet
stand at the end.  A service that does not support start markers starts its workers
without one.

The main result is `Moved.scanStep`: every move of the system is one step of the
client of the scan stream.
-/

namespace FastFiles.Manager

open FastFiles.WorkerStream FastFiles.Transition Manager.Core

/-! ## The view -/

/-- The stream item a frame stands for. -/
def Frame.scanItem : Frame → Option Item
  | .scanAttemptStarted attempt => some (.marker attempt)
  | .scanRecordBatch attempt first cursor => some (.span attempt first cursor.position)
  | .scanComplete attempt => some (.finished attempt)
  | .scanFailed attempt => some (.failed attempt)
  | _ => none

/-- The stream item a request stands for. -/
def Request.scanItem : Request → Option Item
  | .startVolumeScan attempt cursor => some (.pending attempt cursor.start)
  | _ => none

def ScanWorker.item (worker : ScanWorker) : Item :=
  .working worker.attempt worker.position

def Event.scanRequest : Event → Option (Nat × Nat)
  | .scanRequested attempt cursor => some (attempt, cursor.start)
  | _ => none

def Event.scanApplied : Event → Option (Nat × Nat × Nat)
  | .batchApplied attempt first last => some (attempt, first, last)
  | _ => none

def Event.scanLost : Event → Option Nat
  | .batchLost attempt => some attempt
  | _ => none

/-- The batch a task has in hand. -/
def Task.inHand : Task → List Item
  | .batchApply _ attempt first cursor => [.span attempt first cursor.position]
  | _ => []

/-- Scans as worker traffic. -/
def scanView : StreamView where
  frameItem := Frame.scanItem
  requestItem := Request.scanItem
  workerItem worker _ := worker.map ScanWorker.item
  next attempts _ := attempts
  requested := Event.scanRequest
  applied := Event.scanApplied
  lost := Event.scanLost
  inHand := Task.inHand
  silent event quiet := by
    cases event <;> first | exact ⟨rfl, rfl, rfl⟩ | cases quiet
  plain request opens := by cases request <;> first | rfl | cases opens
  opens request item h := by
    cases request <;> cases h
    trivial

/-- Only the reader's first section on a scan batch leaves a batch in hand. -/
theorem Task.Next.inHand {task task' : Task} (next : task.Next task') : task'.inHand = [] := by
  cases next
  all_goals first | rfl | cases ‹Continuation› <;> rfl | cases ‹Bool› <;> rfl

variable {task : Task}

/-! ## Sections with scan traffic -/

variable (volume : Volume) (e : Nat)

theorem Core.scanStep_sendStartVolumeScan (cursor : ScanCursor) (delivered : Bool)
    (hand : List Item) (c : Core) :
    ClientStep false volume.recordCount (c.client scanView hand)
      ((c.sendStartVolumeScan cursor delivered).client scanView hand) := by
  refine step_sendRequest delivered hand rfl ?_
  simp [client, stream, scanView, List.filterMap_cons, Event.scanRequest,
    Event.scanApplied, Event.scanLost]

/-- Opening the journal is no scan traffic. -/
theorem Core.scanClient_openJournal (position : ResumePosition) (ret : Continuation) (env : Env)
    (hand : List Item) (c : Core) :
    (c.openJournal e position ret env).1.client scanView hand = c.client scanView hand := by
  unfold openJournal
  split
  · rfl
  · exact (client_sendRequest rfl _ hand _).trans (client_record rfl rfl rfl hand _)

/-- A section of any procedure but `ApplyScanBatch` is a step of the client, with
the reader's batch still in hand. -/
theorem Task.scanStep_run (other : task.inHand = []) (env : Env) (hand : List Item) (c : Core) :
    ClientStep false volume.recordCount (c.client scanView hand)
      ((task.run env c).1.client scanView hand) := by
  cases quiet : task.communicates with
  | false =>
    rw [((task.footprint_run env c).traffic quiet).client]
    exact .stay
  | true =>
    cases task with
    | startSend _ _ _ | triggerSend _ _ => exact c.scanStep_sendStartVolumeScan volume _ _ hand
    | dropConnection ret => exact Core.step_disconnect hand c
    | batchApply e a first cursor => cases other
    | openJournal e usn ret =>
      simp only [Task.run]
      rw [Core.scanClient_openJournal]
      exact .stay
    | journalApply e j o first latest =>
      simp only [Task.run, Core.journalApply]
      split <;> exact .stay
    | _ => cases quiet

/-- The answer of the store to the batch in hand. -/
theorem Core.scanStep_batchApply (a first : Nat) (cursor : ScanCursor) (env : Env) (c : Core) :
    ClientStep false volume.recordCount (c.client scanView [.span a first cursor.position])
      ((c.batchApply e a first cursor env).1.client scanView []) := by
  unfold batchApply
  split
  · exact .apply rfl
  · exact .lose rfl

/-! ## Frames -/

variable {frame : Frame} {e : Nat}

/-- The reader's first section on a frame that is not a scan batch. -/
theorem Frame.scanClient_receive
    (other : ∀ a first cursor, frame ≠ .scanRecordBatch a first cursor) (env : Env) (e : Nat)
    (c : Core) : (frame.receive env e c).1.client scanView [] = c.client scanView [] := by
  cases quiet : frame.communicates with
  | false => exact ((frame.footprint_receive env e c).traffic quiet).client []
  | true =>
    cases frame with
    | scanRecordBatch a first cursor => exact absurd rfl (other a first cursor)
    | volumeList listed => exact (c.receiveVolumeList_notifies e listed env).client []
    | journalRecordBatch o first latest =>
      simp only [Frame.receive, receiveJournalBatch]
      (repeat' split) <;> rfl
    | _ => cases quiet

theorem Frame.First.inHand (first : frame.First e task)
    (other : ∀ a first cursor, frame ≠ .scanRecordBatch a first cursor) : task.inHand = [] := by
  cases first with
  | scanRecordBatch a first cursor => exact absurd rfl (other a first cursor)
  | _ => rfl

variable {c core : Core}

/-- **The first section on a frame is a step of the client.** -/
theorem Frame.scanStep_receive (taken : c.takeFrame = some (e, frame, core)) (env : Env) :
    ClientStep false volume.recordCount (c.client scanView [])
      ((frame.receive env e core).1.client scanView (frame.receive env e core).2.inHand) := by
  rw [client_takeFrame taken]
  by_cases batch : ∃ a first cursor, frame = .scanRecordBatch a first cursor
  · obtain ⟨a, first, cursor, rfl⟩ := batch
    simp only [Frame.receive, receiveScanBatch]
    repeat' split
    iterate 3 exact .lose rfl
    · exact .stay
  · have other : ∀ a first cursor, frame ≠ .scanRecordBatch a first cursor :=
      fun a first cursor h => batch ⟨a, first, cursor, h⟩
    rw [(frame.receive_first env e core).inHand other, Frame.scanClient_receive other]
    cases frame with
    | scanRecordBatch a first cursor => exact absurd rfl (other a first cursor)
    | scanAttemptStarted a => exact .readMarker rfl
    | scanComplete _ | scanFailed _ => exact .readTerminal rfl trivial
    | _ => exact .stay

/-! ## The service's moves -/

attribute [local simp] ServiceConnection.stream scanView Frame.scanItem Request.scanItem
  ScanWorker.item List.filterMap_cons

variable {volume : Volume} {service : ServiceConnection}

theorem Core.scanServed_serveRequest {request : Request} {requests : List Request}
    (hs : c.service = some service) (hr : service.requests = request :: requests) (env : Env)
    (hand : List Item) :
    Served false volume.recordCount (c.client scanView hand)
      ((c.serveRequest env { service with requests } request).client scanView hand) := by
  cases request with
  | startVolumeScan a cursor =>
    simp only [serveRequest]
    cases hw : service.scanWorker with
    | none =>
      split
      · exact served_withService hs (.startMarked a cursor.start) requests
          (by simp [hw, hr]) (by simp) hand
      · exact served_withService hs (.start a cursor.start rfl) requests
          (by simp [hw, hr]) (by simp) hand
    | some worker =>
      split
      · exact served_withService hs
          (.supersedeMarked worker.attempt worker.position a cursor.start) requests
          (by simp [hw, hr]) (by simp) hand
      · exact served_withService hs
          (.supersede worker.attempt worker.position a cursor.start rfl) requests
          (by simp [hw, hr]) (by simp) hand
  | stopVolumeScan =>
    cases hw : service.scanWorker with
    | none => exact .inl (client_withService hs (by simp [hw, hr]) hand)
    | some worker =>
      exact served_withService hs (.halt worker.attempt worker.position) requests
        (by simp [hw, hr]) (by simp) hand
  | enumerateVolumes | closeUsnJournal =>
    exact .inl (client_withService hs (by simp [hr]) hand)
  | openUsnJournal o usn =>
    simp only [serveRequest]
    split
    · rw [client_record rfl rfl rfl]
      exact .inl (client_withService hs (by simp [hr]) hand)
    · exact .inl (client_withService hs (by simp [hr]) hand)

variable {a : Action} {s : VolumeState}

theorem ServiceMove.scanServed (hs : c.service = some service)
    (move : ServiceMove volume c service a core) (hand : List Item) :
    Served false volume.recordCount (c.client scanView hand) (core.client scanView hand) := by
  cases move with
  | serve env hr => exact scanServed_serveRequest hs hr env hand
  | @scanBatch worker last _ hw bounds =>
    exact served_withService hs (.span worker.attempt worker.position last bounds.1)
      service.requests (by simp [hw]) (by simp) hand
  | @scanComplete worker hw ended =>
    exact served_withService hs (.finish worker.attempt) service.requests
      (by simp [hw, ended]) (by simp) hand
  | @scanFailed worker hw =>
    exact served_withService hs (.fail worker.attempt worker.position) service.requests
      (by simp [hw]) (by simp) hand
  | journalBatch _ _ =>
    rw [client_record rfl rfl rfl]
    exact .inl (client_withService hs (by simp) hand)
  | journalStop invalid _ _ =>
    refine .inl (client_withService hs ?_ hand)
    cases invalid <;> simp

/-- A move that leaves the threads alone is a move of the server, or none. -/
theorem CoreMove.scanServed {core : Core} (move : CoreMove volume s a core) (hand : List Item) :
    Served false volume.recordCount (s.core.client scanView hand) (core.client scanView hand) := by
  cases own : a.service with
  | true =>
    obtain ⟨service, hs, move⟩ := move.serviceMove own
    exact move.scanServed hs hand
  | false => exact .inl (CoreMove.client rfl move own hand)

/-! ## The refinement -/

theorem scanView_refined (volume : Volume) :
    scanView.Refined volume false volume.recordCount where
  reader task held := by
    cases task with
    | batchApply e a first cursor => rfl
    | _ => exact absurd rfl held
  rest _ _ next := next.inHand
  started _ _ _ started := by cases started <;> rfl
  run _ other env hand c := Task.scanStep_run volume other env hand c
  answer task held env c := by
    cases task with
    | batchApply e a first cursor => exact c.scanStep_batchApply volume e a first cursor env
    | _ => exact absurd rfl held
  receive _ _ _ _ taken env := Frame.scanStep_receive volume taken env
  served _ _ _ move hand := move.scanServed hand

/-- **Every move of the system is a step of the client of the scan stream.** -/
theorem Moved.scanStep {s' : VolumeState} (owned : s.Owned) (moved : Moved volume s a s') :
    ClientStep false volume.recordCount (s.client scanView) (s'.client scanView) :=
  (scanView_refined volume).step owned moved

end FastFiles.Manager
