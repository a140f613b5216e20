import FastFiles.Foundations.Transition
import FastFiles.Service.JournalReader

/-!
# The service connection

`RunCtrlConnection` with its worker threads: the control loop, any number of scan and
journal workers, the shared write lock and the `transportFailed` flag.

A write holds the lock from the test of the flag to its update, so a write is one step
here; its outcome is chosen by the environment.  The `VolumeList` reply is the one write
that tests the flag and does not set it.  Joining a worker is a step that is enabled only
when the worker's thread has ended.

`log` and `started` are history: what was put on the pipe and answered by the volumes,
and how many scan workers each volume has had.  No step reads them, except that a new
worker takes its number from `started`.
-/

namespace FastFiles.Service

open Protocol

/-! ## History -/

/-- How much of a frame reached the pipe. -/
inductive WriteOutcome
  | complete
  | truncated
  | nothing
deriving DecidableEq

/-- What a scan worker does that can be observed. -/
inductive ScanEvent
  | replied (reference : UInt64) (reply : EnumReply)
  /-- The record is put into the batch. -/
  | took (record : MftRecordV2)
  | wrote (frame : ScanFrame) (outcome : WriteOutcome)
deriving DecidableEq

/-- A frame of the control loop. -/
inductive ControlFrame
  | handshakeAck
  | handshakeReject
  | incompatibleVersion
  | volumeList
  | heartbeatAck
deriving DecidableEq

inductive Event
  | control (frame : ControlFrame) (outcome : WriteOutcome)
  /-- `ScanAttemptStarted`. -/
  | marker (volumeId : VolumeId) (outcome : WriteOutcome)
  | scan (volumeId : VolumeId) (serial : Nat) (event : ScanEvent)
  | journal (volumeId : VolumeId) (frame : JournalFrame) (outcome : WriteOutcome)
deriving DecidableEq

/-- The outcome of the write an event records. -/
def Event.outcome : Event → Option WriteOutcome
  | control _ outcome | marker _ outcome | journal _ _ outcome => some outcome
  | scan _ _ (.wrote _ outcome) => some outcome
  | scan _ _ _ => none

/-! ## Workers -/

/-- `ActiveWorker`; `thread` is `none` when there is no thread to wait for. -/
structure Worker (τ : Type) where
  volumeId : VolumeId
  stopFlag : Bool
  thread : Option τ
deriving DecidableEq

/-- A scan thread, with the number of its worker among those of its volume. -/
structure ScanThread where
  serial : Nat
  task : ScanTask
deriving DecidableEq

section Workers

variable {τ : Type}

/-- The first half of `StopAndJoin`: the flag of the volume's worker is set. -/
def requestStop (volumeId : VolumeId) : List (Worker τ) → List (Worker τ)
  | [] => []
  | worker :: workers =>
    if worker.volumeId = volumeId then { worker with stopFlag := true } :: workers
    else worker :: requestStop volumeId workers

/-- The second half: the worker is erased once its thread has ended; `none` while the join
waits. -/
def join (volumeId : VolumeId) : List (Worker τ) → Option (List (Worker τ))
  | [] => some []
  | worker :: workers =>
    if worker.volumeId = volumeId then if worker.thread.isNone then some workers else none
    else (join volumeId workers).map (worker :: ·)

def requestStopAll (workers : List (Worker τ)) : List (Worker τ) :=
  workers.map fun worker => { worker with stopFlag := true }

def allEnded (workers : List (Worker τ)) : Bool :=
  workers.all fun worker => worker.thread.isNone

end Workers

def ScanRunResult.requiresConnectionAbort : ScanRunResult → Bool
  | transportFailed | failureAbortedConnection => true
  | _ => false

/-! ## The connection -/

inductive Request
  | enumerateVolumes
  | startVolumeScan (volumeId : VolumeId) (resumeCursor : List UInt8)
  | stopVolumeScan (volumeId : VolumeId)
  | openUsnJournal (volumeId : VolumeId) (resumeUsn : UInt64)
  | closeUsnJournal (volumeId : VolumeId)
  | heartbeat
  /-- A frame that is answered by closing the connection: not on the allowlist, malformed, an
  unknown volume, refused by the registry, or a client that fails revalidation. -/
  | refused
deriving DecidableEq

/-- Where the control thread stands. -/
inductive Control
  | handshaking
  /-- The head of the loop. -/
  | reading
  | listingVolumes
  /-- `StopAndJoin`, for a replacement scan if a cursor is given. -/
  | joiningScan (volumeId : VolumeId) (replacement : Option (List UInt8))
  | markingScan (volumeId : VolumeId) (resumeCursor : List UInt8)
  | spawningScan (volumeId : VolumeId) (resumeCursor : List UInt8)
  | joiningJournal (volumeId : VolumeId) (replacement : Option UInt64)
  | spawningJournal (volumeId : VolumeId) (resumeUsn : UInt64)
  | acknowledging
  | tearingDown
  | joiningScans
  | joiningJournals
  | closed
deriving DecidableEq

structure Connection where
  control : Control
  activeScans : List (Worker ScanThread)
  activeJournals : List (Worker JournalTask)
  transportFailed : Bool
  log : List Event
  started : VolumeId → Nat

namespace Connection

def start : Connection where
  control := .handshaking
  activeScans := []
  activeJournals := []
  transportFailed := false
  log := []
  started := fun _ => 0

variable (negotiated : ProtocolVersion) (c : Connection)

variable (event : WriteOutcome → Event) (outcome : WriteOutcome)

/-- Whether a write with the flag succeeds. -/
def written : Bool :=
  !c.transportFailed && outcome = .complete

/-- `WriteFrameWithDeadline` with the flag: nothing is written when it is set, and a failed
write sets it. -/
def write : Connection :=
  if c.transportFailed then { c with log := c.log ++ [event .nothing] }
  else { c with log := c.log ++ [event outcome], transportFailed := outcome ≠ .complete }

/-- A write without the flag. -/
def writeUnflagged : Connection :=
  { c with log := c.log ++ [event outcome] }

/-! ### The control loop -/

inductive HandshakeReply
  | silent
  | incompatible
  | rejected
  | accepted
deriving DecidableEq

inductive ControlAction
  | handshake (reply : HandshakeReply) (outcome : WriteOutcome)
  /-- The next frame, or `none` when the read fails or times out. -/
  | receive (request : Option Request)
  | proceed (outcome : WriteOutcome) (spawned : Bool)
  /-- An exception escapes the loop. -/
  | throws
deriving DecidableEq

/-- `PerformHandshake`: anything but a written acknowledgement ends the connection. -/
def handshake (reply : HandshakeReply) (outcome : WriteOutcome) : Connection :=
  match reply with
  | .silent => { c with control := .closed }
  | .incompatible =>
    { c.writeUnflagged (.control .incompatibleVersion) outcome with control := .closed }
  | .rejected => { c.writeUnflagged (.control .handshakeReject) outcome with control := .closed }
  | .accepted =>
    { c.writeUnflagged (.control .handshakeAck) outcome with
      control := if outcome = .complete then .reading else .closed }

def dispatch : Request → Connection
  | .enumerateVolumes => { c with control := .listingVolumes }
  | .startVolumeScan volumeId cursor =>
    { c with activeScans := requestStop volumeId c.activeScans
             control := .joiningScan volumeId (some cursor) }
  | .stopVolumeScan volumeId =>
    { c with activeScans := requestStop volumeId c.activeScans
             control := .joiningScan volumeId none }
  | .openUsnJournal volumeId resumeUsn =>
    { c with activeJournals := requestStop volumeId c.activeJournals
             control := .joiningJournal volumeId (some resumeUsn) }
  | .closeUsnJournal volumeId =>
    { c with activeJournals := requestStop volumeId c.activeJournals
             control := .joiningJournal volumeId none }
  | .heartbeat => { c with control := .acknowledging }
  | .refused => { c with control := .tearingDown }

/-- The loop head looks at the flag before and after the read. -/
def receive (request : Option Request) : Connection :=
  match request with
  | some request => if c.transportFailed then { c with control := .tearingDown } else c.dispatch request
  | none => { c with control := .tearingDown }

/-- `SendVolumeList`, under the lock. -/
def listVolumes : Connection :=
  if c.transportFailed then { c with control := .tearingDown }
  else
    { c.writeUnflagged (.control .volumeList) outcome with
      control := if outcome = .complete then .reading else .tearingDown }

variable (volumeId : VolumeId) (cursor : List UInt8)

/-- `ApplyScanAttemptBarrier` asks for the marker only of a peer that knows it. -/
def afterJoin :
    Option (List UInt8) → Control
  | none => .reading
  | some cursor =>
    if negotiated.supportsScanAttemptStarted then .markingScan volumeId cursor
    else .spawningScan volumeId cursor

def markScan (outcome : WriteOutcome) : Connection :=
  { c.write (.marker volumeId) outcome with
    control := if c.written outcome then .spawningScan volumeId cursor else .tearingDown }

/-- The slot is registered before its thread starts; a thread that cannot be started is an
exception. -/
def spawnScan (spawned : Bool) : Connection :=
  { c with
    activeScans := c.activeScans ++
      [⟨volumeId, false, if spawned then some ⟨c.started volumeId, .begin cursor⟩ else none⟩]
    started := Function.update c.started volumeId (c.started volumeId + 1)
    control := if spawned then .reading else .tearingDown }

def spawnJournal (resumeUsn : UInt64) (spawned : Bool) : Connection :=
  { c with
    activeJournals := c.activeJournals ++
      [⟨volumeId, false, if spawned then some (.opening resumeUsn) else none⟩]
    control := if spawned then .reading else .tearingDown }

def acknowledge : Connection :=
  if c.transportFailed then { c with control := .tearingDown }
  else
    { c.write (.control .heartbeatAck) outcome with
      control := if c.written outcome then .reading else .tearingDown }

/-- The control thread goes on from where it stands. -/
def proceed (spawned : Bool) : Option Connection :=
  match c.control with
  | .listingVolumes => some (c.listVolumes outcome)
  | .joiningScan volumeId replacement =>
    (join volumeId c.activeScans).map fun scans =>
      { c with activeScans := scans, control := afterJoin negotiated volumeId replacement }
  | .markingScan volumeId cursor => some (c.markScan volumeId cursor outcome)
  | .spawningScan volumeId cursor => some (c.spawnScan volumeId cursor spawned)
  | .joiningJournal volumeId replacement =>
    (join volumeId c.activeJournals).map fun journals =>
      { c with
        activeJournals := journals
        control := match replacement with
          | none => .reading
          | some resumeUsn => .spawningJournal volumeId resumeUsn }
  | .spawningJournal volumeId resumeUsn => some (c.spawnJournal volumeId resumeUsn spawned)
  | .acknowledging => some (c.acknowledge outcome)
  | .tearingDown =>
    some { c with activeScans := requestStopAll c.activeScans, control := .joiningScans }
  | .joiningScans =>
    if allEnded c.activeScans then
      some { c with activeScans := [], activeJournals := requestStopAll c.activeJournals
                    control := .joiningJournals }
    else none
  | .joiningJournals =>
    if allEnded c.activeJournals then some { c with activeJournals := [], control := .closed }
    else none
  | .handshaking | .reading | .closed => none

/-- The points from which an exception leads to the ordered teardown. -/
def Control.inLoop : Control → Bool
  | .handshaking | .tearingDown | .joiningScans | .joiningJournals | .closed => false
  | _ => true

def controlStep : ControlAction → Option Connection
  | .handshake reply outcome =>
    if c.control = .handshaking then some (c.handshake reply outcome) else none
  | .receive request => if c.control = .reading then some (c.receive request) else none
  | .proceed outcome spawned => c.proceed negotiated outcome spawned
  | .throws => if Control.inLoop c.control then some { c with control := .tearingDown } else none

/-! ### Scan workers -/

/-- What the surroundings answer to a move of a scan worker. -/
structure ScanMove where
  opened : Bool
  outcome : WriteOutcome
  volume : Volume

def scanEnv (worker : Worker ScanThread) (move : ScanMove) : ScanEnv where
  shouldStop := worker.stopFlag
  opened := move.opened
  written := c.written move.outcome
  volume := move.volume

end Connection

/-- What a move without a frame does that can be observed. -/
def ScanTask.observed (env : ScanEnv) : ScanTask → Option ScanEvent
  | .enumerating l =>
    if l.enumerationEnded || env.shouldStop || l.writeFailed then none
    else some (.replied l.nextFileReference (env.volume.enumerate l.nextFileReference))
  | .consuming l buffer =>
    if env.shouldStop || l.writeFailed then none
    else (nextEntry buffer.rest).bind fun (frn, _) =>
        (env.volume.read frn).map fun parsed => .took (mftRecord frn parsed)
  | _ => none

theorem ScanTask.observed_cases {env : ScanEnv} {task : ScanTask} {event : ScanEvent}
    (observed : task.observed env = some event) :
    (∃ reference reply, event = .replied reference reply) ∨ ∃ record, event = .took record := by
  cases task with
  | enumerating l =>
    obtain ⟨-, same⟩ := Option.ite_none_left_eq_some.mp observed
    exact .inl ⟨_, _, (Option.some.inj same).symm⟩
  | consuming l buffer =>
    obtain ⟨-, found⟩ := Option.ite_none_left_eq_some.mp observed
    obtain ⟨⟨frn, rest⟩, -, taken⟩ := Option.bind_eq_some_iff.mp found
    obtain ⟨parsed, -, rfl⟩ := Option.map_eq_some_iff.mp taken
    exact .inr ⟨_, rfl⟩
  | _ => cases observed

namespace Connection

variable (negotiated : ProtocolVersion) (c : Connection) (index : Nat)

/-- The history after a move of a scan worker. -/
def scanRecorded (worker : Worker ScanThread) (thread : ScanThread) (move : ScanMove) :
    Connection :=
  match thread.task.frame with
  | some frame =>
    c.write (fun outcome => .scan worker.volumeId thread.serial (.wrote frame outcome)) move.outcome
  | none =>
    { c with
      log := c.log ++ (thread.task.observed (c.scanEnv worker move)).toList.map
        (.scan worker.volumeId thread.serial) }

/-- One move of a scan thread, inside `RunScanWorkerBoundary`: a result that requires it sets
the flag, and the thread ends. -/
def scanStep (move : ScanMove) : Option Connection :=
  match c.activeScans[index]? with
  | some worker =>
    match worker.thread with
    | some ⟨_, .done result⟩ =>
      some { c with
        activeScans := c.activeScans.set index { worker with thread := none }
        transportFailed := c.transportFailed || result.requiresConnectionAbort }
    | some thread =>
      let task := thread.task.next negotiated (c.scanEnv worker move)
      some { c.scanRecorded worker thread move with
        activeScans := c.activeScans.set index
          { worker with thread := some { thread with task := task } } }
    | none => none
  | none => none

/-- An exception in a scan thread. -/
def scanThrows : Option Connection :=
  match c.activeScans[index]? with
  | some worker =>
    if worker.thread.isSome then
      some { c with
        activeScans := c.activeScans.set index { worker with thread := none }
        transportFailed := true }
    else none
  | none => none

/-! ### Journal workers -/

structure JournalMove where
  journal : Option (UInt64 × UInt64)
  measured : Bool
  read : JournalRead
  outcome : WriteOutcome
  volume : Volume

def journalEnv (worker : Worker JournalTask) (move : JournalMove) : JournalEnv where
  shouldStop := worker.stopFlag
  journal := move.journal
  measured := move.measured
  read := move.read
  written := c.written move.outcome
  volume := move.volume

def journalRecorded (worker : Worker JournalTask) (task : JournalTask) (move : JournalMove) :
    Connection :=
  match task.frame with
  | some frame => c.write (.journal worker.volumeId frame) move.outcome
  | none => c

def journalStep (move : JournalMove) : Option Connection :=
  match c.activeJournals[index]? with
  | some worker =>
    match worker.thread with
    | some .done =>
      some { c with
        activeJournals := c.activeJournals.set index { worker with thread := none } }
    | some task =>
      some { c.journalRecorded worker task move with
        activeJournals := c.activeJournals.set index
          { worker with thread := some (task.next negotiated (c.journalEnv worker move)) } }
    | none => none
  | none => none

/-- An exception ends the journal thread silently. -/
def journalThrows : Option Connection :=
  match c.activeJournals[index]? with
  | some worker =>
    if worker.thread.isSome then
      some { c with
        activeJournals := c.activeJournals.set index { worker with thread := none } }
    else none
  | none => none

/-! ### Steps -/

inductive Action
  | control (action : ControlAction)
  | scan (index : Nat) (move : ScanMove)
  | scanThrows (index : Nat)
  | journal (index : Nat) (move : JournalMove)
  | journalThrows (index : Nat)

def step : Action → Option Connection
  | .control action => c.controlStep negotiated action
  | .scan index move => c.scanStep negotiated index move
  | .scanThrows index => c.scanThrows index
  | .journal index move => c.journalStep negotiated index move
  | .journalThrows index => c.journalThrows index

/-! ### What the steps of workers do -/

variable {negotiated : ProtocolVersion} {c c' : Connection} {index : Nat}

theorem scanStep_cases {move : ScanMove} (moved : c.scanStep negotiated index move = some c') :
    ∃ worker thread, c.activeScans[index]? = some worker ∧ worker.thread = some thread ∧
      ((∃ result, thread.task = .done result ∧
          c' = { c with
            activeScans := c.activeScans.set index { worker with thread := none }
            transportFailed := c.transportFailed || result.requiresConnectionAbort }) ∨
        (∀ result, thread.task ≠ .done result) ∧
          c' = { c.scanRecorded worker thread move with
            activeScans := c.activeScans.set index
              { worker with thread := some { thread with
                  task := thread.task.next negotiated (c.scanEnv worker move) } } }) := by
  unfold scanStep at moved
  split at moved
  case h_2 => cases moved
  case h_1 worker found =>
    split at moved
    case h_1 serial result running =>
      cases moved
      exact ⟨worker, _, found, running, .inl ⟨result, rfl, rfl⟩⟩
    case h_2 thread unfinished running =>
      cases moved
      refine ⟨worker, thread, found, running, .inr ⟨fun result same => ?_, rfl⟩⟩
      exact unfinished thread.serial result (by rw [← same])
    case h_3 => cases moved

theorem scanThrows_cases (moved : c.scanThrows index = some c') :
    ∃ worker, c.activeScans[index]? = some worker ∧
      c' = { c with
        activeScans := c.activeScans.set index { worker with thread := none }
        transportFailed := true } := by
  unfold scanThrows at moved
  split at moved
  case h_2 => cases moved
  case h_1 worker found =>
    obtain ⟨-, same⟩ := Option.ite_none_right_eq_some.mp moved
    exact ⟨worker, found, (Option.some.inj same).symm⟩

theorem journalStep_cases {move : JournalMove}
    (moved : c.journalStep negotiated index move = some c') :
    ∃ worker task, c.activeJournals[index]? = some worker ∧ worker.thread = some task ∧
      (c' = { c with
          activeJournals := c.activeJournals.set index { worker with thread := none } } ∨
        c' = { c.journalRecorded worker task move with
          activeJournals := c.activeJournals.set index
            { worker with thread := some (task.next negotiated (c.journalEnv worker move)) } }) := by
  unfold journalStep at moved
  split at moved
  case h_2 => cases moved
  case h_1 worker found =>
    split at moved
    case h_1 running =>
      cases moved
      exact ⟨worker, _, found, running, .inl rfl⟩
    case h_2 task _ running =>
      cases moved
      exact ⟨worker, task, found, running, .inr rfl⟩
    case h_3 => cases moved

theorem journalThrows_cases (moved : c.journalThrows index = some c') :
    ∃ worker, c.activeJournals[index]? = some worker ∧
      c' = { c with
        activeJournals := c.activeJournals.set index { worker with thread := none } } := by
  unfold journalThrows at moved
  split at moved
  case h_2 => cases moved
  case h_1 worker found =>
    obtain ⟨-, same⟩ := Option.ite_none_right_eq_some.mp moved
    exact ⟨worker, found, (Option.some.inj same).symm⟩

/-- Writing does not touch the workers or the control thread. -/
theorem write_frame (c : Connection) (event : WriteOutcome → Event) (outcome : WriteOutcome) :
    (c.write event outcome).control = c.control ∧
      (c.write event outcome).activeScans = c.activeScans ∧
      (c.write event outcome).started = c.started := by
  unfold write
  split_ifs <;> exact ⟨rfl, rfl, rfl⟩

/-- What a write under the flag puts into the history. -/
theorem write_log (c : Connection) (event : WriteOutcome → Event) (outcome : WriteOutcome) :
    (c.write event outcome).log =
      c.log ++ [event (if c.transportFailed then .nothing else outcome)] := by
  unfold write
  split_ifs <;> rfl

theorem scanRecorded_frame (worker : Worker ScanThread) (thread : ScanThread) (move : ScanMove) :
    (c.scanRecorded worker thread move).control = c.control ∧
      (c.scanRecorded worker thread move).started = c.started := by
  unfold scanRecorded
  cases thread.task.frame with
  | some frame =>
    obtain ⟨control, -, started⟩ := write_frame c (fun outcome =>
      .scan worker.volumeId thread.serial (.wrote frame outcome)) move.outcome
    exact ⟨control, started⟩
  | none => exact ⟨rfl, rfl⟩

theorem journalRecorded_frame (worker : Worker JournalTask) (task : JournalTask)
    (move : JournalMove) :
    (c.journalRecorded worker task move).control = c.control ∧
      (c.journalRecorded worker task move).activeScans = c.activeScans ∧
      (c.journalRecorded worker task move).started = c.started := by
  unfold journalRecorded
  cases task.frame with
  | some frame => exact write_frame c (.journal worker.volumeId frame) move.outcome
  | none => exact ⟨rfl, rfl, rfl⟩

end Connection

end FastFiles.Service
