import FastFiles.Manager.Handlers

/-!
# The manager, its connection and the service as one transition system

`step` interleaves the sections of the manager's procedures with the service's
own moves and with what the rest of the process and the volume do.  Two threads
are exclusive by construction: the reader takes the next frame only when its
previous handler has ended, and the scheduler starts a new round only when it is
idle.  A new connection becomes Active only when the reader and the lifecycle
thread of the old one are done and the sessions are gone: the lifecycle thread
joins the reader before it connects again, and then passes through states that are
not Active, each of which clears the sessions.
-/

namespace FastFiles.Manager

open FastFiles.Transition

/-- What is fixed throughout a run. -/
structure Volume where
  /-- The number of records a full enumeration delivers. -/
  recordCount : Nat

/-- The moves of the system. -/
inductive Action
  /-- A thread runs its next section. -/
  | run (thread : ThreadId) (env : Env)
  /-- The reader takes the next frame. -/
  | deliver (env : Env)
  /-- `ReloadConfiguration`, with the volume's entry in the new settings. -/
  | reloadConfiguration (entry : Option Bool) (env : Env)
  /-- The critical section of `SetIndexingPaused`. -/
  | setIndexingPaused (paused : Bool)
  /-- `ResumeAffectedSessions` calls `StartOrResumeVolume` for a session it saw. -/
  | resume (thread : Nat) (ephemeralId : Nat)
  /-- A stop request of an earlier teardown reaches the connection late. -/
  | lateStop
  /-- The connection is lost. -/
  | connectionLost
  /-- A new connection becomes Active. -/
  | connectionActive (ephemeralId : Nat) (supports : Bool) (env : Env)
  | schedulerTake (env : Env)
  | schedulerSweep (env : Env)
  | schedulerPostpone (env : Env)
  /-- The service's control loop handles the next request. -/
  | serve (env : Env)
  /-- The scan worker writes a batch that ends at position `last`. -/
  | scanBatch (last lengthBytes : Nat)
  | scanComplete
  | scanFailed
  /-- The journal worker writes a batch that ends with record `latestUsn`. -/
  | journalBatch (latestUsn : Nat)
  | journalInvalid
  | journalEnded
  /-- The volume changes. -/
  | journalGrow (amount : Nat)
  | journalRecreate (journal : Journal)

namespace Core

/-- `ReloadConfiguration`. -/
def reloadConfiguration (entry : Option Bool) (env : Env) (c : Core) : Core :=
  let c := { c with configured := entry }
  let c := match c.owners.session with
    | some session => if entry = some true then c else c.retireSession session env
    | none => c
  if c.active then c.sendRequest .enumerateVolumes env.delivered else c

/-- `OnConnectionStateChanged(Active)` on a fresh connection. -/
def connectionActive (ephemeralId : Nat) (supports : Bool) (env : Env) (c : Core) : Core :=
  let wasActive := c.active
  let c := { c with
    active := true
    supportsScanAttemptStarted := supports
    service := some
      { ephemeralId
        requests := []
        frames := []
        scanWorker := none
        journalWorker := none } }
  if wasActive then c else c.sendRequest .enumerateVolumes env.delivered

/-- Replace the connection. -/
def withService (service : ServiceConnection) (c : Core) : Core :=
  { c with service := some service }

/-- The service's control loop on one request. -/
def serveRequest (env : Env) (service : ServiceConnection) (c : Core) : Request → Core
  | .enumerateVolumes =>
    c.withService { service with frames := service.frames ++ [.volumeList env.ok] }
  | .startVolumeScan attempt cursor =>
    -- the superseded worker is joined before the marker is written
    c.withService { service with
      scanWorker := some { attempt, position := cursor.start }
      frames := service.frames ++
        if c.supportsScanAttemptStarted then [.scanAttemptStarted attempt] else [] }
  | .stopVolumeScan => c.withService { service with scanWorker := none }
  | .openUsnJournal opening resumeUsn =>
    if env.ok then
      (c.withService { service with
        journalWorker := some { opening, journalId := c.journal.id, position := resumeUsn }
        frames := service.frames ++
          [.usnJournalOpened opening c.journal.id c.journal.nextUsn] }).record
        (.journalStarted opening c.journal.id)
    else c.withService { service with journalWorker := none }
  | .closeUsnJournal => c.withService { service with journalWorker := none }

/-- The control loop takes the oldest request. -/
def serve (env : Env) (c : Core) : Option Core :=
  match c.service with
  | none => none
  | some service =>
    match service.requests with
    | [] => none
    | request :: requests =>
      some (c.serveRequest env { service with requests } request)

/-- The scan worker writes the records from its position up to `last`. -/
def scanBatch (volume : Volume) (last lengthBytes : Nat) (c : Core) : Option Core :=
  match c.service with
  | none => none
  | some service =>
    match service.scanWorker with
    | none => none
    | some worker =>
      if worker.position ≤ last ∧ last ≤ volume.recordCount ∧ 0 < lengthBytes then
        some (c.withService { service with
          scanWorker := some { worker with position := last }
          frames := service.frames ++
            [.scanRecordBatch worker.attempt worker.position
              { position := last, lengthBytes }] })
      else none

/-- The scan worker has reached the end of the volume. -/
def scanComplete (volume : Volume) (c : Core) : Option Core :=
  match c.service with
  | none => none
  | some service =>
    match service.scanWorker with
    | none => none
    | some worker =>
      if worker.position = volume.recordCount then
        some (c.withService { service with
          scanWorker := none
          frames := service.frames ++ [.scanComplete worker.attempt] })
      else none

/-- The scan worker cannot run to completion. -/
def scanFailed (c : Core) : Option Core :=
  match c.service with
  | none => none
  | some service =>
    match service.scanWorker with
    | none => none
    | some worker =>
      some (c.withService { service with
        scanWorker := none
        frames := service.frames ++ [.scanFailed worker.attempt] })

/-- The journal worker reads the records from its position up to `latestUsn`. -/
def journalBatch (latestUsn : Nat) (c : Core) : Option Core :=
  match c.service with
  | none => none
  | some service =>
    match service.journalWorker with
    | none => none
    | some worker =>
      if worker.journalId = c.journal.id ∧ worker.position ≤ latestUsn
          ∧ latestUsn < c.journal.nextUsn then
        some ((c.withService { service with
          journalWorker := some { worker with position := latestUsn + 1 }
          frames := service.frames ++
            [.journalRecordBatch worker.opening worker.position latestUsn] }).record
          (.journalRead worker.journalId worker.position latestUsn))
      else none

/-- The journal worker ends, with or without telling the engine why. -/
def journalStop (invalid : Bool) (c : Core) : Option Core :=
  match c.service with
  | none => none
  | some service =>
    match service.journalWorker with
    | none => none
    | some worker =>
      some (c.withService { service with
        journalWorker := none
        frames := service.frames ++
          if invalid then [.journalResumeInvalid worker.opening] else [] })

/-- The oldest frame, and the connection without it. -/
def takeFrame (c : Core) : Option (Nat × Frame × Core) :=
  match c.service with
  | none => none
  | some service =>
    match service.frames with
    | [] => none
    | frame :: frames =>
      some (service.ephemeralId, frame, c.withService { service with frames })

end Core

namespace VolumeState

/-- A thread ends its section with the next task. -/
def advance (thread : ThreadId) (result : Core × Task) (s : VolumeState) : VolumeState where
  core := result.1
  threads := Function.update s.threads thread result.2

/-- Replace the core, leaving every thread where it is. -/
def withCore (core : Core) (s : VolumeState) : VolumeState :=
  { s with core }

end VolumeState

/-- One move of the system; `none` when the move is not possible. -/
def step (volume : Volume) (s : VolumeState) : Action → Option VolumeState
  | .run thread env =>
    if s.threads thread = .idle then none
    else some (s.advance thread ((s.threads thread).run env s.core))
  | .deliver env =>
    if s.threads .reader = .idle then
      s.core.takeFrame.map fun (ephemeralId, frame, core) =>
        s.advance .reader (frame.receive env ephemeralId core)
    else none
  | .reloadConfiguration entry env => some (s.withCore (s.core.reloadConfiguration entry env))
  | .setIndexingPaused paused => some (s.withCore { s.core with paused })
  | .resume thread ephemeralId =>
    if s.threads (.control thread) = .idle then
      some (s.advance (.control thread) (s.core, .startGate ephemeralId .finish))
    else none
  | .lateStop => some (s.withCore (s.core.sendRequest .stopVolumeScan true))
  | .connectionLost =>
    if s.threads .lifecycle = .idle then
      some (s.advance .lifecycle (s.core, .dropConnection .finish))
    else none
  | .connectionActive ephemeralId supports env =>
    if s.threads .reader = .idle ∧ s.threads .lifecycle = .idle ∧
        s.core.service = none ∧ s.core.owners.session = none then
      some (s.withCore (s.core.connectionActive ephemeralId supports env))
    else none
  | .schedulerTake env =>
    -- `active_` is tested before the locks are taken, so it may have changed since
    if s.threads .scheduler = .idle then (s.core.schedulerTake env).map (s.advance .scheduler)
    else none
  | .schedulerSweep env =>
    if s.threads .scheduler = .idle then (s.core.schedulerSweep env).map (s.advance .scheduler)
    else none
  | .schedulerPostpone env =>
    if s.core.active then none else some (s.withCore (s.core.schedulerPostpone env))
  | .serve env => (s.core.serve env).map s.withCore
  | .scanBatch last lengthBytes => (s.core.scanBatch volume last lengthBytes).map s.withCore
  | .scanComplete => (s.core.scanComplete volume).map s.withCore
  | .scanFailed => s.core.scanFailed.map s.withCore
  | .journalBatch latestUsn => (s.core.journalBatch latestUsn).map s.withCore
  | .journalInvalid => (s.core.journalStop true).map s.withCore
  | .journalEnded => (s.core.journalStop false).map s.withCore
  | .journalGrow amount =>
    some (s.withCore { s.core with
      journal := { s.core.journal with nextUsn := s.core.journal.nextUsn + amount } })
  | .journalRecreate journal =>
    -- the identifier is a creation time stamp
    if s.core.journal.id < journal.id then some (s.withCore { s.core with journal })
    else none

/-! ## What a move can be -/

/-- The moves that leave every thread where it is. -/
inductive CoreMove (volume : Volume) (s : VolumeState) : Action → Core → Prop
  | reloadConfiguration (entry : Option Bool) (env : Env) :
      CoreMove volume s (.reloadConfiguration entry env)
        (s.core.reloadConfiguration entry env)
  | setIndexingPaused (paused : Bool) :
      CoreMove volume s (.setIndexingPaused paused) { s.core with paused }
  | lateStop : CoreMove volume s .lateStop (s.core.sendRequest .stopVolumeScan true)
  | connectionActive (ephemeralId : Nat) (supports : Bool) (env : Env) :
      s.threads .reader = .idle → s.core.service = none → s.core.owners.session = none →
      CoreMove volume s (.connectionActive ephemeralId supports env)
        (s.core.connectionActive ephemeralId supports env)
  | schedulerPostpone (env : Env) : s.core.active = false →
      CoreMove volume s (.schedulerPostpone env) (s.core.schedulerPostpone env)
  | serve (env : Env) {core : Core} : s.core.serve env = some core →
      CoreMove volume s (.serve env) core
  | scanBatch (last lengthBytes : Nat) {core : Core} :
      s.core.scanBatch volume last lengthBytes = some core →
      CoreMove volume s (.scanBatch last lengthBytes) core
  | scanComplete {core : Core} : s.core.scanComplete volume = some core →
      CoreMove volume s .scanComplete core
  | scanFailed {core : Core} : s.core.scanFailed = some core →
      CoreMove volume s .scanFailed core
  | journalBatch (latestUsn : Nat) {core : Core} :
      s.core.journalBatch latestUsn = some core →
      CoreMove volume s (.journalBatch latestUsn) core
  | journalInvalid {core : Core} : s.core.journalStop true = some core →
      CoreMove volume s .journalInvalid core
  | journalEnded {core : Core} : s.core.journalStop false = some core →
      CoreMove volume s .journalEnded core
  | journalGrow (amount : Nat) :
      CoreMove volume s (.journalGrow amount) { s.core with
        journal := { s.core.journal with nextUsn := s.core.journal.nextUsn + amount } }
  | journalRecreate (journal : Journal) : s.core.journal.id < journal.id →
      CoreMove volume s (.journalRecreate journal) { s.core with journal }

/-- The moves by which an idle thread begins a procedure. -/
inductive Spawn (s : VolumeState) : Action → ThreadId → Core × Task → Prop
  | resume (thread ephemeralId : Nat) :
      Spawn s (.resume thread ephemeralId) (.control thread)
        (s.core, .startGate ephemeralId .finish)
  | connectionLost :
      Spawn s .connectionLost .lifecycle (s.core, .dropConnection .finish)
  | schedulerTake (env : Env) {result : Core × Task} :
      s.core.schedulerTake env = some result →
      Spawn s (.schedulerTake env) .scheduler result
  | schedulerSweep (env : Env) {result : Core × Task} :
      s.core.schedulerSweep env = some result →
      Spawn s (.schedulerSweep env) .scheduler result

/-- The moves, by what they do to the threads. -/
inductive Moved (volume : Volume) (s : VolumeState) : Action → VolumeState → Prop
  | run (t : ThreadId) (env : Env) : s.threads t ≠ .idle →
      Moved volume s (.run t env) (s.advance t ((s.threads t).run env s.core))
  | deliver (env : Env) {ephemeralId : Nat} {frame : Frame} {core : Core} :
      s.threads .reader = .idle → s.core.takeFrame = some (ephemeralId, frame, core) →
      Moved volume s (.deliver env) (s.advance .reader (frame.receive env ephemeralId core))
  | spawn {a : Action} {t : ThreadId} {result : Core × Task} : s.threads t = .idle →
      Spawn s a t result → Moved volume s a (s.advance t result)
  | core {a : Action} {core : Core} : CoreMove volume s a core →
      Moved volume s a (s.withCore core)

variable {volume : Volume} {s s' : VolumeState} {a : Action}

/-- **Inversion of a move.** -/
theorem step_moved (h : step volume s a = some s') : Moved volume s a s' := by
  cases a with
  | run t env =>
    rw [step, ite_eq_iff] at h
    obtain ⟨-, h⟩ | ⟨busy, h⟩ := h
    · cases h
    · cases h
      exact .run t env busy
  | deliver env =>
    rw [step] at h
    split at h
    · rename_i free
      obtain ⟨⟨e, frame, core⟩, taken, rfl⟩ := Option.map_eq_some_iff.mp h
      exact .deliver env free taken
    · cases h
  | resume t e =>
    rw [step] at h
    split at h
    · rename_i free
      cases h
      exact .spawn free (.resume t e)
    · cases h
  | connectionLost =>
    rw [step] at h
    split at h
    · rename_i free
      cases h
      exact .spawn free .connectionLost
    · cases h
  | schedulerTake env =>
    rw [step] at h
    split at h
    · rename_i free
      obtain ⟨result, taken, rfl⟩ := Option.map_eq_some_iff.mp h
      exact .spawn free (.schedulerTake env taken)
    · cases h
  | schedulerSweep env =>
    rw [step] at h
    split at h
    · rename_i free
      obtain ⟨result, due, rfl⟩ := Option.map_eq_some_iff.mp h
      exact .spawn free (.schedulerSweep env due)
    · cases h
  | connectionActive e supports env =>
    rw [step] at h
    split at h
    · rename_i free
      cases h
      exact .core (.connectionActive e supports env free.1 free.2.2.1 free.2.2.2)
    · cases h
  | schedulerPostpone env =>
    rw [step] at h
    split at h
    · cases h
    · rename_i inactive
      cases h
      exact .core (.schedulerPostpone env (Bool.not_eq_true _ ▸ inactive))
  | journalRecreate journal =>
    rw [step] at h
    split at h
    · rename_i fresh
      cases h
      exact .core (.journalRecreate journal fresh)
    · cases h
  | reloadConfiguration entry env =>
    cases h
    exact .core (.reloadConfiguration entry env)
  | setIndexingPaused paused =>
    cases h
    exact .core (.setIndexingPaused paused)
  | lateStop =>
    cases h
    exact .core .lateStop
  | journalGrow amount =>
    cases h
    exact .core (.journalGrow amount)
  | serve env =>
    obtain ⟨core, hcore, rfl⟩ := Option.map_eq_some_iff.mp h
    exact .core (.serve env hcore)
  | scanBatch last lengthBytes =>
    obtain ⟨core, hcore, rfl⟩ := Option.map_eq_some_iff.mp h
    exact .core (.scanBatch last lengthBytes hcore)
  | scanComplete =>
    obtain ⟨core, hcore, rfl⟩ := Option.map_eq_some_iff.mp h
    exact .core (.scanComplete hcore)
  | scanFailed =>
    obtain ⟨core, hcore, rfl⟩ := Option.map_eq_some_iff.mp h
    exact .core (.scanFailed hcore)
  | journalBatch latestUsn =>
    obtain ⟨core, hcore, rfl⟩ := Option.map_eq_some_iff.mp h
    exact .core (.journalBatch latestUsn hcore)
  | journalInvalid =>
    obtain ⟨core, hcore, rfl⟩ := Option.map_eq_some_iff.mp h
    exact .core (.journalInvalid hcore)
  | journalEnded =>
    obtain ⟨core, hcore, rfl⟩ := Option.map_eq_some_iff.mp h
    exact .core (.journalEnded hcore)

/-- A thread runs its next section. -/
theorem Moved.run_eq {t : ThreadId} {env : Env} (moved : Moved volume s (.run t env) s') :
    s' = s.advance t ((s.threads t).run env s.core) := by
  cases moved with
  | run _ _ _ => rfl
  | spawn _ spawned => cases spawned
  | core move => cases move

/-! ## What the service does -/

/-- The moves of the service. -/
def Action.service : Action → Bool
  | .serve _ | .scanBatch _ _ | .scanComplete | .scanFailed | .journalBatch _
  | .journalInvalid | .journalEnded => true
  | _ => false

/-- The service reads a request, or one of its workers writes or ends. -/
inductive ServiceMove (volume : Volume) (c : Core) (service : ServiceConnection) :
    Action → Core → Prop
  | serve {request : Request} {requests : List Request} (env : Env) :
      service.requests = request :: requests →
      ServiceMove volume c service (.serve env)
        (c.serveRequest env { service with requests } request)
  | scanBatch {worker : ScanWorker} {last lengthBytes : Nat} :
      service.scanWorker = some worker →
      worker.position ≤ last ∧ last ≤ volume.recordCount ∧ 0 < lengthBytes →
      ServiceMove volume c service (.scanBatch last lengthBytes) (c.withService { service with
        scanWorker := some { worker with position := last }
        frames := service.frames ++
          [.scanRecordBatch worker.attempt worker.position { position := last, lengthBytes }] })
  | scanComplete {worker : ScanWorker} :
      service.scanWorker = some worker → worker.position = volume.recordCount →
      ServiceMove volume c service .scanComplete (c.withService { service with
        scanWorker := none
        frames := service.frames ++ [.scanComplete worker.attempt] })
  | scanFailed {worker : ScanWorker} : service.scanWorker = some worker →
      ServiceMove volume c service .scanFailed (c.withService { service with
        scanWorker := none
        frames := service.frames ++ [.scanFailed worker.attempt] })
  | journalBatch {worker : JournalWorker} {latestUsn : Nat} :
      service.journalWorker = some worker →
      worker.journalId = c.journal.id ∧ worker.position ≤ latestUsn ∧
        latestUsn < c.journal.nextUsn →
      ServiceMove volume c service (.journalBatch latestUsn) ((c.withService { service with
        journalWorker := some { worker with position := latestUsn + 1 }
        frames := service.frames ++
          [.journalRecordBatch worker.opening worker.position latestUsn] }).record
        (.journalRead worker.journalId worker.position latestUsn))
  | journalStop {a : Action} {worker : JournalWorker} (invalid : Bool) :
      service.journalWorker = some worker →
      a = (if invalid then .journalInvalid else .journalEnded) →
      ServiceMove volume c service a (c.withService { service with
        journalWorker := none
        frames := service.frames ++
          if invalid then [.journalResumeInvalid worker.opening] else [] })

/-- **Inversion of a move of the service.** -/
theorem CoreMove.serviceMove {s : VolumeState} {core : Core}
    (move : CoreMove volume s a core) (own : a.service = true) :
    ∃ service, s.core.service = some service ∧ ServiceMove volume s.core service a core := by
  cases move with
  | serve env served =>
    unfold Core.serve at served
    repeat' split at served
    all_goals cases served
    rename_i service hs _ request requests hr
    exact ⟨service, hs, .serve env hr⟩
  | scanBatch last lengthBytes wrote =>
    unfold Core.scanBatch at wrote
    repeat' split at wrote
    all_goals cases wrote
    rename_i service hs _ worker hw bounds
    exact ⟨service, hs, .scanBatch hw bounds⟩
  | scanComplete wrote =>
    unfold Core.scanComplete at wrote
    repeat' split at wrote
    all_goals cases wrote
    rename_i service hs _ worker hw ended
    exact ⟨service, hs, .scanComplete hw ended⟩
  | scanFailed wrote =>
    unfold Core.scanFailed at wrote
    repeat' split at wrote
    all_goals cases wrote
    rename_i service hs _ worker hw
    exact ⟨service, hs, .scanFailed hw⟩
  | journalBatch latestUsn wrote =>
    unfold Core.journalBatch at wrote
    repeat' split at wrote
    all_goals cases wrote
    rename_i service hs _ worker hw bounds
    exact ⟨service, hs, .journalBatch hw bounds⟩
  | journalInvalid wrote =>
    unfold Core.journalStop at wrote
    iterate 2 split at wrote; cases wrote
    cases wrote
    rename_i service hs _ worker hw
    exact ⟨service, hs, .journalStop true hw rfl⟩
  | journalEnded wrote =>
    unfold Core.journalStop at wrote
    iterate 2 split at wrote; cases wrote
    cases wrote
    rename_i service hs _ worker hw
    exact ⟨service, hs, .journalStop false hw rfl⟩
  | _ => cases own

theorem Core.takeFrame_eq_some {c core : Core} {e : Nat} {frame : Frame}
    (taken : c.takeFrame = some (e, frame, core)) :
    ∃ service frames, c.service = some service ∧ service.ephemeralId = e ∧
      service.frames = frame :: frames ∧ core = c.withService { service with frames } := by
  unfold Core.takeFrame at taken
  repeat' split at taken
  all_goals cases taken
  rename_i service hs _ frames hf
  exact ⟨service, frames, hs, rfl, hf, rfl⟩

/-! ## Threads after a move -/

namespace VolumeState

@[simp] theorem advance_core (t : ThreadId) (result : Core × Task) (s : VolumeState) :
    (s.advance t result).core = result.1 := rfl

@[simp] theorem advance_threads_self (t : ThreadId) (result : Core × Task) (s : VolumeState) :
    (s.advance t result).threads t = result.2 := by
  simp [advance]

theorem advance_threads_of_ne {t u : ThreadId} (ne : u ≠ t) (result : Core × Task)
    (s : VolumeState) : (s.advance t result).threads u = s.threads u := by
  simp [advance, ne]

@[simp] theorem withCore_core (core : Core) (s : VolumeState) : (s.withCore core).core = core := rfl

end VolumeState

/-! ## Initial states -/

/-- The slice of a volume before the manager has seen it. -/
def Core.initial (journal : Journal) : Core where
  configured := none
  paused := false
  active := false
  supportsScanAttemptStarted := false
  owners := ⟨none, none, none, none⟩
  metadata := .fresh
  pass := none
  service := none
  journal := journal
  attempts := 0
  openings := 0
  passes := 0
  history := []

/-- The slice of a volume when the engine starts. -/
def VolumeState.initial (journal : Journal) : VolumeState where
  core := .initial journal
  threads := fun _ => .idle

/-- The initial states. -/
def Initial (s : VolumeState) : Prop :=
  ∃ journal, s = VolumeState.initial journal

end FastFiles.Manager
