import FastFiles.Manager.Flow

/-!
# Books and traffic

A slice has two halves.  The *books* are what the manager keeps: the owners, the
durable row and the reconciliation pass.  The *traffic* is what passes between
manager and service: the connection, the numbers of requests, and the events that
record requests, batches and readings.

The service, the volume and the rest of the process never write the books
(`CoreMove.sameBooks`).  What the sections of the manager leave alone is said once,
in `Task.footprint_run` and `Frame.footprint_receive`: for each part of the slice
there is a list of the tasks that write it, and every other task keeps it.
-/

namespace FastFiles.Manager

open Manager.Core

/-! ## Traffic -/

/-- The events that record traffic, as opposed to the manager's own decisions. -/
def Event.isTraffic : Event → Bool
  | .scanRequested _ _ | .batchApplied _ _ _ | .batchLost _ | .journalRequested _ _
  | .journalStarted _ _ | .journalRead _ _ _ | .journalApplied _ _ _ _ | .journalRefused _ _ _ _
  | .journalDropped _ => true
  | _ => false

/-- The traffic of two slices is the same. -/
structure Core.SameTraffic (c c' : Core) : Prop where
  service : c'.service = c.service
  attempts : c'.attempts = c.attempts
  openings : c'.openings = c.openings
  events : c'.history.filter Event.isTraffic = c.history.filter Event.isTraffic

namespace Core.SameTraffic

variable {c c' d : Core}

/-- What is read off the traffic events is the same. -/
theorem filterMap {β : Type} {f : Event → Option β} (h : SameTraffic c c')
    (reads : ∀ event, event.isTraffic = false → f event = none) :
    c'.history.filterMap f = c.history.filterMap f := by
  have only : ∀ history : List Event,
      (history.filter Event.isTraffic).filterMap f = history.filterMap f := by
    intro history
    induction history with
    | nil => rfl
    | cons event history ih =>
      cases traffic : event.isTraffic with
      | true => rw [List.filter_cons_of_pos traffic, List.filterMap_cons, List.filterMap_cons, ih]
      | false =>
        rw [List.filter_cons_of_neg (by simp [traffic]), List.filterMap_cons,
          reads event traffic, ih]
  rw [← only, h.events, only]

end Core.SameTraffic

theorem Core.eraseSession_sameTraffic (session : VolumeSession) (now : Nat) (c : Core) :
    c.SameTraffic (c.eraseSession session now) := by
  unfold eraseSession
  dsimp only
  split <;> exact ⟨rfl, rfl, rfl, rfl⟩

/-! ## Parts of the books -/

/-- Cursor and completion mark of the durable row are the same. -/
structure Core.SameScanRow (c c' : Core) : Prop where
  scanComplete : c'.metadata.scanComplete = c.metadata.scanComplete
  scanCursor : c'.metadata.scanCursor = c.metadata.scanCursor

/-- The journal position of the durable row is the same. -/
structure Core.SameJournalRow (c c' : Core) : Prop where
  journalId : c'.metadata.journalId = c.metadata.journalId
  resumeUsn : c'.metadata.resumeUsn = c.metadata.resumeUsn

/-- The reconciliation pass is the same. -/
structure Core.SamePass (c c' : Core) : Prop where
  pass : c'.pass = c.pass
  passes : c'.passes = c.passes

/-- What the sections never write is the same. -/
structure Core.SameSettings (c c' : Core) : Prop where
  configured : c'.configured = c.configured
  paused : c'.paused = c.paused
  supports : c'.supportsScanAttemptStarted = c.supportsScanAttemptStarted
  journal : c'.journal = c.journal

/-! ## Sections -/

/-- The tasks whose next section sends a request, drops the connection or answers
for a batch. -/
def Task.communicates : Task → Bool
  | .startSend _ _ _ | .triggerSend _ _ | .openJournal _ _ _ | .dropConnection _
  | .batchApply _ _ _ _ | .journalApply _ _ _ _ _ => true
  | _ => false

def Task.writesScanRow : Task → Bool
  | .batchCursor _ _ | .completeMark _ _ _ _ => true
  | _ => false

def Task.writesJournalRow : Task → Bool
  | .openedPosition _ _ _ _ | .journalPosition _ _ | .invalidPosition _ _ => true
  | _ => false

def Task.writesPass : Task → Bool
  | .triggerBegin _ _ | .dropPass _ | .completeAbort _ _ | .completeFinish _ _
  | .completeForeign _ _ | .failedAbort | .settleAbort => true
  | _ => false

def Task.claims : Task → Bool
  | .startClaim _ _ _ | .triggerClaim _ _ => true
  | _ => false

/-- The events the next section of a task may record. -/
def Task.records : Task → Event → Bool
  | .startClaim _ _ _, .attemptClaimed reconciliation => !reconciliation
  | .triggerClaim _ _, .attemptClaimed reconciliation => reconciliation
  | .triggerBegin _ _, .passBegun _ => true
  | .startSend _ _ _, .scanRequested _ _ | .triggerSend _ _, .scanRequested _ _ => true
  | .openJournal _ _ _, .journalRequested _ _ => true
  | .triggerRearm _ _, .attemptFailed _ | .dropSessions _, .attemptFailed _
  | .completeRetry _ _, .attemptFailed _ => true
  | .batchApply _ _ _ _, .batchApplied _ _ _ | .batchApply _ _ _ _, .batchLost _ => true
  | .completeFinish _ _, .passFinished _ => true
  | .journalApply _ _ _ _ _, .journalApplied _ _ _ _
  | .journalApply _ _ _ _ _, .journalRefused _ _ _ _ => true
  | _, _ => false

/-- A history grows by at most one event of a kind. -/
def Grows (kind : Event → Bool) (history history' : List Event) : Prop :=
  history' = history ∨ ∃ event, kind event = true ∧ history' = event :: history

/-- What the next section of a task leaves alone. -/
structure Task.Footprint (task : Task) (c c' : Core) : Prop where
  history : Grows task.records c.history c'.history
  traffic : task.communicates = false → c.SameTraffic c'
  scanRow : task.writesScanRow = false → c.SameScanRow c'
  journalRow : task.writesJournalRow = false → c.SameJournalRow c'
  pass : task.writesPass = false → c.SamePass c'
  settings : c.SameSettings c'

namespace Task.Footprint

variable {task : Task} {c : Core}

variable {history : List Event} {owners : Owners} (grows : Grows task.records c.history history)

section

variable (events : history.filter Event.isTraffic = c.history.filter Event.isTraffic)

include grows events

/-- A section that writes the owners and records decisions. -/
theorem bookkeeping : Task.Footprint task c { c with owners, history } :=
  ⟨grows, fun _ => ⟨rfl, rfl, rfl, events⟩, fun _ => ⟨rfl, rfl⟩, fun _ => ⟨rfl, rfl⟩,
    fun _ => ⟨rfl, rfl⟩, ⟨rfl, rfl, rfl, rfl⟩⟩

/-- A section that writes the pass. -/
theorem passing {pass : Option Nat} {passes : Nat} (writes : task.writesPass = true) :
    Task.Footprint task c { c with pass, passes, history } :=
  ⟨grows, fun _ => ⟨rfl, rfl, rfl, events⟩, fun _ => ⟨rfl, rfl⟩, fun _ => ⟨rfl, rfl⟩,
    fun h => Bool.noConfusion (h.symm.trans writes), ⟨rfl, rfl, rfl, rfl⟩⟩

end

/-- A section that writes the durable row. -/
theorem writing {metadata : VolumeMetadata}
    (scanRow : task.writesScanRow = false → c.SameScanRow { c with metadata })
    (journalRow : task.writesJournalRow = false → c.SameJournalRow { c with metadata }) :
    Task.Footprint task c { c with metadata } :=
  ⟨.inl rfl, fun _ => ⟨rfl, rfl, rfl, rfl⟩, scanRow, journalRow, fun _ => ⟨rfl, rfl⟩,
    ⟨rfl, rfl, rfl, rfl⟩⟩

include grows in
/-- A section that communicates. -/
theorem communicating {service : Option ServiceConnection}
    {attempts openings : Nat} (writes : task.communicates = true) :
    Task.Footprint task c { c with owners, service, attempts, openings, history } :=
  ⟨grows, fun h => Bool.noConfusion (h.symm.trans writes), fun _ => ⟨rfl, rfl⟩,
    fun _ => ⟨rfl, rfl⟩, fun _ => ⟨rfl, rfl⟩, ⟨rfl, rfl, rfl, rfl⟩⟩

end Task.Footprint

/-- **What the sections leave alone.** -/
theorem Task.footprint_run (task : Task) (env : Env) (c : Core) :
    task.Footprint c (task.run env c).1 := by
  cases task with
  | startSend | triggerSend => exact .communicating (.inr ⟨_, rfl, rfl⟩) rfl
  | dropConnection => exact .communicating (.inl rfl) rfl
  | openJournal e usn ret =>
    simp only [Task.run, Core.openJournal]
    split
    · exact .communicating (.inl rfl) rfl
    · exact .communicating (.inr ⟨_, rfl, rfl⟩) rfl
  | batchApply | journalApply =>
    simp only [Task.run, Core.batchApply, Core.journalApply]
    split <;> exact .communicating (.inr ⟨_, rfl, rfl⟩) rfl
  | startClaim | triggerClaim =>
    simp only [Task.run, Core.startClaim, Core.triggerClaim]
    repeat' split
    all_goals first
      | exact .bookkeeping (.inl rfl) rfl
      | exact .bookkeeping (.inr ⟨_, rfl, rfl⟩) rfl
  | triggerBegin e ret => exact .passing (.inr ⟨_, rfl, rfl⟩) rfl rfl
  | dropPass | completeAbort | completeForeign | failedAbort | settleAbort =>
    exact .passing (.inl rfl) rfl rfl
  | completeFinish e deferred =>
    simp only [Task.run, Core.completeFinish]
    split
    · exact .passing (.inl rfl) rfl rfl
    · exact .passing (.inr ⟨_, rfl, rfl⟩) rfl rfl
  | triggerRearm e ret =>
    simp only [Task.run, Core.triggerRearm]
    split
    · exact .bookkeeping (.inl rfl) rfl
    · exact .bookkeeping (.inr ⟨_, rfl, rfl⟩) rfl
  | dropSessions ret =>
    simp only [Task.run, Core.dropSessions]
    split
    · simp only [Core.eraseSession]
      split
      · exact .bookkeeping (.inr ⟨_, rfl, rfl⟩) rfl
      · exact .bookkeeping (.inl rfl) rfl
    · exact .bookkeeping (.inl rfl) rfl
  | completeRetry e reconciliation =>
    simp only [Task.run, Core.completeRetry]
    split <;> exact .bookkeeping (.inr ⟨_, rfl, rfl⟩) rfl
  | completeClear e was deferred => exact .bookkeeping (.inl rfl) rfl
  | batchCursor | completeMark =>
    simp only [Task.run, Core.batchCursor, Core.completeMark]
    split <;> exact .writing (fun other => by cases other) fun _ => ⟨rfl, rfl⟩
  | completeTime e was deferred =>
    simp only [Task.run, Core.completeTime]
    split <;> exact .writing (fun _ => ⟨rfl, rfl⟩) fun _ => ⟨rfl, rfl⟩
  | openedPosition _ _ _ _ | journalPosition _ _ | invalidPosition _ _ =>
    simp only [Task.run, Core.openedPosition, Core.journalPosition, Core.invalidPosition,
      Core.setJournalPosition]
    split <;> exact .writing (fun _ => ⟨rfl, rfl⟩) fun other => by cases other
  | dropActive ret =>
    exact ⟨.inl rfl, fun _ => ⟨rfl, rfl, rfl, rfl⟩, fun _ => ⟨rfl, rfl⟩, fun _ => ⟨rfl, rfl⟩,
      fun _ => ⟨rfl, rfl⟩, ⟨rfl, rfl, rfl, rfl⟩⟩
  | _ =>
    simp only [Task.run, Core.startGate, Core.batchMark, Core.completeDefer, Core.adopt,
      Core.requeue, Core.settle]
    (repeat' split) <;> exact .bookkeeping (.inl rfl) rfl

/-! ## Frames -/

/-- The frames whose first section may send a request or lose a batch. -/
def Frame.communicates : Frame → Bool
  | .volumeList _ | .scanRecordBatch _ _ _ | .journalRecordBatch _ _ _ => true
  | _ => false

/-- The events the first section on a frame may record. -/
def Frame.records : Frame → Event → Bool
  | .volumeList _, .attemptFailed _ | .scanFailed _, .attemptFailed _
  | .scanComplete _, .attemptFailed _ | .scanComplete _, .completionAccepted _ => true
  | .scanRecordBatch _ _ _, .batchLost _ | .journalRecordBatch _ _ _, .journalDropped _ => true
  | _, _ => false

/-- What the first section on a frame leaves alone. -/
structure Frame.Footprint (frame : Frame) (c c' : Core) : Prop where
  history : Grows frame.records c.history c'.history
  traffic : frame.communicates = false → c.SameTraffic c'
  scanRow : c.SameScanRow c'
  journalRow : c.SameJournalRow c'
  pass : c.SamePass c'
  settings : c.SameSettings c'

namespace Frame.Footprint

variable {frame : Frame} {c : Core}

theorem bookkeeping {owners : Owners} {history : List Event}
    (grows : Grows frame.records c.history history)
    (events : history.filter Event.isTraffic = c.history.filter Event.isTraffic) :
    Frame.Footprint frame c { c with owners, history } :=
  ⟨grows, fun _ => ⟨rfl, rfl, rfl, events⟩, ⟨rfl, rfl⟩, ⟨rfl, rfl⟩, ⟨rfl, rfl⟩,
    ⟨rfl, rfl, rfl, rfl⟩⟩

theorem communicating {owners : Owners} {service : Option ServiceConnection}
    {available : Bool} {history : List Event} (writes : frame.communicates = true)
    (grows : Grows frame.records c.history history) :
    Frame.Footprint frame c
      { c with owners, service, history, metadata := { c.metadata with available } } :=
  ⟨grows, fun h => Bool.noConfusion (h.symm.trans writes), ⟨rfl, rfl⟩, ⟨rfl, rfl⟩, ⟨rfl, rfl⟩,
    ⟨rfl, rfl, rfl, rfl⟩⟩

end Frame.Footprint

/-- **What the first sections on frames leave alone.** -/
theorem Frame.footprint_receive (frame : Frame) (env : Env) (e : Nat) (c : Core) :
    frame.Footprint c (frame.receive env e c).1 := by
  cases frame with
  | volumeList | scanRecordBatch | journalRecordBatch =>
    simp only [Frame.receive, receiveVolumeList, retireSession, eraseSession,
      sendSessionTeardown, receiveScanBatch, receiveJournalBatch]
    repeat' split
    all_goals first
      | exact .communicating rfl (.inl rfl)
      | exact .communicating rfl (.inr ⟨_, rfl, rfl⟩)
  | scanAttemptStarted | scanComplete | scanFailed | usnJournalOpened =>
    simp only [Frame.receive, receiveScanAttemptStarted, receiveScanComplete,
      receiveScanFailed, receiveJournalOpened]
    repeat' split
    all_goals first
      | exact .bookkeeping (.inl rfl) rfl
      | exact .bookkeeping (.inr ⟨_, rfl, rfl⟩) rfl
  | journalResumeInvalid o => exact .bookkeeping (.inl rfl) rfl

variable {s : VolumeState} {a : Action} {result : Core × Task} {t : ThreadId}

/-- The moves by which a thread begins a procedure write at most the retry owners. -/
theorem Spawn.owners_only (spawn : Spawn s a t result) :
    result.1 = s.core.withOwners result.1.owners ∧
      result.1.owners.session = s.core.owners.session := by
  cases spawn with
  | resume _ _ | connectionLost => exact ⟨rfl, rfl⟩
  | schedulerTake env begun | schedulerSweep env begun =>
    simp only [Core.schedulerTake, Core.schedulerSweep] at begun
    repeat' split at begun
    all_goals cases begun
    exact ⟨rfl, rfl⟩

theorem Spawn.sameTraffic (spawn : Spawn s a t result) : s.core.SameTraffic result.1 := by
  rw [spawn.owners_only.1]
  exact ⟨rfl, rfl, rfl, rfl⟩

theorem Spawn.metadata (spawn : Spawn s a t result) : result.1.metadata = s.core.metadata := by
  rw [spawn.owners_only.1]
  rfl

/-! ## Notifications -/

/-- The requests that start a scan or open a journal. -/
def Request.opens : Request → Bool
  | .startVolumeScan _ _ | .openUsnJournal _ _ => true
  | _ => false

/-- The traffic of two slices is the same but for requests that open nothing. -/
structure Core.Notifies (c c' : Core) : Prop where
  service : ∃ requests : List Request, (∀ request ∈ requests, request.opens = false) ∧
    c'.service =
      c.service.map fun service => { service with requests := service.requests ++ requests }
  attempts : c'.attempts = c.attempts
  openings : c'.openings = c.openings
  events : c'.history.filter Event.isTraffic = c.history.filter Event.isTraffic

theorem Core.SameTraffic.notifies {c c' : Core} (h : c.SameTraffic c') : c.Notifies c' :=
  ⟨⟨[], by simp, by simp [h.service]⟩, h.attempts, h.openings, h.events⟩

namespace Core.Notifies

variable {c c' d : Core}

theorem trans (h : Notifies c c') (h' : Notifies c' d) : Notifies c d := by
  obtain ⟨requests, plain, service⟩ := h.service
  obtain ⟨requests', plain', service'⟩ := h'.service
  refine ⟨⟨requests ++ requests', ?_, ?_⟩, h'.attempts.trans h.attempts,
    h'.openings.trans h.openings, h'.events.trans h.events⟩
  · intro request hr
    rcases List.mem_append.mp hr with hr | hr
    · exact plain request hr
    · exact plain' request hr
  · rw [service', service, Option.map_map]
    simp [Function.comp_def]

theorem sendRequest {request : Request} (plain : request.opens = false) (delivered : Bool)
    (c : Core) : Notifies c (c.sendRequest request delivered) := by
  unfold Core.sendRequest
  split
  · exact ⟨⟨[request], by simpa using plain, rfl⟩, rfl, rfl, rfl⟩
  · exact ⟨⟨[], by simp, by simp⟩, rfl, rfl, rfl⟩

/-- The connection keeps its id. -/
theorem ephemeralId (h : Notifies c c') :
    c'.service.map (·.ephemeralId) = c.service.map (·.ephemeralId) := by
  obtain ⟨requests, -, service⟩ := h.service
  rw [service, Option.map_map]
  rfl

end Core.Notifies

theorem Core.sendSessionTeardown_notifies (session : VolumeSession) (delivered : Bool)
    (c : Core) : c.Notifies (c.sendSessionTeardown session delivered) := by
  unfold sendSessionTeardown
  split
  · dsimp only
    split
    · exact (Notifies.sendRequest rfl delivered c).trans (.sendRequest rfl delivered _)
    · exact .sendRequest rfl delivered c
  · exact SameTraffic.notifies ⟨rfl, rfl, rfl, rfl⟩

theorem Core.retireSession_notifies (session : VolumeSession) (env : Env) (c : Core) :
    c.Notifies (c.retireSession session env) :=
  (c.eraseSession_sameTraffic session env.now).notifies.trans
    (sendSessionTeardown_notifies session env.delivered _)

theorem Core.receiveVolumeList_notifies (e : Nat) (listed : Bool) (env : Env) (c : Core) :
    c.Notifies (c.receiveVolumeList e listed env).1 := by
  have retired : ∀ session, c.Notifies ((c.retireSession session env).setAvailable false) :=
    fun session => (c.retireSession_notifies session env).trans
      (SameTraffic.notifies ⟨rfl, rfl, rfl, rfl⟩)
  have kept : c.Notifies c := SameTraffic.notifies ⟨rfl, rfl, rfl, rfl⟩
  unfold receiveVolumeList
  split
  · split
    · exact kept
    · cases c.owners.session with
      | none =>
        dsimp only
        split
        · exact kept.trans (SameTraffic.notifies ⟨rfl, rfl, rfl, rfl⟩)
        · exact kept
      | some session =>
        dsimp only
        split
        · exact (retired _).trans (SameTraffic.notifies ⟨rfl, rfl, rfl, rfl⟩)
        · exact retired _
  · split
    · exact retired _
    · exact kept

theorem Core.reloadConfiguration_notifies (entry : Option Bool) (env : Env) (c : Core) :
    c.Notifies (c.reloadConfiguration entry env) := by
  have configured : c.Notifies { c with configured := entry } :=
    SameTraffic.notifies ⟨rfl, rfl, rfl, rfl⟩
  have sent : ∀ d : Core, c.Notifies d →
      c.Notifies (if d.active then d.sendRequest .enumerateVolumes env.delivered else d) := by
    intro d h
    split
    · exact h.trans (.sendRequest rfl env.delivered d)
    · exact h
  refine sent _ ?_
  split
  · split
    · exact configured
    · exact configured.trans (retireSession_notifies _ env _)
  · exact configured

/-! ## Books -/

/-- The books of two slices are the same. -/
structure Core.SameBooks (c c' : Core) : Prop where
  owners : c'.owners = c.owners
  metadata : c'.metadata = c.metadata
  pass : c'.pass = c.pass

namespace Core.SameBooks

theorem takeFrame {c core : Core} {e : Nat} {frame : Frame}
    (taken : c.takeFrame = some (e, frame, core)) : SameBooks c core := by
  obtain ⟨service, frames, -, -, -, rfl⟩ := takeFrame_eq_some taken
  exact ⟨rfl, rfl, rfl⟩

end Core.SameBooks

/-- The moves outside the manager: everything but a change of the settings, a
postponed retry and the sections themselves. -/
def Action.Outside : Action → Prop
  | .reloadConfiguration _ _ | .schedulerPostpone _ => False
  | _ => True

variable {volume : Volume} {core : Core}

/-- The events that a move outside the sections may record. -/
def Action.records : Action → Event → Bool
  | .reloadConfiguration _ _, .attemptFailed _ => true
  | .serve _, .journalStarted _ _ => true
  | .journalBatch _, .journalRead _ _ _ => true
  | _, _ => false

/-- The service writes to its connection, and what it does with the journal is recorded. -/
theorem CoreMove.withService (move : CoreMove volume s a core) (own : a.service = true) :
    ∃ service service', s.core.service = some service ∧
      (core = s.core.withService service' ∨
        ∃ event, a.records event = true ∧ core = (s.core.withService service').record event) ∧
      service'.ephemeralId = service.ephemeralId := by
  obtain ⟨service, hs, move⟩ := move.serviceMove own
  cases move with
  | @serve request requests env _ =>
    cases request with
    | openUsnJournal o usn =>
      simp only [serveRequest]
      split
      · exact ⟨service, _, hs, .inr ⟨_, rfl, rfl⟩, rfl⟩
      · exact ⟨service, _, hs, .inl rfl, rfl⟩
    | _ => exact ⟨service, _, hs, .inl rfl, rfl⟩
  | journalBatch _ _ => exact ⟨service, _, hs, .inr ⟨_, rfl, rfl⟩, rfl⟩
  | _ => exact ⟨service, _, hs, .inl rfl, rfl⟩

/-- **Nothing outside the manager writes its books.** -/
theorem CoreMove.sameBooks
    (move : CoreMove volume s a core) (outside : a.Outside) : s.core.SameBooks core := by
  cases own : a.service with
  | true =>
    obtain ⟨service, service', -, rfl | ⟨event, -, rfl⟩, -⟩ := move.withService own
    iterate 2 exact ⟨rfl, rfl, rfl⟩
  | false =>
    cases move with
    | reloadConfiguration _ _ | schedulerPostpone _ _ => cases outside
    | lateStop | setIndexingPaused _ | journalGrow _
    | journalRecreate _ _ => exact ⟨rfl, rfl, rfl⟩
    | connectionActive e supports env _ _ _ =>
      simp only [Core.connectionActive]
      split <;> exact ⟨rfl, rfl, rfl⟩
    | _ => cases own

/-- Only sections write the books, apart from the owners. -/
theorem CoreMove.row (move : CoreMove volume s a core) :
    core.metadata = s.core.metadata ∧ core.pass = s.core.pass := by
  by_cases outside : a.Outside
  · obtain ⟨-, metadata, pass⟩ := move.sameBooks outside
    exact ⟨metadata, pass⟩
  · cases move with
    | reloadConfiguration entry env =>
      simp only [Core.reloadConfiguration, Core.retireSession, Core.sendSessionTeardown,
        Core.eraseSession]
      (repeat' split) <;> exact ⟨rfl, rfl⟩
    | schedulerPostpone env _ => exact ⟨rfl, rfl⟩
    | _ => exact absurd trivial outside

/-! ## Histories and journals only grow -/

theorem Grows.suffix {kind : Event → Bool} {history history' : List Event}
    (h : Grows kind history history') : history <:+ history' := by
  obtain rfl | ⟨event, -, rfl⟩ := h
  · exact List.suffix_refl history'
  · exact List.suffix_cons event history

/-- The journal has grown, or it was recreated. -/
def Journal.Precedes (journal journal' : Journal) : Prop :=
  journal.id < journal'.id ∨ journal'.id = journal.id ∧ journal.nextUsn ≤ journal'.nextUsn

theorem Journal.Precedes.of_eq {journal journal' : Journal} (same : journal' = journal) :
    journal.Precedes journal' := by
  subst same
  exact .inr ⟨rfl, le_rfl⟩

theorem CoreMove.grows (move : CoreMove volume s a core) :
    Grows a.records s.core.history core.history ∧ s.core.journal.Precedes core.journal := by
  cases own : a.service with
  | true =>
    obtain ⟨service, service', -, rfl | ⟨event, kind, rfl⟩, -⟩ := move.withService own
    · exact ⟨.inl rfl, .of_eq rfl⟩
    · exact ⟨.inr ⟨event, kind, rfl⟩, .of_eq rfl⟩
  | false =>
    cases move with
    | journalGrow amount => exact ⟨.inl rfl, .inr ⟨rfl, Nat.le_add_right _ _⟩⟩
    | journalRecreate journal later => exact ⟨.inl rfl, .inl later⟩
    | reloadConfiguration entry env =>
      simp only [Core.reloadConfiguration, Core.retireSession, Core.sendSessionTeardown,
        Core.eraseSession]
      repeat' split
      all_goals first
        | exact ⟨.inl rfl, .of_eq rfl⟩
        | exact ⟨.inr ⟨_, rfl, rfl⟩, .of_eq rfl⟩
    | connectionActive e supports env _ _ _ =>
      simp only [Core.connectionActive]
      split <;> exact ⟨.inl rfl, .of_eq rfl⟩
    | lateStop | setIndexingPaused _ | schedulerPostpone _ _ => exact ⟨.inl rfl, .of_eq rfl⟩
    | _ => cases own

theorem Core.recorded_takeFrame {c core : Core} {e : Nat} {frame : Frame}
    (taken : c.takeFrame = some (e, frame, core)) :
    core.history = c.history ∧ core.journal = c.journal := by
  obtain ⟨service, frames, -, -, -, rfl⟩ := takeFrame_eq_some taken
  exact ⟨rfl, rfl⟩

/-- **Nothing is ever removed from the history, and the journal never goes back.** -/
theorem Moved.grows {s s' : VolumeState} (moved : Moved volume s a s') :
    s.core.history <:+ s'.core.history ∧ s.core.journal.Precedes s'.core.journal := by
  cases moved with
  | run t env _ =>
    have footprint := (s.threads t).footprint_run env s.core
    exact ⟨footprint.history.suffix, .of_eq footprint.settings.journal⟩
  | @deliver env e frame core _ taken =>
    have footprint := frame.footprint_receive env e core
    obtain ⟨history, journal⟩ := recorded_takeFrame taken
    exact ⟨history ▸ footprint.history.suffix, .of_eq (footprint.settings.journal.trans journal)⟩
  | spawn _ spawned =>
    rw [VolumeState.advance_core, spawned.owners_only.1]
    exact ⟨List.suffix_refl _, .of_eq rfl⟩
  | core move => exact ⟨move.grows.1.suffix, move.grows.2⟩

end FastFiles.Manager
