import FastFiles.Service.FrameBoundary
import FastFiles.Service.ScanTrace

/-!
# The order of scan frames

The scan frames of a volume on one connection: frames of the `k`-th worker stand behind
the `k`-th start marker and before the next one, a terminal is the last thing a worker
writes, and a completion is written only by a worker that came to the end of the
enumeration and wrote every batch.

`Ordered` adds to the trace of each worker what the connection contributes: one worker at
a time for a volume, and none while its marker is written.
-/

namespace FastFiles.Service

open Protocol Transition EventLog

/-! ## The workers of a connection -/

section Workers

variable {τ : Type} {workers workers' : List (Worker τ)} {volumeId : VolumeId}

/-- Workers may be asked to stop, end, or leave the table. -/
structure Narrowed (workers workers' : List (Worker τ)) : Prop where
  ids : (workers'.map Worker.volumeId).Sublist (workers.map Worker.volumeId)
  threads : ∀ worker' ∈ workers', ∀ thread, worker'.thread = some thread →
    ∃ worker ∈ workers, worker.volumeId = worker'.volumeId ∧ worker.thread = some thread ∧
      (worker'.stopFlag = worker.stopFlag ∨ worker'.stopFlag = true)

namespace Narrowed

theorem of_subset (ids : (workers'.map Worker.volumeId).Sublist (workers.map Worker.volumeId))
    (subset : ∀ worker ∈ workers', worker ∈ workers ∨ worker.thread = none) :
    Narrowed workers workers' := by
  refine ⟨ids, fun worker mem thread running => ?_⟩
  rcases subset worker mem with old | ended
  · exact ⟨worker, old, rfl, running, .inl rfl⟩
  · rw [ended] at running
    cases running

theorem refl (workers : List (Worker τ)) : Narrowed workers workers :=
  of_subset (.refl _) fun _ mem => .inl mem

theorem cons (worker : Worker τ) (narrowed : Narrowed workers workers') :
    Narrowed (worker :: workers) (worker :: workers') := by
  refine ⟨narrowed.ids.cons_cons _, fun worker' mem thread running => ?_⟩
  rcases List.mem_cons.mp mem with rfl | rest
  · exact ⟨worker', .head _, rfl, running, .inl rfl⟩
  · obtain ⟨old, oldMem, kept⟩ := narrowed.threads worker' rest thread running
    exact ⟨old, .tail _ oldMem, kept⟩

theorem requestStop (workers : List (Worker τ)) :
    Narrowed workers (Service.requestStop volumeId workers) := by
  induction workers with
  | nil => exact refl []
  | cons worker workers ih =>
    unfold Service.requestStop
    split_ifs
    · refine ⟨.refl _, fun worker' mem thread running => ?_⟩
      rcases List.mem_cons.mp mem with rfl | rest
      · exact ⟨worker, .head _, rfl, running, .inr rfl⟩
      · exact ⟨worker', .tail _ rest, rfl, running, .inl rfl⟩
    · exact ih.cons worker

theorem requestStopAll (workers : List (Worker τ)) :
    Narrowed workers (Service.requestStopAll workers) := by
  constructor
  · simp [Service.requestStopAll, Function.comp_def]
  · intro worker' mem thread running
    obtain ⟨worker, old, rfl⟩ := List.mem_map.mp mem
    exact ⟨worker, old, rfl, running, .inr rfl⟩

theorem join (joined : Service.join volumeId workers = some workers') :
    Narrowed workers workers' := by
  induction workers generalizing workers' with
  | nil =>
    cases joined
    exact refl []
  | cons worker workers ih =>
    unfold Service.join at joined
    split_ifs at joined
    · cases joined
      exact of_subset (List.sublist_cons_self _ _) fun _ mem => .inl (.tail _ mem)
    · obtain ⟨rest, joinedRest, rfl⟩ := Option.map_eq_some_iff.mp joined
      exact (ih joinedRest).cons worker

end Narrowed

/-- After the join the volume has no worker. -/
theorem not_mem_of_join (joined : join volumeId workers = some workers')
    (distinct : (workers.map Worker.volumeId).Nodup) :
    volumeId ∉ workers'.map Worker.volumeId := by
  induction workers generalizing workers' with
  | nil =>
    cases joined
    exact List.not_mem_nil
  | cons worker workers ih =>
    rw [List.map_cons, List.nodup_cons] at distinct
    unfold join at joined
    split_ifs at joined with same
    · cases joined
      exact same ▸ distinct.1
    · obtain ⟨rest, joinedRest, rfl⟩ := Option.map_eq_some_iff.mp joined
      rw [List.map_cons, List.mem_cons, not_or]
      exact ⟨Ne.symm same, ih joinedRest distinct.2⟩

variable {index : Nat}

theorem map_volumeId_set {worker worker' : Worker τ} (found : workers[index]? = some worker)
    (same : worker'.volumeId = worker.volumeId) :
    (workers.set index worker').map Worker.volumeId = workers.map Worker.volumeId := by
  rw [List.map_set, same]
  obtain ⟨inside, rfl⟩ := List.getElem?_eq_some_iff.mp found
  refine List.ext_getElem (by simp) fun i _ _ => ?_
  by_cases here : index = i
  · subst here
    simp
  · simp [here]

/-- A thread that ends. -/
theorem Narrowed.set_ended {worker : Worker τ} (found : workers[index]? = some worker) :
    Narrowed workers (workers.set index { worker with thread := none }) := by
  refine .of_subset ?_ fun other mem => ?_
  · have same : ({ worker with thread := none } : Worker τ).volumeId = worker.volumeId := rfl
    rw [map_volumeId_set found same]
  · rcases List.mem_or_eq_of_mem_set mem with old | rfl
    · exact .inl old
    · exact .inr rfl

end Workers

/-! ## The history of a connection -/

variable (volumeId : VolumeId) (negotiated : ProtocolVersion)

/-- The event of a worker. -/
def Event.ofWorker (serial : Nat) : Event → Option ScanEvent
  | .scan v k event => if v = volumeId ∧ k = serial then some event else none
  | _ => none

/-- What one worker has done. -/
def workerEvents (serial : Nat) (log : List Event) : List ScanEvent :=
  log.filterMap (Event.ofWorker volumeId serial)

/-- The start markers of a volume. -/
def markers (log : List Event) : Nat :=
  log.countP fun event => event = .marker volumeId .complete

/-- How many start markers a peer has got when `count` workers were announced. -/
def announced (count : Nat) : Nat :=
  if negotiated.supportsScanAttemptStarted then count else 0

/-- A terminal: `ScanComplete` or `ScanFailed`. -/
def ScanEvent.isTerminal : ScanEvent → Bool
  | wrote (.batch _ _) _ => false
  | wrote _ _ => true
  | _ => false

section History

variable {volumeId v : VolumeId} {serial k : Nat} {log : List Event} {event : Event}
  {scanEvent : ScanEvent}

theorem workerEvents_append_of_none (other : event.ofWorker volumeId serial = none) :
    workerEvents volumeId serial (log ++ [event]) = workerEvents volumeId serial log := by
  simp [workerEvents, List.filterMap_append, other]

@[simp] theorem workerEvents_append_self :
    workerEvents volumeId serial (log ++ [.scan volumeId serial scanEvent]) =
      workerEvents volumeId serial log ++ [scanEvent] := by
  simp [workerEvents, List.filterMap_append, Event.ofWorker]

theorem mem_workerEvents :
    scanEvent ∈ workerEvents volumeId serial log ↔ .scan volumeId serial scanEvent ∈ log := by
  unfold workerEvents
  rw [List.mem_filterMap]
  constructor
  · rintro ⟨event, mem, is⟩
    cases event with
    | scan v k scanEvent' =>
      obtain ⟨⟨rfl, rfl⟩, rfl⟩ := of_guarded is
      exact mem
    | _ => cases is
  · exact fun mem => ⟨_, mem, by simp [Event.ofWorker]⟩

theorem markers_append_of_ne (other : event ≠ .marker volumeId .complete) :
    markers volumeId (log ++ [event]) = markers volumeId log := by
  simp [markers, other]

@[simp] theorem markers_append_self :
    markers volumeId (log ++ [.marker volumeId .complete]) = markers volumeId log + 1 := by
  simp [markers]

end History

/-- A scan frame stands behind the marker of its worker; a completion stands behind the end of
the enumeration and every batch. -/
def InOrder (before : List Event) : Event → Prop
  | .scan volumeId serial event =>
    markers volumeId before = announced negotiated (serial + 1) ∧
      ∀ outcome, event = .wrote .complete outcome →
        ReachedEnd (workerEvents volumeId serial before) ∧
          Written (workerEvents volumeId serial before) []
  | _ => True

/-- Nothing from a worker follows its terminal. -/
def Silences (earlier later : Event) : Prop :=
  ∀ volumeId serial event event', earlier = .scan volumeId serial event →
    event.isTerminal = true → later ≠ .scan volumeId serial event'

/-! ## The invariant -/

namespace Connection

/-- What is known about a running scan thread. -/
structure Tracked (negotiated : ProtocolVersion) (started : VolumeId → Nat) (log : List Event)
    (worker : Worker ScanThread) (thread : ScanThread) : Prop where
  serial : thread.serial < started worker.volumeId
  trace : thread.task.Trace worker.stopFlag (workerEvents worker.volumeId thread.serial log)
  unended : (∀ result, thread.task ≠ .done result) →
    ∀ event ∈ workerEvents worker.volumeId thread.serial log, event.isTerminal = false
  marked : markers worker.volumeId log = announced negotiated (thread.serial + 1)

/-- The control thread has not begun the teardown. -/
def Control.serving : Control → Bool
  | .tearingDown | .joiningScans | .joiningJournals | .closed => false
  | _ => true

/-- The marker of a worker that is not started yet. -/
def Control.ahead : Control → Nat
  | .spawningScan v _ => if v = volumeId then 1 else 0
  | _ => 0

structure Ordered (negotiated : ProtocolVersion) (c : Connection) : Prop where
  distinct : (c.activeScans.map Worker.volumeId).Nodup
  tracked : ∀ worker ∈ c.activeScans, ∀ thread, worker.thread = some thread →
    Tracked negotiated c.started c.log worker thread
  numbered : ∀ volumeId serial event, .scan volumeId serial event ∈ c.log →
    serial < c.started volumeId
  vacant : ∀ volumeId cursor,
    c.control = .markingScan volumeId cursor ∨ c.control = .spawningScan volumeId cursor →
      volumeId ∉ c.activeScans.map Worker.volumeId
  announces : ∀ volumeId cursor, c.control = .markingScan volumeId cursor →
    negotiated.supportsScanAttemptStarted = true
  counted : Control.serving c.control = true → ∀ volumeId, markers volumeId c.log =
    announced negotiated (c.started volumeId + Control.ahead volumeId c.control)
  inOrder : Each (InOrder negotiated) c.log
  silenced : c.log.Pairwise Silences

variable {negotiated : ProtocolVersion} {c c' : Connection}

/-! ### Log entries of others -/

/-- An event that is neither a scan event nor a start marker. -/
def Plain (event : Event) : Prop :=
  (∀ volumeId serial, event.ofWorker volumeId serial = none) ∧
    ∀ volumeId, event ≠ .marker volumeId .complete

/-- The log grows by at most one such event. -/
def PlainlyLogged (log log' : List Event) : Prop :=
  log' = log ∨ ∃ event, Plain event ∧ log' = log ++ [event]

theorem plain_control (frame : ControlFrame) (outcome : WriteOutcome) :
    Plain (.control frame outcome) :=
  ⟨(fun _ _ => rfl), (fun _ same => nomatch same)⟩

theorem plain_journal (frame : JournalFrame) (outcome : WriteOutcome) :
    Plain (.journal volumeId frame outcome) :=
  ⟨(fun _ _ => rfl), (fun _ same => nomatch same)⟩

theorem plainlyLogged_write {event : WriteOutcome → Event} (plain : ∀ outcome, Plain (event outcome))
    (outcome : WriteOutcome) : PlainlyLogged c.log (c.write event outcome).log :=
  .inr ⟨_, plain _, write_log c event outcome⟩

variable {worker : Worker ScanThread} {thread : ScanThread}

variable {started : VolumeId → Nat} {log : List Event} {event : Event}

theorem Tracked.other (tracked : Tracked negotiated started log worker thread)
    (other : event.ofWorker worker.volumeId thread.serial = none)
    (unmarked : event ≠ .marker worker.volumeId .complete) :
    Tracked negotiated started (log ++ [event]) worker thread where
  serial := tracked.serial
  trace := by
    rw [workerEvents_append_of_none other]
    exact tracked.trace
  unended := by
    rw [workerEvents_append_of_none other]
    exact tracked.unended
  marked := (markers_append_of_ne unmarked).trans tracked.marked

theorem Tracked.requestStop {worker worker' : Worker ScanThread}
    (tracked : Tracked negotiated started log worker thread)
    (same : worker.volumeId = worker'.volumeId)
    (stopped : worker'.stopFlag = worker.stopFlag ∨ worker'.stopFlag = true) :
    Tracked negotiated started log worker' thread := by
  obtain ⟨serial, trace, unended, marked⟩ := tracked
  rw [same] at serial trace unended marked
  refine ⟨serial, ?_, unended, marked⟩
  rcases stopped with kept | set
  · rw [kept]
    exact trace
  · rw [set]
    exact trace.requestStop

theorem Silences.of_not_scan {earlier later : Event}
    (other : ∀ volumeId serial, later.ofWorker volumeId serial = none) : Silences earlier later := by
  rintro volumeId serial event event' - - rfl
  simpa [Event.ofWorker] using other volumeId serial

theorem InOrder.of_not_scan {before : List Event}
    (other : ∀ volumeId serial, event.ofWorker volumeId serial = none) :
    InOrder negotiated before event := by
  cases event with
  | scan volumeId serial event => simpa [Event.ofWorker] using other volumeId serial
  | _ => trivial

section

variable (ordered : Ordered negotiated c) (kept : c'.started = c.started)
  (narrowed : Narrowed c.activeScans c'.activeScans)
  (vacant : ∀ volumeId cursor, c'.control = .markingScan volumeId cursor ∨
    c'.control = .spawningScan volumeId cursor → volumeId ∉ c'.activeScans.map Worker.volumeId)
  (announces : ∀ volumeId cursor, c'.control = .markingScan volumeId cursor →
    negotiated.supportsScanAttemptStarted = true)

include ordered kept narrowed vacant announces

/-- **Steps that start no worker and write no scan frame.** -/
theorem Ordered.unscanned
    (logged : c'.log = c.log ∨ ∃ event : Event,
      (∀ volumeId serial, event.ofWorker volumeId serial = none) ∧ c'.log = c.log ++ [event])
    (marked : ∀ volumeId ∈ c'.activeScans.map Worker.volumeId,
      markers volumeId c'.log = markers volumeId c.log)
    (counted : Control.serving c'.control = true → ∀ volumeId, markers volumeId c'.log =
      announced negotiated (c.started volumeId + Control.ahead volumeId c'.control)) :
    Ordered negotiated c' := by
  have worked : ∀ volumeId serial,
      workerEvents volumeId serial c'.log = workerEvents volumeId serial c.log := by
    intro volumeId serial
    rcases logged with same | ⟨event, other, same⟩
    · rw [same]
    · rw [same, workerEvents_append_of_none (other volumeId serial)]
  refine
    { distinct := ordered.distinct.sublist narrowed.ids
      tracked := fun worker' mem thread running => ?_
      numbered := fun volumeId serial event mem => ?_
      vacant := vacant
      announces := announces
      counted := kept ▸ counted
      inOrder := ?_
      silenced := ?_ }
  · obtain ⟨worker, old, same, ran, stopped⟩ := narrowed.threads worker' mem thread running
    obtain ⟨serial, trace, unended, before⟩ :=
      (ordered.tracked worker old thread ran).requestStop same stopped
    rw [← worked] at trace unended
    exact ⟨kept ▸ serial, trace, unended, (marked _ (List.mem_map_of_mem mem)).trans before⟩
  · rw [← mem_workerEvents, worked, mem_workerEvents] at mem
    rw [kept]
    exact ordered.numbered volumeId serial event mem
  · rcases logged with same | ⟨event, other, same⟩
    · exact same ▸ ordered.inOrder
    · exact same ▸ ordered.inOrder.append (InOrder.of_not_scan other)
  · rcases logged with same | ⟨event, other, same⟩
    · exact same ▸ ordered.silenced
    · exact same ▸ pairwise_append_singleton ordered.silenced
        fun _ _ => Silences.of_not_scan other

/-- Nor a start marker. -/
theorem Ordered.of_narrowed (logged : PlainlyLogged c.log c'.log)
    (serving : Control.serving c'.control = true → Control.serving c.control = true ∧
      ∀ volumeId count, announced negotiated (count + Control.ahead volumeId c'.control) =
        announced negotiated (count + Control.ahead volumeId c.control)) :
    Ordered negotiated c' := by
  have same : ∀ volumeId, markers volumeId c'.log = markers volumeId c.log := by
    intro volumeId
    rcases logged with logged | ⟨event, plain, logged⟩
    · rw [logged]
    · rw [logged, markers_append_of_ne (plain.2 volumeId)]
  refine ordered.unscanned kept narrowed vacant announces ?_ (fun _ _ => same _) fun on v => ?_
  · exact logged.imp_right fun ⟨event, plain, logged⟩ => ⟨event, plain.1, logged⟩
  · obtain ⟨before, ahead⟩ := serving on
    rw [same, ahead, ordered.counted before]

end

/-- The control thread is not starting a scan. -/
def Control.calm : Control → Bool
  | .markingScan _ _ | .spawningScan _ _ => false
  | _ => true

section

variable (ordered : Ordered negotiated c)

include ordered

/-- The case in which the control thread goes to no start of a scan. -/
theorem Ordered.quiet (started : c'.started = c.started) (logged : PlainlyLogged c.log c'.log)
    (narrowed : Narrowed c.activeScans c'.activeScans) (calm : Control.calm c'.control = true)
    {stage : Control} (control : c.control = stage) (serving : Control.serving c'.control = true →
      Control.serving stage = true ∧ Control.calm stage = true) : Ordered negotiated c' := by
  have still : ∀ {control}, Control.calm control = true → ∀ v, Control.ahead v control = 0 := by
    intro control calm v
    cases control with
    | spawningScan => cases calm
    | _ => rfl
  refine ordered.of_narrowed started narrowed ?_ ?_ logged fun on => ?_
  · rintro v cursor (starting | starting) <;> rw [starting] at calm <;> cases calm
  · intro v cursor starting
    rw [starting] at calm
    cases calm
  · obtain ⟨before, calmBefore⟩ := serving on
    rw [control]
    exact ⟨before, fun v count => by rw [still calm, still calmBefore]⟩

/-! ### The control thread -/

theorem Ordered.handshake (shaking : c.control = .handshaking) (reply : HandshakeReply)
    (outcome : WriteOutcome) : Ordered negotiated (c.handshake reply outcome) := by
  cases reply with
  | silent =>
    exact ordered.quiet rfl (.inl rfl) (.refl _) rfl shaking fun _ => ⟨rfl, rfl⟩
  | incompatible | rejected =>
    exact ordered.quiet rfl (.inr ⟨_, plain_control _ _, rfl⟩) (.refl _) rfl shaking
      fun _ => ⟨rfl, rfl⟩
  | accepted =>
    refine ordered.quiet rfl (.inr ⟨_, plain_control _ _, rfl⟩) (.refl _) ?_ shaking
      fun _ => ⟨rfl, rfl⟩
    unfold Connection.handshake
    simp only
    split_ifs <;> rfl

theorem Ordered.receive (reading : c.control = .reading) (request : Option Request) :
    Ordered negotiated (c.receive request) := by
  have tearsDown : Ordered negotiated { c with control := .tearingDown } :=
    ordered.quiet rfl (.inl rfl) (.refl _) rfl rfl nofun
  unfold Connection.receive
  cases request with
  | none => exact tearsDown
  | some request =>
    simp only
    split_ifs
    · exact tearsDown
    · cases request with
      | startVolumeScan | stopVolumeScan =>
        exact ordered.quiet rfl (.inl rfl) (.requestStop _) rfl reading fun _ => ⟨rfl, rfl⟩
      | _ => exact ordered.quiet rfl (.inl rfl) (.refl _) rfl reading fun _ => ⟨rfl, rfl⟩

variable {volumeId : VolumeId}

/-- The old worker is gone when its replacement is announced. -/
theorem Ordered.joinScan {replacement : Option (List UInt8)}
    (joining : c.control = .joiningScan volumeId replacement) {scans : List (Worker ScanThread)}
    (joined : join volumeId c.activeScans = some scans) :
    Ordered negotiated { c with
      activeScans := scans, control := afterJoin negotiated volumeId replacement } := by
  have gone := not_mem_of_join joined ordered.distinct
  cases replacement with
  | none => exact ordered.quiet rfl (.inl rfl) (.join joined) rfl joining fun _ => ⟨rfl, rfl⟩
  | some cursor =>
    cases supports : negotiated.supportsScanAttemptStarted with
    | true =>
      rw [afterJoin, supports, if_pos rfl]
      refine ordered.of_narrowed rfl (.join joined) ?_ (fun _ _ _ => supports) (.inl rfl)
        fun _ => ?_
      · rintro v cursor' (marking | spawning)
        · cases marking
          exact gone
        · cases spawning
      · rw [joining]
        exact ⟨rfl, fun _ _ => rfl⟩
    | false =>
      rw [afterJoin, supports, if_neg (by simp)]
      refine ordered.of_narrowed rfl (.join joined) ?_ (by simp) (.inl rfl) fun _ => ?_
      · rintro v cursor' (marking | spawning)
        · cases marking
        · cases spawning
          exact gone
      · -- such a peer gets no markers, so none is owed
        rw [joining]
        exact ⟨rfl, fun _ _ => by simp [announced, supports]⟩

variable {cursor : List UInt8}

/-- `ScanAttemptStarted` is written while the volume has no worker. -/
theorem Ordered.markScan (marking : c.control = .markingScan volumeId cursor)
    (outcome : WriteOutcome) : Ordered negotiated (c.markScan volumeId cursor outcome) := by
  have supports := ordered.announces volumeId cursor marking
  have vacant := ordered.vacant volumeId cursor (.inl marking)
  have counted := ordered.counted (by rw [marking]; rfl)
  obtain ⟨-, scans, started⟩ := write_frame c (.marker volumeId) outcome
  have logged : (c.markScan volumeId cursor outcome).log = _ := write_log c (.marker volumeId) outcome
  refine ordered.unscanned started (scans ▸ .refl _) (fun w cursor' control => ?_)
    (fun _ _ _ => supports) (.inr ⟨_, fun _ _ => rfl, logged⟩) (fun w mem => ?_) fun on w => ?_
  · have here : w = volumeId := by
      unfold Connection.markScan at control
      simp only at control
      split_ifs at control
      · rcases control with other | same
        · cases other
        · cases same
          rfl
      · rcases control with other | other <;> cases other
    rw [here]
    exact scans ▸ vacant
  · rw [logged]
    refine markers_append_of_ne fun same => vacant ?_
    rw [(Event.marker.inj same).1]
    exact scans ▸ mem
  · rw [logged]
    have complete : c.written outcome = true := by
      by_contra failed
      rw [Connection.markScan, if_neg failed] at on
      cases on
    rw [Connection.markScan, if_pos complete]
    rw [written, Bool.and_eq_true, Bool.not_eq_true', decide_eq_true_eq] at complete
    rw [complete.1, complete.2, if_neg (by simp)]
    specialize counted w
    rw [marking] at counted
    by_cases here : volumeId = w
    · subst here
      rw [markers_append_self, counted]
      simp [announced, supports, Control.ahead]
    · rw [markers_append_of_ne (by simpa using here), counted]
      simp [Control.ahead, here]

/-- The new worker stands behind its marker and has done nothing yet. -/
theorem Ordered.spawnScan (spawning : c.control = .spawningScan volumeId cursor) (spawned : Bool) :
    Ordered negotiated (c.spawnScan volumeId cursor spawned) := by
  have vacant := ordered.vacant volumeId cursor (.inr spawning)
  have counted := ordered.counted (by rw [spawning]; rfl)
  have grown : ∀ w, c.started w ≤ (c.spawnScan volumeId cursor spawned).started w := by
    intro w
    by_cases here : w = volumeId
    · subst here
      simp [Connection.spawnScan]
    · simp [Connection.spawnScan, here]
  refine
    { distinct := ?_
      tracked := fun worker mem thread running => ?_
      numbered := fun w k event mem => lt_of_lt_of_le (ordered.numbered w k event mem) (grown w)
      vacant := ?_
      announces := ?_
      counted := fun on w => ?_
      inOrder := ordered.inOrder
      silenced := ordered.silenced }
  · rw [Connection.spawnScan, List.map_append, List.nodup_append]
    refine ⟨ordered.distinct, List.pairwise_singleton _ _, fun w mem other is => ?_⟩
    rintro rfl
    have here : w = volumeId := List.mem_singleton.mp is
    exact vacant (here ▸ mem)
  · rcases List.mem_append.mp mem with old | new
    · obtain ⟨serial, trace, unended, marked⟩ := ordered.tracked worker old thread running
      exact ⟨lt_of_lt_of_le serial (grown _), trace, unended, marked⟩
    · rw [List.mem_singleton.mp new] at running ⊢
      cases spawned with
      | false => cases running
      | true =>
        cases running
        have fresh : workerEvents volumeId (c.started volumeId) c.log = [] := by
          refine List.eq_nil_iff_forall_not_mem.mpr fun event mem => ?_
          exact absurd (ordered.numbered _ _ _ (mem_workerEvents.mp mem)) (Nat.lt_irrefl _)
        refine ⟨?_, ?_, fun _ event mem => ?_, ?_⟩
        · simp [Connection.spawnScan]
        · simp only [Connection.spawnScan, fresh]
          exact Written.nil
        · simp only [Connection.spawnScan, fresh] at mem
          cases mem
        · have marked := counted volumeId
          rw [spawning, Control.ahead, if_pos rfl] at marked
          exact marked
  · unfold Connection.spawnScan
    intro w cursor' control
    simp only at control
    split_ifs at control <;> rcases control with other | other <;> cases other
  · unfold Connection.spawnScan
    intro w cursor' control
    simp only at control
    split_ifs at control
  · have counted := counted w
    rw [spawning] at counted
    have idle : Control.ahead w (c.spawnScan volumeId cursor spawned).control = 0 := by
      unfold Connection.spawnScan
      simp only
      split_ifs <;> rfl
    rw [idle]
    refine counted.trans ?_
    by_cases here : w = volumeId
    · subst here
      simp [Connection.spawnScan, Control.ahead]
    · simp [Connection.spawnScan, Control.ahead, here, Ne.symm here]

theorem Ordered.proceed {outcome : WriteOutcome} {spawned : Bool}
    (moved : c.proceed negotiated outcome spawned = some c') : Ordered negotiated c' := by
  have tearsDown : ∀ {x : Connection}, Ordered negotiated x →
      Ordered negotiated { x with control := .tearingDown } := fun held =>
    held.quiet rfl (.inl rfl) (.refl _) rfl rfl nofun
  unfold Connection.proceed at moved
  generalize control : c.control = stage at moved
  cases stage with
  | listingVolumes =>
    cases moved
    unfold Connection.listVolumes
    by_cases failed : c.transportFailed = true
    · rw [if_pos failed]
      exact tearsDown ordered
    · rw [if_neg failed]
      refine ordered.quiet rfl (.inr ⟨_, plain_control _ _, rfl⟩) (.refl _) ?_ control
        fun _ => ⟨rfl, rfl⟩
      simp only
      split_ifs <;> rfl
  | joiningScan volumeId replacement =>
    obtain ⟨scans, joined, rfl⟩ := Option.map_eq_some_iff.mp moved
    exact ordered.joinScan control joined
  | markingScan volumeId cursor =>
    cases moved
    exact ordered.markScan control outcome
  | spawningScan volumeId cursor =>
    cases moved
    exact ordered.spawnScan control spawned
  | joiningJournal volumeId replacement =>
    obtain ⟨journals, -, rfl⟩ := Option.map_eq_some_iff.mp moved
    refine ordered.quiet rfl (.inl rfl) (.refl _) ?_ control fun _ => ⟨rfl, rfl⟩
    cases replacement <;> rfl
  | spawningJournal volumeId resumeUsn =>
    cases moved
    refine ordered.quiet rfl (.inl rfl) (.refl _) ?_ control fun _ => ⟨rfl, rfl⟩
    cases spawned <;> rfl
  | acknowledging =>
    cases moved
    unfold Connection.acknowledge
    by_cases failed : c.transportFailed = true
    · rw [if_pos failed]
      exact tearsDown ordered
    · rw [if_neg failed]
      obtain ⟨-, scans, started⟩ := write_frame c (.control .heartbeatAck) outcome
      refine ordered.quiet started (plainlyLogged_write (plain_control _) outcome) ?_ ?_ control
        fun _ => ⟨rfl, rfl⟩
      · exact scans ▸ .refl _
      · simp only
        split_ifs <;> rfl
  | tearingDown =>
    cases moved
    exact ordered.quiet rfl (.inl rfl) (.requestStopAll _) rfl control nofun
  | joiningScans =>
    obtain ⟨-, rfl⟩ := of_guarded moved
    refine ordered.quiet rfl (.inl rfl) ?_ rfl control nofun
    exact .of_subset (List.nil_sublist _) nofun
  | joiningJournals =>
    obtain ⟨-, rfl⟩ := of_guarded moved
    exact ordered.quiet rfl (.inl rfl) (.refl _) rfl control nofun
  | handshaking | reading | closed =>
    cases moved

theorem Ordered.controlStep {action : ControlAction}
    (moved : c.controlStep negotiated action = some c') : Ordered negotiated c' := by
  cases action with
  | handshake reply outcome =>
    obtain ⟨shaking, rfl⟩ := of_guarded moved
    exact ordered.handshake shaking reply outcome
  | receive request =>
    obtain ⟨reading, rfl⟩ := of_guarded moved
    exact ordered.receive reading request
  | proceed outcome spawned => exact ordered.proceed moved
  | throws =>
    obtain ⟨-, rfl⟩ := of_guarded moved
    exact ordered.quiet rfl (.inl rfl) (.refl _) rfl rfl nofun

end

/-! ### The workers -/

/-- A move adds nothing or one event; a terminal only at the end. -/
theorem newEvents_cases (env : ScanEnv) (outcome : WriteOutcome) (task : ScanTask) :
    task.newEvents env outcome = [] ∨
      ∃ event, task.newEvents env outcome = [event] ∧
        (event.isTerminal = true → ∃ success, task = .terminal success) ∧
        ∀ outcome', event = .wrote .complete outcome' → task = .terminal true := by
  unfold ScanTask.newEvents
  cases writes : task.frame with
  | some frame =>
    refine .inr ⟨_, rfl, fun terminal => ?_, fun outcome' complete => ?_⟩
    · cases task with
      | terminal success => exact ⟨success, rfl⟩
      | _ => cases writes <;> cases terminal
    · cases complete
      cases task with
      | terminal success =>
        cases success with
        | true => rfl
        | false => cases writes
      | _ => cases writes
  | none =>
    cases observed : task.observed env with
    | none => exact .inl rfl
    | some event =>
      refine .inr ⟨event, rfl, ?_⟩
      obtain ⟨reference, reply, rfl⟩ | ⟨record, rfl⟩ := ScanTask.observed_cases observed
      · exact ⟨nofun, nofun⟩
      · exact ⟨nofun, nofun⟩

/-- What a move of a worker does to the history. -/
theorem scanRecorded_log (worker : Worker ScanThread) (thread : ScanThread) (move : ScanMove) :
    (c.scanRecorded worker thread move).log =
      c.log ++ (thread.task.newEvents (c.scanEnv worker move)
        (if c.transportFailed then .nothing else move.outcome)).map
          (.scan worker.volumeId thread.serial) := by
  unfold scanRecorded ScanTask.newEvents
  cases thread.task.frame with
  | some frame => exact write_log _ _ _
  | none => rfl

/-- The thread after its own move. -/
theorem Tracked.next (tracked : Tracked negotiated c.started c.log worker thread)
    (unfinished : ∀ result, thread.task ≠ .done result) (move : ScanMove) :
    Tracked negotiated c.started (c.scanRecorded worker thread move).log worker
      { thread with task := thread.task.next negotiated (c.scanEnv worker move) } := by
  have success : (c.scanEnv worker move).written = true →
      (if c.transportFailed then .nothing else move.outcome) = WriteOutcome.complete := by
    intro wrote
    rw [scanEnv, written, Bool.and_eq_true, Bool.not_eq_true', decide_eq_true_eq] at wrote
    rw [wrote.1, wrote.2]
    rfl
  have traced : ScanTask.Trace worker.stopFlag _ _ :=
    ScanTask.Trace.next tracked.trace success negotiated
  rw [scanRecorded_log]
  obtain none | ⟨event, one, ends, -⟩ := newEvents_cases (c.scanEnv worker move)
    (if c.transportFailed then .nothing else move.outcome) thread.task
  · rw [none, List.append_nil] at traced
    rw [none, List.map_nil, List.append_nil]
    exact ⟨tracked.serial, traced, fun _ => tracked.unended unfinished, tracked.marked⟩
  · rw [one] at traced
    rw [one, List.map_singleton]
    refine ⟨tracked.serial, ?_, fun goesOn other mem => ?_, ?_⟩
    · rw [workerEvents_append_self]
      exact traced
    · rw [workerEvents_append_self, List.mem_append, List.mem_singleton] at mem
      rcases mem with old | rfl
      · exact tracked.unended unfinished other old
      · -- behind a terminal the thread is done
        by_contra terminal
        obtain ⟨last, here⟩ := ends (Bool.not_eq_false _ ▸ terminal)
        rw [here, ScanTask.next] at goesOn
        split_ifs at goesOn <;> exact goesOn _ rfl
    · have unmarked : Event.scan worker.volumeId thread.serial event ≠
          .marker worker.volumeId .complete := by simp
      exact (markers_append_of_ne unmarked).trans tracked.marked

/-- **A move of a scan thread.** -/
theorem Ordered.scanMove (ordered : Ordered negotiated c)
    (found : c.activeScans[index]? = some worker) (running : worker.thread = some thread)
    (unfinished : ∀ result, thread.task ≠ .done result) (move : ScanMove) :
    Ordered negotiated { c.scanRecorded worker thread move with
      activeScans := c.activeScans.set index
        { worker with thread := some { thread with
            task := thread.task.next negotiated (c.scanEnv worker move) } } } := by
  have tracked := ordered.tracked worker (List.mem_of_getElem? found) thread running
  have moved := tracked.next unfinished move
  obtain ⟨control, started⟩ := scanRecorded_frame (c := c) worker thread move
  let after : Worker ScanThread := { worker with thread := some { thread with
    task := thread.task.next negotiated (c.scanEnv worker move) } }
  have ids := map_volumeId_set found (show after.volumeId = worker.volumeId from rfl)
  have logged : (c.scanRecorded worker thread move).log = c.log ∨ ∃ event,
      (c.scanRecorded worker thread move).log =
        c.log ++ [.scan worker.volumeId thread.serial event] ∧
      ∀ outcome, event = .wrote .complete outcome → thread.task = .terminal true := by
    rw [scanRecorded_log]
    obtain none | ⟨event, one, -, completes⟩ := newEvents_cases (c.scanEnv worker move)
      (if c.transportFailed then .nothing else move.outcome) thread.task
    · rw [none]
      exact .inl (List.append_nil _)
    · rw [one]
      exact .inr ⟨event, rfl, completes⟩
  refine
    { distinct := ids ▸ ordered.distinct
      tracked := fun other mem thread' running' => ?_
      numbered := fun v k event mem => ?_
      vacant := fun v cursor going => ?_
      announces := fun v cursor going => ordered.announces v cursor (control ▸ going)
      counted := fun on v => ?_
      inOrder := ?_
      silenced := ?_ }
  · rw [started]
    by_cases here : other.volumeId = worker.volumeId
    · -- one worker for a volume: this is the one that moved
      have new : after ∈ c.activeScans.set index after :=
        List.mem_set (List.getElem?_eq_some_iff.mp found).1 after
      obtain rfl := List.inj_on_of_nodup_map (ids ▸ ordered.distinct) mem new here
      cases running'
      exact moved.requestStop rfl (.inl rfl)
    · have old : other ∈ c.activeScans := by
        rcases List.mem_or_eq_of_mem_set mem with old | rfl
        · exact old
        · exact absurd rfl here
      have still := ordered.tracked other old thread' running'
      rcases logged with same | ⟨event, one, -⟩
      · rw [same]
        exact still
      · rw [one]
        exact still.other (by simp [Event.ofWorker, Ne.symm here]) nofun
  · rw [started]
    rcases logged with same | ⟨event', one, -⟩
    · exact ordered.numbered v k event (same ▸ mem)
    · rw [one, List.mem_append, List.mem_singleton] at mem
      rcases mem with old | new
      · exact ordered.numbered v k event old
      · cases new
        exact tracked.serial
  · rw [ids]
    exact ordered.vacant v cursor (control ▸ going)
  · rw [control] at on ⊢
    rw [started, ← ordered.counted on]
    rcases logged with same | ⟨event, one, -⟩
    · rw [same]
    · rw [one]
      exact markers_append_of_ne nofun
  · rcases logged with same | ⟨event, one, completes⟩
    · exact same ▸ ordered.inOrder
    · refine one ▸ ordered.inOrder.append ⟨tracked.marked, fun outcome complete => ?_⟩
      have trace := tracked.trace
      rw [completes outcome complete] at trace
      exact ⟨trace.2 rfl, trace.1⟩
  · rcases logged with same | ⟨event, one, -⟩
    · exact same ▸ ordered.silenced
    · refine one ▸ pairwise_append_singleton ordered.silenced fun old mem => ?_
      rintro v k scanEvent scanEvent' rfl terminal same
      cases same
      rw [tracked.unended unfinished scanEvent (mem_workerEvents.mpr mem)] at terminal
      cases terminal

/-- **Every step** keeps the order. -/
theorem Ordered.step (ordered : Ordered negotiated c) {action : Action}
    (moved : c.step negotiated action = some c') : Ordered negotiated c' := by
  -- what ends a thread leaves the control thread where it is
  have ends : ∀ {x : Connection}, x.started = c.started → PlainlyLogged c.log x.log →
      Narrowed c.activeScans x.activeScans → x.control = c.control → Ordered negotiated x := by
    intro x started logged narrowed control
    refine ordered.of_narrowed started narrowed ?_ ?_ logged ?_
    · exact fun v cursor going mem =>
        ordered.vacant v cursor (control ▸ going) (narrowed.ids.subset mem)
    · exact fun v cursor going => ordered.announces v cursor (control ▸ going)
    · exact fun on => ⟨control ▸ on, fun _ _ => by rw [control]⟩
  cases action with
  | control action => exact ordered.controlStep moved
  | scan index move =>
    obtain ⟨worker, thread, found, running, ⟨result, -, rfl⟩ | ⟨unfinished, rfl⟩⟩ :=
      scanStep_cases moved
    · exact ends rfl (.inl rfl) (.set_ended found) rfl
    · exact ordered.scanMove found running unfinished move
  | scanThrows index =>
    obtain ⟨worker, found, rfl⟩ := scanThrows_cases moved
    exact ends rfl (.inl rfl) (.set_ended found) rfl
  | journal index move =>
    obtain ⟨worker, task, -, -, rfl | rfl⟩ := journalStep_cases moved
    · exact ends rfl (.inl rfl) (.refl _) rfl
    · obtain ⟨control, scans, started⟩ := journalRecorded_frame (c := c) worker task move
      refine ends started ?_ (scans ▸ .refl _) control
      unfold journalRecorded
      cases task.frame with
      | some frame => exact plainlyLogged_write (plain_journal _ frame) move.outcome
      | none => exact .inl rfl
  | journalThrows index =>
    obtain ⟨worker, -, rfl⟩ := journalThrows_cases moved
    exact ends rfl (.inl rfl) (.refl _) rfl

theorem Ordered.start : Ordered negotiated start where
  distinct := .nil
  tracked := nofun
  numbered := nofun
  vacant := nofun
  announces := nofun
  counted := fun _ volumeId => by simp [Connection.start, markers, announced, Control.ahead]
  inOrder := .nil
  silenced := .nil

/-- **Scan attempts are separated.**  Every event of the `serial`-th worker of a volume stands
between the worker's own start marker and the next one; after a terminal the worker does
nothing; a completion stands behind the end of the enumeration with every batch written. -/
theorem scanAttempts_separated (negotiated : ProtocolVersion) {c : Connection}
    (reach : Reachable (Connection.step negotiated) (· = .start) (fun _ _ => True) c)
    {before after : List Event} {volumeId : VolumeId} {serial : Nat} {event : ScanEvent}
    (here : c.log = before ++ .scan volumeId serial event :: after) :
    markers volumeId before = announced negotiated (serial + 1) ∧
      (event.isTerminal = true → ∀ later, .scan volumeId serial later ∉ after) ∧
      ∀ outcome, event = .wrote .complete outcome →
        ReachedEnd (workerEvents volumeId serial before) ∧
          Written (workerEvents volumeId serial before) [] := by
  have ordered : Ordered negotiated c := reach.always .start Ordered.step
  obtain ⟨marked, completes⟩ := ordered.inOrder before _ after here
  refine ⟨marked, fun terminal later mem => ?_, completes⟩
  have silenced := ordered.silenced
  rw [here, List.pairwise_append, List.pairwise_cons] at silenced
  exact silenced.2.1.1 _ mem volumeId serial event later rfl terminal rfl

/-! ## Runs -/

/-- A scan of volume 1 is requested, and the worker before it is joined. -/
def startScan : List Action :=
  [.control (.receive (some (.startVolumeScan 1 []))),
    .control (.proceed .complete true), .control (.proceed .complete true),
    .control (.proceed .complete true)]

/-- So many moves of the first worker of the table. -/
def scanMoves (volume : Volume) (moves : Nat) : List Action :=
  List.replicate moves (.scan 0 ⟨true, .complete, volume⟩)

/-- The reply that holds one entry, for record 5. -/
def oneEntry : EnumReply :=
  .bytes (Codec.uint64.encode 1 ++ Codec.uint32.encode 64 ++ List.replicate 4 0 ++
    Codec.uint64.encode 5 ++ List.replicate 48 0)

/-- A volume with one file. -/
def oneFileVolume : Volume where
  recordSize := 1024
  enumerate reference := if reference = 0 then oneEntry else .error true
  fileRecord frn := some ⟨frn, 1, [0]⟩
  parse _ := some ⟨5, 0, 0, 0, 9, 16, 0x20, [0x61], le_rfl, Nat.le_add_left 1 254⟩

def oneFile : MftRecordV2 where
  fixed := ⟨5, 5, 0, 0, 0, 9, 16, 0x20, 1⟩
  fileName := [0x61]

/-- A worker enumerates the one file and writes its batch. -/
def batchEvents (serial : Nat) : List Event :=
  [.scan 1 serial (.replied 0 oneEntry), .scan 1 serial (.took oneFile),
    .scan 1 serial (.wrote (.batch [oneFile] (encodeCursor 1)) .complete)]

/-- The first worker writes a batch and is replaced; the second one writes a batch and
completes. -/
theorem scanAttempts_separated_replaced :
    ∃ c, Reachable (Connection.step ⟨2, 3⟩) (· = .start) (fun _ _ => True) c ∧
      ∃ first before, first ++ [.scan 1 0 (.wrote (.batch [oneFile] (encodeCursor 1)) .complete)] <+:
          before ∧ markers 1 first = 1 ∧
        c.log = before ++ [.scan 1 1 (.wrote .complete .complete)] ∧ markers 1 before = 2 ∧
        ReachedEnd (workerEvents 1 1 before) ∧ Written (workerEvents 1 1 before) [] := by
  have exec : (run (Connection.step ⟨2, 3⟩) .start
      (.control (.handshake .accepted .complete) :: startScan ++ scanMoves oneFileVolume 7 ++
        startScan.take 1 ++ scanMoves oneFileVolume 4 ++ startScan.drop 1 ++
        scanMoves oneFileVolume 11)).map (·.log) =
      some ([.control .handshakeAck .complete, .marker 1 .complete] ++ batchEvents 0 ++
        (.marker 1 .complete :: batchEvents 1 ++ [.scan 1 1 (.replied 1 (.error true))]) ++
        [.scan 1 1 (.wrote .complete .complete)]) := by
    decide +kernel
  obtain ⟨c, exec, log⟩ := Option.map_eq_some_iff.mp exec
  have reach : Reachable (Connection.step ⟨2, 3⟩) (· = .start) (fun _ _ => True) c :=
    .of_run (.start rfl) exec
  have behind : c.log = ([.control .handshakeAck .complete, .marker 1 .complete] ++
      (batchEvents 0).take 2) ++ _ :: _ := log
  obtain ⟨marked, -⟩ := scanAttempts_separated ⟨2, 3⟩ reach behind
  obtain ⟨both, -, completes⟩ := scanAttempts_separated ⟨2, 3⟩ reach log
  obtain ⟨ended, written⟩ := completes .complete rfl
  exact ⟨c, reach, _, _, ⟨_, rfl⟩, marked, log, both, ended, written⟩

/-- A volume that answers without records and without moving on. -/
def stuckVolume : Volume where
  recordSize := 1024
  enumerate _ := .bytes (List.replicate 8 0)
  fileRecord _ := none
  parse _ := none

/-- **A completion without the end of the file.** -/
theorem completion_without_endOfFile :
    ∃ c, Reachable (Connection.step ⟨2, 3⟩) (· = .start) (fun _ _ => True) c ∧
      .scan 1 0 (.wrote .complete .complete) ∈ c.log ∧
        ∀ reference, .scan 1 0 (.replied reference (.error true)) ∉ c.log := by
  have exec : (run (Connection.step ⟨2, 3⟩) .start
      (.control (.handshake .accepted .complete) :: startScan ++ scanMoves stuckVolume 8)).map
        (·.log) =
      some [.control .handshakeAck .complete, .marker 1 .complete,
        .scan 1 0 (.replied 0 (.bytes (List.replicate 8 0))),
        .scan 1 0 (.wrote .complete .complete)] := by
    decide +kernel
  obtain ⟨c, exec, log⟩ := Option.map_eq_some_iff.mp exec
  refine ⟨c, .of_run (.start rfl) exec, ?_, fun reference mem => ?_⟩
  · rw [log]
    decide
  · rw [log] at mem
    simp at mem

end Connection

end FastFiles.Service
