import FastFiles.Manager.ScanCoverage

/-!
# Superseded scans

`StartOrResumeVolume` may replace an attempt that is still in flight.  The session is
then provisional (`awaitingScanAttemptStarted`) until the start marker of the
replacement arrives: everything before that marker in the stream belongs to the
superseded worker and is ignored.

A marker carries no attempt number.  `Watched` adds to the state which thread has
claimed a replacement that it has not sent yet, and the number under which the latest
replacement was sent, so that it can be said what the barrier is for: no batch and no
terminal of an earlier attempt is honoured any more.

The code does not keep this in all runs, since the scan that is replaced has a start
marker of its own.  If that is still on its way, it is taken for the marker of the
replacement: `supersededScan_honoured` is such a run.  `supersededScan_ignored` is the
property for all runs in which a replacement is sent only behind the markers of its
predecessors (`BarrierGuarded`).
-/

namespace FastFiles.Manager

open FastFiles.WorkerStream FastFiles.Transition VolumeState

/-! ## Replacements -/

variable (w : Watched) (s : VolumeState)

/-- The next section of the thread claims a replacement. -/
def VolumeState.supersedes (t : ThreadId) (env : Env) : Bool :=
  match s.threads t, (s.threads t).run env s.core with
  | .startClaim _ _ _, (core, .startSend _ _ _) =>
    core.owners.session.any (·.awaitingScanAttemptStarted)
  | _, _ => false

/-- The state of a volume and its replacements. -/
structure Watched where
  state : VolumeState
  /-- The thread has claimed a replacement and sends it in its next section. -/
  claimed : ThreadId → Bool
  /-- The number under which the latest replacement was sent. -/
  issued : Option Nat

/-- One move of the system, with a record of the replacements. -/
def watch (volume : Volume) (w : Watched) (a : Action) : Option Watched :=
  (step volume w.state a).map fun state =>
    match a with
    | .run t env =>
      { state
        claimed := Function.update w.claimed t (w.state.supersedes t env)
        issued :=
          if w.claimed t && (w.state.threads t).sendsScan then some w.state.core.attempts
          else w.issued }
    | _ => { w with state }

/-- The initial states. -/
def InitialWatched : Prop :=
  Initial w.state ∧ (∀ t, w.claimed t = false) ∧ w.issued = none

/-! ## What a move honours -/

/-- The attempt a terminal belongs to. -/
def Frame.terminal : Frame → Option Nat
  | .scanComplete attempt | .scanFailed attempt => some attempt
  | _ => none

/-- The move hands a batch of the attempt to the store, or takes a terminal of it for
that of the attempt in flight. -/
inductive VolumeState.Honours (s : VolumeState) (attempt : Nat) : Action → Prop
  | batch (env : Env) {e first : Nat} {cursor : ScanCursor} :
      s.threads .reader = .batchApply e attempt first cursor →
      Honours s attempt (.run .reader env)
  | terminal (env : Env) {e : Nat} {frame : Frame} {core : Core} {session : VolumeSession} :
      s.threads .reader = .idle → s.core.takeFrame = some (e, frame, core) →
      frame.terminal = some attempt → core.find e = some session →
      session.awaitingScanAttemptStarted = false → session.scanInProgress = true →
      Honours s attempt (.deliver env)

/-! ## The condition on runs -/

/-- Everything on the connection that belongs to a scan is output of a worker whose
start marker was read, the reader has no batch in hand, and the session awaits a
marker. -/
structure VolumeState.Fenced (s : VolumeState) : Prop where
  markers : ∀ x ∈ s.core.stream scanView, ¬ x.Opens
  hand : (s.threads .reader).inHand = []
  awaits : ∀ session, s.core.owners.session = some session →
    session.awaitingScanAttemptStarted = true

/-- The runs in which the barrier is sound:

* a replacement is sent only when no start request and no start marker of the volume
  is unread, no batch is in the reader's hand, and the session still awaits its
  marker, and
* a session is created only when nothing of an earlier attempt is left on the
  connection. -/
def BarrierGuarded : Action → Prop
  | .run t _ => w.claimed t = true → w.state.Fenced
  | .deliver env =>
    ∀ e core, w.state.core.takeFrame = some (e, .volumeList true, core) → core.find e = none →
      core.configured = some true → env.ok = true → core.stream scanView = []
  | _ => True

/-! ## The barrier -/

/-- Attempts below `k` have no authority: no worker below `k` will announce itself,
and what is left of one is ignored. -/
structure VolumeState.Barred (k : Nat) (s : VolumeState) : Prop where
  next : k ≤ s.core.attempts
  markers : ∀ x ∈ (s.client scanView).items, x.Opens → k ≤ x.worker
  rest : (∀ x ∈ (s.client scanView).items, k ≤ x.worker) ∨
    ((s.threads .reader).inHand = [] ∧ ∀ session, s.core.owners.session = some session →
      session.awaitingScanAttemptStarted = true)

/-- Nothing a barred worker has written is honoured. -/
theorem VolumeState.Barred.honours {k n : Nat} {s : VolumeState} {a : Action}
    (barred : s.Barred k) (h : s.Honours n a) : k ≤ n := by
  cases h with
  | @batch env e first cursor task =>
    rcases barred.rest with floor | ⟨free, -⟩
    · refine floor (.span n first cursor.position) ?_
      rw [client, task]
      exact .head _
    · rw [task] at free
      cases free
  | @terminal env e frame core session free taken item found ordered running =>
    rcases barred.rest with floor | ⟨-, awaits⟩
    · have items : (s.client scanView).items =
          (scanView.frameItem frame).toList ++ core.stream scanView :=
        client_items rfl free taken
      rw [items] at floor
      cases frame <;> cases item
      · exact floor (.finished n) (.head _)
      · exact floor (.failed n) (.head _)
    · have hs : s.core.owners.session = some session :=
        (Core.SameBooks.takeFrame taken).owners ▸ (Core.find_eq_some.mp found).1
      rw [awaits session hs] at ordered
      cases ordered

variable {session session' : VolumeSession}

/-- No section lifts the barrier of a session. -/
theorem SessionStep.awaits (h : SessionStep session session')
    (awaits : session.awaitingScanAttemptStarted = true) :
    session'.awaitingScanAttemptStarted = true := by
  cases h with
  | claim clean =>
    rw [clean.1] at awaits
    cases awaits
  | supersede => rfl
  | _ => exact awaits

variable {frame : Frame}

/-- Only a start marker lifts the barrier of a session. -/
theorem SessionFrame.awaits (h : SessionFrame session frame session')
    (awaits : session.awaitingScanAttemptStarted = true)
    (other : ∀ a, frame ≠ .scanAttemptStarted a) :
    session'.awaitingScanAttemptStarted = true := by
  cases h with
  | released a _ _ => exact absurd rfl (other a)
  | completed a _ ordered | failed a _ ordered =>
    rw [ordered] at awaits
    cases awaits
  | _ => exact awaits

section Moves

variable {volume : Volume} {s s' : VolumeState} {a : Action} {k : Nat}

variable {env : Env} {e : Nat} {t : ThreadId}

/-- A batch is not taken over while the session awaits its marker. -/
theorem Frame.inHand_receive {c : Core} (awaits : ∀ session, c.owners.session = some session →
      session.awaitingScanAttemptStarted = true) : (frame.receive env e c).2.inHand = [] := by
  by_cases batch : ∃ a first cursor, frame = .scanRecordBatch a first cursor
  · obtain ⟨a, first, cursor, rfl⟩ := batch
    simp only [Frame.receive, Core.receiveScanBatch]
    split
    · rfl
    · rename_i session found
      rw [if_pos (awaits session (Core.find_eq_some.mp found).1)]
      rfl
  · exact (frame.receive_first env e c).inHand fun a first cursor h => batch ⟨a, first, cursor, h⟩

section

variable (barred : s.Barred k) (sound : (s.client scanView).Sound volume.recordCount) {core : Core}
  (free : s.threads .reader = .idle)

include barred sound free

/-- What follows the marker of a worker that is not barred is not barred. -/
theorem VolumeState.Barred.marker {n : Nat}
    (taken : s.core.takeFrame = some (e, .scanAttemptStarted n, core)) :
    ∀ x ∈ ((s.advance .reader ((Frame.scanAttemptStarted n).receive env e core)).client
      scanView).items, k ≤ x.worker := by
  have items : (s.client scanView).items = .marker n :: core.stream scanView :=
    client_items rfl free taken
  rw [scanClient_deliver free taken (by simp)]
  intro x hx
  have first : k ≤ n := barred.markers (.marker n) (items ▸ (.head _)) trivial
  have later : n ≤ x.worker := (List.rel_of_pairwise_cons (items ▸ sound.ordered) hx).1
  exact first.trans later

/-- The reader takes a frame while the session awaits its marker. -/
theorem VolumeState.Barred.deliver (taken : s.core.takeFrame = some (e, frame, core))
    (fresh : frame = .volumeList true → core.find e = none → core.configured = some true →
      env.ok = true → core.stream scanView = [])
    (awaits : ∀ session, s.core.owners.session = some session →
      session.awaitingScanAttemptStarted = true) :
    let s' := s.advance .reader (frame.receive env e core)
    (∀ x ∈ (s'.client scanView).items, k ≤ x.worker) ∨
      ((s'.threads .reader).inHand = [] ∧ ∀ session, s'.core.owners.session = some session →
        session.awaitingScanAttemptStarted = true) := by
  have owners := (Core.SameBooks.takeFrame taken).owners
  by_cases marker : ∃ n, frame = .scanAttemptStarted n
  · obtain ⟨n, rfl⟩ := marker
    exact .inl (barred.marker sound free taken)
  by_cases created : frame = .volumeList true ∧ core.find e = none ∧
      core.configured = some true ∧ env.ok = true
  · obtain ⟨rfl, gone, wanted, resolved⟩ := created
    refine .inl fun x hx => ?_
    rw [scanClient_deliver free taken (by simp), fresh rfl gone wanted resolved] at hx
    cases hx
  · refine .inr ⟨?_, fun session' hs' => ?_⟩
    · rw [advance_threads_self]
      exact Frame.inHand_receive (owners ▸ awaits)
    · rcases Frame.session_receive hs' with ⟨session, hs, change⟩ | ⟨new, gone, wanted, ok, -⟩
      · exact change.awaits (awaits session (owners ▸ hs)) fun n h => marker ⟨n, h⟩
      · exact absurd ⟨new, gone, wanted, ok⟩ created

end

theorem VolumeState.inHand_run (moved : Moved volume s (.run t env) s')
    (hand : (s.threads .reader).inHand = []) : (s'.threads .reader).inHand = [] := by
  cases moved.readerMove with
  | rest same => rwa [same]
  | run =>
    rw [advance_threads_self]
    exact ((s.threads .reader).run_next env s.core).inHand

/-- **The barrier survives every move.** -/
theorem VolumeState.Barred.moved (barred : s.Barred k) (owned : s.Owned)
    (sound : (s.client scanView).Sound volume.recordCount) (moved : Moved volume s a s')
    (fresh : ∀ env e core, a = .deliver env →
      s.core.takeFrame = some (e, .volumeList true, core) → core.find e = none →
      core.configured = some true → env.ok = true → core.stream scanView = []) :
    s'.Barred k := by
  have step := moved.scanStep owned
  refine ⟨barred.next.trans step.next_le, step.opens_floor barred.next barred.markers, ?_⟩
  rcases barred.rest with floor | ⟨hand, awaits⟩
  · exact .inl (step.workers (fun _ => barred.next) floor)
  cases moved with
  | run t env busy =>
    refine .inr ⟨inHand_run (@Moved.run volume s t env busy) hand, fun session' hs' => ?_⟩
    obtain ⟨session, hs, change⟩ := Task.session_run hs'
    exact change.awaits (awaits session hs)
  | @deliver env e frame core free taken =>
    refine barred.deliver sound free taken ?_ awaits
    rintro rfl
    exact fresh env e core rfl taken
  | @spawn a t result _ spawned =>
    have ht := spawned.ne_reader
    refine .inr ⟨?_, fun session' hs' => awaits session' (spawned.owners_only.2 ▸ hs')⟩
    rw [advance_threads_of_ne ht]
    exact hand
  | core move => exact .inr ⟨hand, fun session' hs' => awaits session' (move.session hs')⟩

/-- A replacement that is sent behind the barrier bars its predecessors. -/
theorem VolumeState.Fenced.barred (fenced : s.Fenced) (owned : s.Owned)
    (moved : Moved volume s (.run t env) s') : s'.Barred s.core.attempts := by
  have step := moved.scanStep owned
  have items : (s.client scanView).items = s.core.stream scanView := by
    show (s.threads .reader).inHand ++ s.core.stream scanView = s.core.stream scanView
    rw [fenced.hand]
    rfl
  have next : (s.client scanView).next = s.core.attempts := rfl
  refine ⟨step.next_le, ?_, .inr ⟨inHand_run moved fenced.hand, ?_⟩⟩
  · refine step.opens_floor next.ge fun x hx opens => absurd opens (fenced.markers x ?_)
    rwa [items] at hx
  · intro session' hs'
    rw [moved.run_eq] at hs'
    obtain ⟨session, hs, change⟩ := Task.session_run hs'
    exact change.awaits (fenced.awaits session hs)

end Moves

/-! ## All runs -/

/-- The invariant behind the barrier. -/
structure Guarded (volume : Volume) (w : Watched) : Prop where
  owned : w.state.Owned
  sound : (w.state.client scanView).Sound volume.recordCount
  barred : ∀ k, w.issued = some k → w.state.Barred k

/-- **One guarded move keeps the invariant.** -/
theorem Guarded.step {volume : Volume} {w w' : Watched} {a : Action} (inv : Guarded volume w)
    (ok : BarrierGuarded w a) (h : watch volume w a = some w') : Guarded volume w' := by
  obtain ⟨s', stepped, rfl⟩ := Option.map_eq_some_iff.mp h
  have moved := step_moved stepped
  have owned := inv.owned.moved moved
  have sound := inv.sound.step (moved.scanStep inv.owned)
  have keep (fresh : ∀ env e core, a = .deliver env →
      w.state.core.takeFrame = some (e, .volumeList true, core) → core.find e = none →
      core.configured = some true → env.ok = true → core.stream scanView = []) (k : Nat)
      (issued : w.issued = some k) : s'.Barred k :=
    (inv.barred k issued).moved inv.owned inv.sound moved fresh
  cases a with
  | run t env =>
    refine ⟨owned, sound, fun k issued => ?_⟩
    dsimp only at issued
    split at issued
    · rename_i sends
      cases issued
      exact (ok (Bool.and_eq_true_iff.mp sends).1).barred inv.owned moved
    · exact keep (fun _ _ _ ha => by cases ha) k issued
  | deliver env =>
    refine ⟨owned, sound, keep fun env' e core same => ?_⟩
    cases same
    exact ok e core
  | _ => exact ⟨owned, sound, keep fun _ _ _ ha => by cases ha⟩

/-- **A superseded scan has no authority.**  In every guarded run of any number of
volumes: after the manager has sent a replacement under number `k`, no batch is handed
to the store and no terminal is honoured but those of attempt `k` or a later one. -/
theorem supersededScan_ignored {ι : Type} (volumes : ι → Volume) {w : ι → Watched}
    (reach : Family (fun i => watch (volumes i)) InitialWatched BarrierGuarded w) (i : ι)
    {k n : Nat} {a : Action} (issued : (w i).issued = some k)
    (honours : (w i).state.Honours n a) : k ≤ n := by
  have inv : Guarded (volumes i) (w i) := by
    refine (reach.component i).invariant ?_ ?_
    · rintro ⟨s, claimed, issued⟩ ⟨⟨journal, rfl⟩, -, rfl⟩
      exact ⟨nofun, client_initial journal _ rfl, nofun⟩
    · intro w a w' inv ok h
      exact inv.step ok h
  exact (inv.barred k issued).honours honours

/-! ### Two runs -/

/-- The user pauses and resumes indexing, and a thread of the UI server replaces the
scan in flight. -/
def resumed : List Action :=
  [.setIndexingPaused true, .setIndexingPaused false, .resume 0 7] ++
    List.replicate 4 (.run (.control 0) (.good 0))

/-- The scan is replaced after its start marker was read.  Its worker writes one more
batch before the service starts the replacement. -/
def replacedScan : List Action :=
  List.flatten
    [initialScanRequested, [.serve (.good 0), .deliver (.good 0)], resumed,
      [.scanBatch 1 8, .serve (.refusing 0), .serve (.good 0), .scanBatch 3 8],
      List.replicate 3 (.deliver (.good 0))]

/-- The scan is replaced before the service has read its request. -/
def overtakenScan : List Action :=
  List.flatten
    [initialScanRequested, resumed, [.serve (.good 0), .scanBatch 3 8],
      List.replicate 2 (.deliver (.good 0))]

/-- A decidable condition that implies `VolumeState.Fenced`. -/
def fencedCheck : Bool :=
  (s.core.stream scanView).all (fun x =>
    match x with
    | .marker _ | .pending _ _ => false
    | _ => true) &&
    (s.threads .reader).inHand.isEmpty &&
    s.core.owners.session.all (·.awaitingScanAttemptStarted)

theorem fenced_of_check (h : fencedCheck s = true) : s.Fenced := by
  rw [fencedCheck, Bool.and_eq_true, Bool.and_eq_true, List.all_eq_true] at h
  obtain ⟨⟨markers, hand⟩, awaits⟩ := h
  refine ⟨fun x hx opens => ?_, List.isEmpty_iff.mp hand, fun session hs => ?_⟩
  · have plain := markers x hx
    cases x with
    | marker _ | pending _ _ => cases plain
    | _ => cases opens
  · rw [hs] at awaits
    exact awaits

/-- A decidable condition that implies `BarrierGuarded`. -/
def barrierGuardedCheck : Action → Bool
  | .run t _ => !w.claimed t || fencedCheck w.state
  | .deliver _ =>
    match w.state.core.takeFrame with
    | some (_, .volumeList true, core) => (core.stream scanView).isEmpty
    | _ => true
  | _ => true

theorem barrierGuarded_of_check (a : Action) (h : barrierGuardedCheck w a = true) :
    BarrierGuarded w a := by
  cases a with
  | run t env =>
    intro claimed
    rw [barrierGuardedCheck, claimed] at h
    exact fenced_of_check w.state h
  | deliver env =>
    intro e core taken _ _ _
    simpa [barrierGuardedCheck, taken] using h
  | _ => trivial

/-- A volume that is watched from the start. -/
def Watched.initial (journal : Journal) : Watched :=
  ⟨.initial journal, fun _ => false, none⟩

theorem Watched.initial_initial (journal : Journal) : InitialWatched (.initial journal) :=
  ⟨⟨journal, rfl⟩, fun _ => rfl, rfl⟩

/-- After a replacement was sent under number 1, its own batch is the first to be
handed to the store. -/
theorem supersededScan_ignored_replaced :
    ∃ w : Unit → Watched,
      Family (fun _ => watch ⟨3⟩) InitialWatched BarrierGuarded w ∧
        (w ()).issued = some 1 ∧
        ∃ n, (w ()).state.Honours n (.run .reader (.good 0)) ∧ 1 ≤ n := by
  have exec : (run (fun w a => if barrierGuardedCheck w a then watch ⟨3⟩ w a else none)
      (.initial ⟨1, 0⟩) replacedScan).map (fun w => (w.issued, w.state.threads .reader)) =
        some (some 1, .batchApply 7 1 0 ⟨3, 8⟩) := by
    decide +kernel
  obtain ⟨t, exec, result⟩ := Option.map_eq_some_iff.mp exec
  obtain ⟨issued, task⟩ := Prod.mk.inj result
  have reach : Family (fun _ : Unit => watch ⟨3⟩) InitialWatched BarrierGuarded fun _ => t :=
    .of_component (.of_checked_run (fun w a _ => barrierGuarded_of_check w a)
      (fun _ _ _ _ _ _ => trivial) (.start (Watched.initial_initial _)) trivial exec)
  have honours : t.state.Honours 1 (.run .reader (.good 0)) := .batch (.good 0) task
  exact ⟨fun _ => t, reach, issued, 1, honours,
    supersededScan_ignored (fun _ => ⟨3⟩) reach () issued honours⟩

/-- **A superseded scan with authority.**  A replacement was sent under number 1, and
the next section of the reader hands a batch of attempt 0 to the store. -/
theorem supersededScan_honoured :
    ∃ w : Unit → Watched,
      Family (fun _ => watch ⟨3⟩) InitialWatched (fun _ _ => True) w ∧
        (w ()).state.core.supportsScanAttemptStarted = true ∧ (w ()).issued = some 1 ∧
        (w ()).state.Honours 0 (.run .reader (.good 0)) := by
  have exec : (run (watch ⟨3⟩) (.initial ⟨1, 0⟩) overtakenScan).map (fun w =>
      (w.state.core.supportsScanAttemptStarted, w.issued, w.state.threads .reader)) =
        some (true, some 1, .batchApply 7 0 0 ⟨3, 8⟩) := by
    decide +kernel
  obtain ⟨t, exec, result⟩ := Option.map_eq_some_iff.mp exec
  obtain ⟨supports, rest⟩ := Prod.mk.inj result
  obtain ⟨issued, task⟩ := Prod.mk.inj rest
  exact ⟨fun _ => t, .of_component (.of_run (.start (Watched.initial_initial _)) exec), supports,
    issued, .batch (.good 0) task⟩

end FastFiles.Manager
