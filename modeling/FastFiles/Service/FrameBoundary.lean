import FastFiles.Foundations.EventLog
import FastFiles.Service.Connection

/-!
# Frame boundaries

Once a frame has been cut off, nothing may be written to the connection any more.  Every
write under the flag keeps this: it tests the flag, and a failed write sets it, under the
lock.  `Effect` says what any step does to the stream and the flag.  The `VolumeList`
reply only tests the flag; when it is cut off, the workers that are still running write
on until the teardown has joined them.
-/

namespace FastFiles.Service

open Protocol Transition EventLog

/-- Some byte of the frame reached the pipe. -/
def Event.SendsBytes (event : Event) : Prop :=
  event.outcome = some .complete ∨ event.outcome = some .truncated

/-- Only a part of the frame reached the pipe. -/
def Event.IsTruncated (event : Event) : Prop := event.outcome = some .truncated

/-- After a cut-off frame no byte is written. -/
def FrameBoundary (log : List Event) : Prop :=
  log.Pairwise fun earlier later => earlier.IsTruncated → ¬ later.SendsBytes

theorem FrameBoundary.append_silent {log events : List Event} (boundary : FrameBoundary log)
    (silent : ∀ event ∈ events, ¬ event.SendsBytes) : FrameBoundary (log ++ events) := by
  refine List.pairwise_append.mpr ⟨boundary, ?_, fun _ _ later mem _ => silent later mem⟩
  exact List.pairwise_of_forall_mem_list fun _ _ later mem _ => silent later mem

/-- What a worker does without a frame is not written to the connection. -/
theorem not_sendsBytes_of_observed {task : ScanTask} {env : ScanEnv} {event : ScanEvent}
    {volumeId : VolumeId} {serial : Nat} (observed : task.observed env = some event) :
    ¬ (Event.scan volumeId serial event).SendsBytes := by
  obtain ⟨reference, reply, rfl⟩ | ⟨record, rfl⟩ := ScanTask.observed_cases observed
  iterate 2 rintro (sends | sends) <;> cases sends

namespace Connection

variable {negotiated : ProtocolVersion} {c c' : Connection}

/-- Nothing can happen any more. -/
structure Over (c : Connection) : Prop where
  closed : c.control = .closed
  scans : c.activeScans = []
  journals : c.activeJournals = []

/-- What a step does to the stream and the flag. -/
inductive Effect (action : Action) (c c' : Connection) : Prop
  /-- No byte is written. -/
  | quiet (events : List Event) (same : c'.log = c.log ++ events)
      (silent : ∀ event ∈ events, ¬ event.SendsBytes)
      (flag : c.transportFailed = true → c'.transportFailed = true)
  /-- A write under the flag. -/
  | flagged (event : Event) (same : c'.log = c.log ++ [event]) (clean : c.transportFailed = false)
      (flag : event.IsTruncated → c'.transportFailed = true)
  /-- The `VolumeList` reply. -/
  | volumeList (outcome : WriteOutcome) (listing : c.control = .listingVolumes)
      (clean : c.transportFailed = false)
      (acts : ∃ spawned, action = .control (.proceed outcome spawned))
      (same : c'.log = c.log ++ [.control .volumeList outcome])
  /-- The reply to the handshake. -/
  | handshake (event : Event) (shaking : c.control = .handshaking)
      (same : c'.log = c.log ++ [event])
      (ends : event.IsTruncated → c'.control = .closed ∧ c'.activeScans = c.activeScans ∧
        c'.activeJournals = c.activeJournals)

namespace Effect

variable {action : Action}

theorem of_same_log (same : c'.log = c.log)
    (flag : c.transportFailed = true → c'.transportFailed = true) :
    Effect action c c' :=
  .quiet [] (by rw [same, List.append_nil]) (fun _ mem => (List.not_mem_nil mem).elim) flag

/-- A write under the flag, followed by anything that leaves the stream and the flag alone. -/
theorem of_write (event : WriteOutcome → Event) (outcome : WriteOutcome)
    (records : ∀ outcome, (event outcome).outcome = some outcome)
    (log : c'.log = (c.write event outcome).log)
    (flag : c'.transportFailed = (c.write event outcome).transportFailed) :
    Effect action c c' := by
  unfold Connection.write at log flag
  cases failed : c.transportFailed with
  | true =>
    rw [failed, if_pos rfl] at log flag
    refine .quiet [event .nothing] log ?_ fun _ => flag
    intro other mem
    rw [List.mem_singleton.mp mem, Event.SendsBytes, records]
    rintro (sends | sends) <;> cases sends
  | false =>
    rw [failed, if_neg Bool.false_ne_true] at log flag
    refine .flagged (event outcome) log failed fun truncated => ?_
    rw [Event.IsTruncated, records] at truncated
    cases truncated
    exact flag

end Effect

variable {action : Action} {outcome : WriteOutcome} {spawned : Bool}

theorem handshake_effect (shaking : c.control = .handshaking) (reply : HandshakeReply)
    (outcome : WriteOutcome) : Effect action c (c.handshake reply outcome) := by
  cases reply with
  | silent => exact .of_same_log rfl id
  | incompatible | rejected => exact .handshake _ shaking rfl fun _ => ⟨rfl, rfl, rfl⟩
  | accepted =>
    refine .handshake (.control .handshakeAck outcome) shaking rfl fun truncated => ?_
    obtain rfl : outcome = .truncated := Option.some.inj truncated
    exact ⟨rfl, rfl, rfl⟩

theorem receive_effect (request : Option Request) : Effect action c (c.receive request) := by
  cases request with
  | none => exact .of_same_log rfl id
  | some request =>
    unfold receive
    split_ifs
    · exact .of_same_log rfl id
    · cases request <;> exact .of_same_log rfl id

theorem proceed_effect (moved : c.proceed negotiated outcome spawned = some c') :
    Effect (.control (.proceed outcome spawned)) c c' := by
  unfold proceed at moved
  generalize point : c.control = stage at moved
  cases stage with
  | listingVolumes =>
    cases moved
    cases failed : c.transportFailed with
    | true =>
      rw [listVolumes, failed, if_pos rfl]
      exact .of_same_log rfl fun _ => rfl
    | false =>
      rw [listVolumes, failed, if_neg Bool.false_ne_true]
      exact .volumeList outcome point failed ⟨spawned, rfl⟩ rfl
  | markingScan volumeId cursor =>
    cases moved
    exact .of_write (.marker volumeId) outcome (fun _ => rfl) rfl rfl
  | acknowledging =>
    cases moved
    cases failed : c.transportFailed with
    | true =>
      rw [acknowledge, failed, if_pos rfl]
      exact .of_same_log rfl fun _ => rfl
    | false =>
      rw [acknowledge, failed, if_neg Bool.false_ne_true]
      exact .of_write (.control .heartbeatAck) outcome (fun _ => rfl) rfl rfl
  | joiningScan | joiningJournal =>
    obtain ⟨workers, -, rfl⟩ := Option.map_eq_some_iff.mp moved
    exact .of_same_log rfl id
  | spawningScan | spawningJournal | tearingDown =>
    cases moved
    exact .of_same_log rfl id
  | joiningScans | joiningJournals =>
    simp only [Option.ite_none_right_eq_some] at moved
    obtain ⟨-, same⟩ := moved
    cases same
    exact .of_same_log rfl id
  | handshaking | reading | closed =>
    cases moved

variable {index : Nat}

theorem scanStep_effect {move : ScanMove} (moved : c.scanStep negotiated index move = some c') :
    Effect action c c' := by
  obtain ⟨worker, thread, -, -, ⟨result, -, rfl⟩ | ⟨-, rfl⟩⟩ := scanStep_cases moved
  · exact .of_same_log rfl fun failed => by simp [failed]
  · unfold scanRecorded
    cases writes : thread.task.frame with
    | some frame =>
      exact .of_write (fun outcome => .scan worker.volumeId thread.serial (.wrote frame outcome))
        move.outcome (fun _ => rfl) rfl rfl
    | none =>
      refine .quiet _ rfl ?_ id
      intro event mem
      obtain ⟨event, observed, rfl⟩ := List.mem_map.mp mem
      exact not_sendsBytes_of_observed (Option.mem_toList.mp observed)

theorem scanThrows_effect (moved : c.scanThrows index = some c') : Effect action c c' := by
  obtain ⟨worker, -, rfl⟩ := scanThrows_cases moved
  exact .of_same_log rfl fun _ => rfl

theorem journalStep_effect {move : JournalMove}
    (moved : c.journalStep negotiated index move = some c') : Effect action c c' := by
  obtain ⟨worker, task, -, -, rfl | rfl⟩ := journalStep_cases moved
  · exact .of_same_log rfl id
  · unfold journalRecorded
    cases writes : task.frame with
    | some frame =>
      exact .of_write (.journal worker.volumeId frame) move.outcome (fun _ => rfl) rfl rfl
    | none => exact .of_same_log rfl id

theorem journalThrows_effect (moved : c.journalThrows index = some c') : Effect action c c' := by
  obtain ⟨worker, -, rfl⟩ := journalThrows_cases moved
  exact .of_same_log rfl id

/-- What any step does to the stream and the flag. -/
theorem step_effect (moved : c.step negotiated action = some c') : Effect action c c' := by
  cases action with
  | control action =>
    cases action with
    | handshake reply outcome =>
      obtain ⟨shaking, rfl⟩ := of_guarded moved
      exact handshake_effect shaking reply outcome
    | receive request =>
      obtain ⟨-, rfl⟩ := of_guarded moved
      exact receive_effect request
    | proceed outcome spawned => exact proceed_effect moved
    | throws =>
      obtain ⟨-, rfl⟩ := of_guarded moved
      exact .of_same_log rfl id
  | scan index move => exact scanStep_effect moved
  | scanThrows index => exact scanThrows_effect moved
  | journal index move => exact journalStep_effect moved
  | journalThrows index => exact journalThrows_effect moved

/-! ## The handshake comes first and only once -/

theorem handshake_control (reply : HandshakeReply) (outcome : WriteOutcome) :
    (c.handshake reply outcome).control ≠ .handshaking := by
  cases reply with
  | accepted =>
    simp only [handshake]
    split_ifs <;> exact fun same => by cases same
  | _ => exact fun same => by cases same

theorem receive_control (request : Option Request) :
    (c.receive request).control ≠ .handshaking := by
  unfold receive
  split
  · split_ifs
    · exact fun same => by cases same
    · rename_i request _
      cases request <;> exact fun same => by cases same
  · exact fun same => by cases same

theorem proceed_control (moved : c.proceed negotiated outcome spawned = some c') :
    c'.control ≠ .handshaking := by
  intro same
  unfold proceed at moved
  split at moved
  · cases moved
    simp only [listVolumes] at same
    split_ifs at same
  · obtain ⟨scans, -, rfl⟩ := Option.map_eq_some_iff.mp moved
    simp only [afterJoin] at same
    split at same
    · cases same
    · split_ifs at same
  · cases moved
    simp only [markScan] at same
    split_ifs at same
  · cases moved
    simp only [spawnScan] at same
    split_ifs at same
  · obtain ⟨journals, -, rfl⟩ := Option.map_eq_some_iff.mp moved
    simp only at same
    split at same <;> cases same
  · cases moved
    simp only [spawnJournal] at same
    split_ifs at same
  · cases moved
    simp only [acknowledge] at same
    split_ifs at same
  · cases moved
    cases same
  iterate 2
    obtain ⟨-, rfl⟩ := of_guarded moved
    cases same
  all_goals cases moved

/-- Workers do not move the control thread, and there are none during the handshake. -/
theorem step_control
    (fresh : c.control = .handshaking → c.log = [] ∧ c.activeScans = [] ∧ c.activeJournals = [])
    (moved : c.step negotiated action = some c') : c'.control ≠ .handshaking := by
  cases action with
  | control action =>
    cases action with
    | handshake reply outcome =>
      obtain ⟨-, rfl⟩ := of_guarded moved
      exact handshake_control reply outcome
    | receive request =>
      obtain ⟨-, rfl⟩ := of_guarded moved
      exact receive_control request
    | proceed outcome spawned => exact proceed_control moved
    | throws =>
      obtain ⟨-, rfl⟩ := of_guarded moved
      exact fun same => by cases same
  | scan index move =>
    intro shaking
    obtain ⟨worker, thread, found, -, ⟨result, -, rfl⟩ | ⟨-, rfl⟩⟩ := scanStep_cases moved
    · rw [(fresh shaking).2.1] at found
      cases found
    · rw [(fresh ((scanRecorded_frame _ _ _).1.symm.trans shaking)).2.1] at found
      cases found
  | scanThrows index =>
    intro shaking
    obtain ⟨worker, found, rfl⟩ := scanThrows_cases moved
    rw [(fresh shaking).2.1] at found
    cases found
  | journal index move =>
    intro shaking
    obtain ⟨worker, task, found, -, rfl | rfl⟩ := journalStep_cases moved
    · rw [(fresh shaking).2.2] at found
      cases found
    · rw [(fresh ((journalRecorded_frame _ _ _).1.symm.trans shaking)).2.2] at found
      cases found
  | journalThrows index =>
    intro shaking
    obtain ⟨worker, found, rfl⟩ := journalThrows_cases moved
    rw [(fresh shaking).2.2] at found
    cases found

/-! ## The invariant -/

/-- The stream keeps its frame boundaries; a cut-off frame has set the flag or ended the
connection. -/
structure Bounded (c : Connection) : Prop where
  boundary : FrameBoundary c.log
  poisoned : (∃ event ∈ c.log, event.IsTruncated) → c.transportFailed = true ∨ c.Over
  fresh : c.control = .handshaking → c.log = [] ∧ c.activeScans = [] ∧ c.activeJournals = []

theorem Over.step_eq_none (ended : c.Over) (action : Action) : c.step negotiated action = none := by
  obtain ⟨closed, scans, journals⟩ := ended
  cases action with
  | control action =>
    cases action <;> simp [Connection.step, controlStep, proceed, Control.inLoop, closed]
  | scan index move => simp [Connection.step, scanStep, scans]
  | scanThrows index => simp [Connection.step, Connection.scanThrows, scans]
  | journal index move => simp [Connection.step, journalStep, journals]
  | journalThrows index => simp [Connection.step, Connection.journalThrows, journals]

/-- The `VolumeList` reply is not cut off. -/
def ListsWhole (c : Connection) (action : Action) : Prop :=
  ∀ outcome spawned, action = .control (.proceed outcome spawned) → c.control = .listingVolumes →
    c.transportFailed = false → outcome ≠ .truncated

theorem Bounded.step (bounded : c.Bounded) (whole : c.ListsWhole action)
    (moved : c.step negotiated action = some c') : c'.Bounded := by
  have live : ¬ c.Over := fun ended => by rw [ended.step_eq_none] at moved; cases moved
  have poisoned : (∃ event ∈ c.log, event.IsTruncated) → c.transportFailed = true :=
    fun cut => (bounded.poisoned cut).resolve_right live
  have fresh := step_control bounded.fresh moved
  -- a clean connection has no cut-off frame, so any write may follow
  have clean : c.transportFailed = false → ∀ event ∈ c.log, ¬ event.IsTruncated := by
    intro unset event mem cut
    rw [poisoned ⟨event, mem, cut⟩] at unset
    cases unset
  refine ⟨?_, ?_, fun shaking => absurd shaking fresh⟩
  · cases step_effect moved with
    | quiet events same silent _ => rw [same]; exact bounded.boundary.append_silent silent
    | flagged _ same unset _ | volumeList _ _ unset _ same =>
      rw [same]
      exact pairwise_append_singleton bounded.boundary
        fun old mem cut => absurd cut (clean unset old mem)
    | handshake event shaking same _ =>
      rw [same, (bounded.fresh shaking).1]
      exact List.pairwise_singleton _ _
  · rintro ⟨event, mem, cut⟩
    cases step_effect moved with
    | quiet events same silent flag =>
      rw [same] at mem
      rcases List.mem_append.mp mem with old | new
      · exact .inl (flag (poisoned ⟨event, old, cut⟩))
      · exact absurd (.inr cut) (silent event new)
    | flagged written same unset flag =>
      rw [same] at mem
      rcases List.mem_append.mp mem with old | new
      · exact absurd cut (clean unset event old)
      · obtain rfl := List.mem_singleton.mp new
        exact .inl (flag cut)
    | volumeList outcome listing unset acts same =>
      obtain ⟨spawned, rfl⟩ := acts
      rw [same] at mem
      rcases List.mem_append.mp mem with old | new
      · exact absurd cut (clean unset event old)
      · obtain rfl := List.mem_singleton.mp new
        exact absurd (Option.some.inj cut) (whole outcome spawned rfl listing unset)
    | handshake written shaking same ends =>
      obtain ⟨log, scans, journals⟩ := bounded.fresh shaking
      rw [same, log] at mem
      obtain rfl := List.mem_singleton.mp mem
      obtain ⟨closed, scans', journals'⟩ := ends cut
      exact .inr ⟨closed, scans'.trans scans, journals'.trans journals⟩

theorem Bounded.start : Connection.start.Bounded where
  boundary := .nil
  poisoned := fun ⟨_, mem, _⟩ => (List.not_mem_nil mem).elim
  fresh := fun _ => ⟨rfl, rfl, rfl⟩

/-- **Frame boundaries are kept.**  In every run in which no `VolumeList` reply is cut off,
no byte follows a cut-off frame. -/
theorem frameBoundary_kept (negotiated : ProtocolVersion) {c : Connection}
    (reach : Reachable (Connection.step negotiated) (· = .start) ListsWhole c) :
    FrameBoundary c.log := by
  have bounded : c.Bounded := by
    refine reach.invariant (fun _ start => start ▸ Bounded.start) ?_
    exact fun _ _ _ bounded whole moved => bounded.step whole moved
  exact bounded.boundary

/-! ## Runs -/

/-- A volume without files. -/
def emptyVolume : Volume where
  recordSize := 1024
  enumerate _ := .error true
  fileRecord _ := none
  parse _ := none

/-- A scan worker of the empty volume moves, its write ending in `outcome`. -/
def emptyScan (outcome : WriteOutcome) : Action := .scan 0 ⟨true, outcome, emptyVolume⟩

/-- Handshake and a scan of volume 1 up to its terminal. -/
def scanUpToTerminal : List Action :=
  [.control (.handshake .accepted .complete),
    .control (.receive (some (.startVolumeScan 1 []))),
    .control (.proceed .complete true), .control (.proceed .complete true),
    .control (.proceed .complete true),
    emptyScan .complete, emptyScan .complete, emptyScan .complete, emptyScan .complete,
    emptyScan .complete]

/-- The terminal is cut off, and the acknowledgement of a heartbeat is not written any more. -/
def cutOffTerminal : List Action :=
  scanUpToTerminal ++
    [.control (.receive (some .heartbeat)), emptyScan .truncated,
      .control (.proceed .complete true)]

/-- The `VolumeList` reply is cut off while the scan worker is about to write its terminal. -/
def cutOffVolumeList : List Action :=
  scanUpToTerminal ++
    [.control (.receive (some .enumerateVolumes)), .control (.proceed .truncated true),
      emptyScan .complete]

/-- A decidable form of `ListsWhole`. -/
def listsWholeCheck (c : Connection) : Action → Bool
  | .control (.proceed outcome _) =>
    !decide (c.control = .listingVolumes) || c.transportFailed || decide (outcome ≠ .truncated)
  | _ => true

theorem listsWhole_of_check (check : c.listsWholeCheck action = true) : c.ListsWhole action := by
  rintro outcome spawned rfl listing unset
  simpa [listsWholeCheck, listing, unset] using check

theorem frameBoundary_kept_cutOff :
    ∃ c, Reachable (Connection.step ⟨2, 3⟩) (· = .start) ListsWhole c ∧
      (∃ event ∈ c.log, event.IsTruncated) ∧ FrameBoundary c.log := by
  have exec : (run (fun c a => if listsWholeCheck c a then Connection.step ⟨2, 3⟩ c a else none)
      .start cutOffTerminal).map (fun c => c.log.map Event.outcome) =
        some [some .complete, some .complete, none, some .truncated] := by
    decide +kernel
  obtain ⟨c, exec, outcomes⟩ := Option.map_eq_some_iff.mp exec
  have reach : Reachable (Connection.step ⟨2, 3⟩) (· = .start) ListsWhole c :=
    .of_checked_run (fun _ _ _ check => listsWhole_of_check check)
      (fun _ _ _ _ _ _ => trivial) (.start rfl) trivial exec
  have cut : some WriteOutcome.truncated ∈ c.log.map Event.outcome := by
    rw [outcomes]
    decide
  exact ⟨c, reach, List.mem_map.mp cut, frameBoundary_kept ⟨2, 3⟩ reach⟩

/-- **A worker writes after a cut-off frame.** -/
theorem frameBoundary_lost :
    ∃ c, Reachable (Connection.step ⟨2, 3⟩) (· = .start) (fun _ _ => True) c ∧
      ¬ FrameBoundary c.log := by
  have exec : (run (Connection.step ⟨2, 3⟩) .start cutOffVolumeList).map
      (fun c => c.log.map Event.outcome) =
        some [some .complete, some .complete, none, some .truncated, some .complete] := by
    decide +kernel
  obtain ⟨c, exec, outcomes⟩ := Option.map_eq_some_iff.mp exec
  refine ⟨c, .of_run (.start rfl) exec, fun boundary => ?_⟩
  have pairs : (c.log.map Event.outcome).Pairwise fun earlier later =>
      earlier = some .truncated → ¬ (later = some .complete ∨ later = some .truncated) :=
    List.pairwise_map.mpr boundary
  rw [outcomes] at pairs
  exact absurd pairs (by decide)

end Connection

end FastFiles.Service
