import FastFiles.Manager.ScanStream
import FastFiles.Manager.Session

/-!
# The flags of the session and the scan traffic

Nothing in a frame tells the manager which attempt it belongs to.  Whether a
completion closes an attempt that has lost none of its batches is decided by two
flags of the session alone: no batch was lost while the attempt was current
(`scanBatchFailed`), and no superseded attempt can still be talking
(`awaitingScanAttemptStarted`).  `SettledFor` is the invariant behind that: a
session with both flags down has no output of an attempt that lost a batch ahead
of it.  It is kept by every move but the creation of a session, which starts with
both flags down whatever is still on its way; for those sessions it speaks of, an
invariant says separately what is ahead when they are created (`inherits`).
-/

namespace FastFiles.Manager

open FastFiles.WorkerStream FastFiles.Transition VolumeState

/-! ## The ledger of the attempts -/

/-- A batch of the attempt was dropped, or the store refused it. -/
def Core.Lost (c : Core) (attempt : Nat) : Prop :=
  Event.batchLost attempt ∈ c.history

instance (c : Core) (attempt : Nat) : Decidable (c.Lost attempt) :=
  inferInstanceAs (Decidable (_ ∈ _))

theorem VolumeState.lost_iff (s : VolumeState) (attempt : Nat) :
    attempt ∈ (s.client scanView).lost ↔ s.core.Lost attempt := by
  refine List.mem_filterMap.trans ⟨?_, fun h => ⟨_, h, rfl⟩⟩
  rintro ⟨event, mem, item⟩
  cases event <;> cases item
  exact mem

theorem VolumeState.appliedBy_iff (s : VolumeState) (attempt i : Nat) :
    (s.client scanView).AppliedBy attempt i ↔ ∃ first last,
      Event.batchApplied attempt first last ∈ s.core.history ∧ first ≤ i ∧ i < last := by
  have entry : ∀ first last, (attempt, first, last) ∈ (s.client scanView).applied ↔
      Event.batchApplied attempt first last ∈ s.core.history := by
    intro first last
    refine List.mem_filterMap.trans ⟨?_, fun h => ⟨_, h, rfl⟩⟩
    rintro ⟨event, mem, item⟩
    cases event <;> cases item
    exact mem
  simp [Client.AppliedBy, entry]

variable {a : Action} {volume : Volume} {s s' : VolumeState} {task : Task}

theorem Moved.lost (owned : s.Owned) (moved : Moved volume s a s') {attempt : Nat}
    (h : s.core.Lost attempt) : s'.core.Lost attempt := by
  rw [← lost_iff] at h ⊢
  exact (moved.scanStep owned).lost_subset h

/-- Only the answer of the store and a dropped frame lose a batch. -/
theorem Task.scanLost_run (other : task.inHand = []) (env : Env) (hand : List Item) (c : Core) :
    ((task.run env c).1.client scanView hand).lost = (c.client scanView hand).lost := by
  cases quiet : task.communicates with
  | false => rw [((task.footprint_run env c).traffic quiet).client]
  | true =>
    cases task with
    | batchApply e a first cursor => cases other
    | openJournal e usn ret =>
      simp only [Task.run, Core.openJournal]
      split <;> rfl
    | journalApply e j o first latest =>
      simp only [Task.run, Core.journalApply]
      split <;> rfl
    | startSend _ _ _ | triggerSend _ _ | dropConnection _ => rfl
    | _ => cases quiet

/-! ## Requested attempts -/

/-- The sections that send `StartVolumeScan`. -/
def Task.sendsScan : Task → Bool
  | .startSend _ _ _ | .triggerSend _ _ => true
  | _ => false

/-- No other section requests an attempt. -/
theorem Task.scanRequested_run (other : task.sendsScan = false) (env : Env) (hand : List Item)
    (c : Core) :
    ((task.run env c).1.client scanView hand).requested = (c.client scanView hand).requested := by
  cases quiet : task.communicates with
  | false => rw [((task.footprint_run env c).traffic quiet).client]
  | true =>
    cases task with
    | startSend _ _ _ | triggerSend _ _ => cases other
    | openJournal | batchApply | journalApply =>
      simp only [Task.run, Core.openJournal, Core.batchApply, Core.journalApply]
      split <;> rfl
    | dropConnection _ => rfl
    | _ => cases quiet

theorem Frame.scanRequested_receive (frame : Frame) (env : Env) (e : Nat) (c : Core) :
    ((frame.receive env e c).1.client scanView []).requested = (c.client scanView []).requested := by
  by_cases batch : ∃ b first cursor, frame = .scanRecordBatch b first cursor
  · obtain ⟨b, first, cursor, rfl⟩ := batch
    simp only [Frame.receive, Core.receiveScanBatch]
    (repeat' split) <;> rfl
  · rw [Frame.scanClient_receive fun b first cursor h => batch ⟨b, first, cursor, h⟩]

/-- Only the sections that send `StartVolumeScan` request an attempt. -/
theorem Moved.scanRequested (moved : Moved volume s a s')
    (other : ∀ t env, a = .run t env → (s.threads t).sendsScan = false) :
    (s'.client scanView).requested = (s.client scanView).requested := by
  cases moved with
  | run t env _ => exact Task.scanRequested_run (other t env rfl) env [] s.core
  | @deliver env e frame core _ taken =>
    show ((frame.receive env e core).1.client scanView []).requested = (s.core.client scanView []).requested
    rw [Frame.scanRequested_receive, Core.client_takeFrame taken]
  | @spawn a t result _ spawned =>
    show (result.1.client scanView []).requested = (s.core.client scanView []).requested
    rw [spawned.sameTraffic.client]
  | core move => exact (move.scanServed []).requested

variable {env : Env}

/-- The completion section accepts only a clean session. -/
theorem Core.receiveScanComplete_accepts {c : Core} {e w : Nat} {was deferred : Bool}
    (h : (c.receiveScanComplete e w env).2 = .completeCheck e was deferred) :
    ∃ session, c.find e = some session ∧ session.Clean ∧ session.scanInProgress = true ∧
      was = session.reconciliationScan ∧ c.paused = false ∧
      (c.receiveScanComplete e w env).1 =
        (c.setSession (Core.closedByComplete session)).record (.completionAccepted w) := by
  unfold Core.receiveScanComplete at h ⊢
  split at h
  · cases h
  · rename_i session found
    split at h
    · cases h
    · rename_i ordered
      split at h
      · cases h
      · rename_i running
        split at h
        · cases h
        · rename_i whole
          split at h
          · cases h
          · rename_i unpaused
            simp only [Bool.not_eq_true, Bool.not_eq_true', Bool.not_eq_false] at *
            cases h
            refine ⟨session, found, ⟨ordered, whole⟩, running, rfl, unpaused, ?_⟩
            simp [ordered, running, whole, unpaused]

/-! ## Clean sessions have nothing lost ahead of them -/

section Settled

variable {volume : Volume} {s : VolumeState}

variable {core : Core} {e : Nat} {session : VolumeSession}

/-- The session the reader looks up is the only one there is. -/
theorem VolumeState.Linked.find (linked : s.Linked) (books : s.core.SameBooks core)
    (known : s.core.ephemeralId = some e) (hs : core.owners.session = some session) :
    core.find e = some session :=
  Core.find_eq_some.mpr ⟨hs, linked.connection session e (books.owners ▸ hs) known⟩

/-- No section of the reader but the store's refusal of a batch, which leads to
`batchMark`, and no section of another thread loses a batch. -/
theorem VolumeState.scanLost_run (owned : s.Owned) (t : ThreadId) (env : Env)
    (unmarked : ∀ e, (s.advance t ((s.threads t).run env s.core)).threads .reader ≠ .batchMark e) :
    ((s.advance t ((s.threads t).run env s.core)).client scanView).lost = (s.client scanView).lost := by
  by_cases answer : ∃ e a first cursor, s.threads t = .batchApply e a first cursor
  · obtain ⟨e, a, first, cursor, task⟩ := answer
    have ht : t = .reader := owned.reader (by rw [task]; rfl)
    subst ht
    rw [task, Task.run, Core.batchApply] at unmarked ⊢
    by_cases ok : env.ok = true
    · rw [if_pos ok]
      rfl
    · rw [if_neg ok] at unmarked
      exact absurd (s.advance_threads_self _ _) (unmarked e)
  · have other : (s.threads t).inHand = [] := by
      cases task : s.threads t with
      | batchApply e a first cursor => exact absurd ⟨e, a, first, cursor, task⟩ answer
      | _ => rfl
    exact Task.scanLost_run other env [] s.core

/-- A session that satisfies `φ` and has both flags down has no output of an attempt
that lost a batch ahead of it, unless the reader is just raising the flag. -/
def VolumeState.SettledFor (φ : VolumeSession → Prop) (s : VolumeState) : Prop :=
  ∀ session, s.core.owners.session = some session → φ session → session.Clean →
    (∀ e, s.threads .reader ≠ .batchMark e) → (s.client scanView).Settled

/-- The sessions that satisfy `φ` after a move did so before it, or nothing lost is
ahead of them. -/
def VolumeState.Inherits (φ : VolumeSession → Prop) (s s' : VolumeState) : Prop :=
  ∀ session', s'.core.owners.session = some session' → φ session' →
    (s'.client scanView).Settled ∨ ∃ session, s.core.owners.session = some session ∧ φ session

variable {φ : VolumeSession → Prop}

theorem VolumeState.SettledFor.run (settled : s.SettledFor φ) (owned : s.Owned)
    (linked : s.Linked) (sound : (s.client scanView).Sound volume.recordCount) (t : ThreadId)
    (env : Env) (busy : s.threads t ≠ .idle)
    (inherits : s.Inherits φ (s.advance t ((s.threads t).run env s.core))) :
    (s.advance t ((s.threads t).run env s.core)).SettledFor φ := by
  intro session' hs fits clean unmarked
  have moved : Moved volume s (.run t env) _ := .run t env busy
  obtain ⟨session, before, change⟩ := Task.session_run hs
  rcases inherits session' hs fits with done | ⟨session₀, before₀, fitted⟩
  · exact done
  cases before.symm.trans before₀
  have unmarked' : ∀ e, s.threads .reader ≠ .batchMark e := by
    intro e task
    by_cases ht : t = .reader
    · -- the flag that `batchMark` sets makes the session unclean
      subst ht
      have found : s.core.find e = some session := Core.find_eq_some.mpr
        ⟨before, linked.reader session e before (by rw [task]; rfl)⟩
      rw [advance_core, task, Task.run, Core.batchMark, found] at hs
      cases hs
      cases clean.2
    · rw [advance_threads_of_ne (Ne.symm ht)] at unmarked
      exact unmarked e task
  exact sound.settled_step (moved.scanStep owned)
    (settled session before fitted (change.clean clean) unmarked')
    (scanLost_run owned t env unmarked)

variable {frame : Frame}

/-- Every frame but a batch leaves the ledger as it is. -/
theorem VolumeState.scanClient_deliver
    (free : s.threads .reader = .idle) (taken : s.core.takeFrame = some (e, frame, core))
    (other : ∀ a first cursor, frame ≠ .scanRecordBatch a first cursor) :
    (s.advance .reader (frame.receive env e core)).client scanView =
      { s.client scanView with items := core.stream scanView } := by
  have idle : s.client scanView = s.core.client scanView [] := by
    rw [client, free]
    rfl
  have empty : scanView.inHand (frame.receive env e core).2 = [] :=
    (frame.receive_first env e core).inHand other
  rw [client, advance_threads_self, advance_core, empty,
    Frame.scanClient_receive other, idle, Core.client_takeFrame taken]
  rfl

/-- A batch is lost on delivery unless the session takes it. -/
theorem VolumeState.scanLost_deliver (linked : s.Linked) (free : s.threads .reader = .idle)
    (taken : s.core.takeFrame = some (e, frame, core))
    (before : s.core.owners.session = some session) (clean : session.Clean)
    (kept : (frame.receive env e core).1.owners.session = some session) :
    ((s.advance .reader (frame.receive env e core)).client scanView).lost = (s.client scanView).lost := by
  by_cases batch : ∃ a first cursor, frame = .scanRecordBatch a first cursor
  · obtain ⟨a, first, cursor, rfl⟩ := batch
    have books := Core.SameBooks.takeFrame taken
    have found := linked.find books (Core.ephemeralId_takeFrame taken).1 (books.owners ▸ before)
    simp only [Frame.receive, Core.receiveScanBatch, found, clean.1, Bool.false_eq_true,
      if_false] at kept ⊢
    split at kept
    · -- a paused volume would raise the flag
      have failed : true = _ := congrArg VolumeSession.scanBatchFailed (Option.some.inj kept)
      rw [clean.2] at failed
      cases failed
    · rename_i running
      rw [if_neg running, client, client, free]
      show _ = (s.core.client scanView []).lost
      rw [Core.client_takeFrame taken]
      rfl
  · rw [scanClient_deliver free taken fun a first cursor h =>
      batch ⟨a, first, cursor, h⟩]

variable (settled : s.SettledFor φ) (owned : s.Owned) (linked : s.Linked)
  (sound : (s.client scanView).Sound volume.recordCount)

include settled owned linked sound

theorem VolumeState.SettledFor.deliver (free : s.threads .reader = .idle)
    (taken : s.core.takeFrame = some (e, frame, core))
    (inherits : s.Inherits φ (s.advance .reader (frame.receive env e core))) :
    (s.advance .reader (frame.receive env e core)).SettledFor φ := by
  intro session' hs fits clean _
  have moved : Moved volume s (.deliver env) _ := .deliver env free taken
  have books := Core.SameBooks.takeFrame taken
  have head : (s.client scanView).items =
      (scanView.frameItem frame).toList ++ core.stream scanView :=
    client_items rfl free taken
  have unmarked : ∀ e, s.threads .reader ≠ .batchMark e := by simp [free]
  rcases inherits session' hs fits with done | ⟨session, before, fitted⟩
  · exact done
  have hcore : core.owners.session = some session := books.owners ▸ before
  rcases Frame.session_receive hs with ⟨session₀, hcore₀, change⟩ | ⟨rfl, gone, -⟩
  · cases hcore.symm.trans hcore₀
    cases change with
    | dropped a first cursor => cases clean.2
    | released a running waiting =>
      rw [scanClient_deliver free taken (by simp)]
      exact sound.settled_of_ends head (.inl trivial)
    | completed | failed =>
      rw [scanClient_deliver free taken (by simp)]
      exact sound.settled_of_ends head (.inr trivial)
    | opened o j current =>
      refine sound.settled_step (moved.scanStep owned)
        (settled session before fitted clean unmarked) ?_
      rw [scanClient_deliver free taken (by simp)]
    | keep =>
      exact sound.settled_step (moved.scanStep owned)
        (settled _ before fitted clean unmarked)
        (scanLost_deliver linked free taken before clean hs)
  · -- the connection's only session would have been found
    rw [linked.find books (Core.ephemeralId_takeFrame taken).1 hcore] at gone
    cases gone

/-- **Every move keeps the invariant for the sessions that inherit it.** -/
theorem VolumeState.SettledFor.moved {s' : VolumeState} (moved : Moved volume s a s')
    (inherits : s.Inherits φ s') : s'.SettledFor φ := by
  have step := moved.scanStep owned
  cases moved with
  | run t env busy => exact settled.run owned linked sound t env busy inherits
  | deliver env free taken => exact settled.deliver owned linked sound free taken inherits
  | @spawn a t result free spawned =>
    intro session' hs fits clean unmarked
    rw [advance_core, spawned.owners_only.2] at hs
    rw [advance_threads_of_ne spawned.ne_reader] at unmarked
    refine sound.settled_step step (settled session' hs fits clean unmarked) ?_
    show (result.1.client scanView []).lost = (s.core.client scanView []).lost
    rw [spawned.sameTraffic.client]
  | core move =>
    intro session' hs fits clean unmarked
    exact sound.settled_step step (settled session' (move.session hs) fits clean unmarked)
      (move.scanServed []).lost

end Settled

end FastFiles.Manager
