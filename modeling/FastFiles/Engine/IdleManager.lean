import FastFiles.Foundations.Transition

/-!
# Dropping an idle connection

`IdleManager`: the monitor thread and any number of threads that report activity.  What a thread
does under the mutex is one step.  The callbacks run outside; each of them returns in a step of its
own.  Whether the timeout has passed is up to the environment.

A drop that is the last callback to have returned stands for a time without activity, and the next
activity reconnects (`idle_drop_never_strands`).
-/

namespace FastFiles.Engine

open Transition

/-- Where the monitor thread is. -/
inductive Monitor where
  | waiting
  /-- In `onIdleTimeout_`, decided at a generation of activity. -/
  | maintaining (epoch : UInt64)
  | dropping
  | reconnecting
  | ended
  deriving DecidableEq

/-- The callbacks that change the connection. -/
inductive ConnectionCallback where
  | drop
  | reconnect
  deriving DecidableEq

structure IdleManager where
  droppedForIdle : Bool := false
  dropInFlight : Bool := false
  reconnectPending : Bool := false
  activityGeneration : UInt64 := 0
  running : Bool := true
  monitor : Monitor := .waiting
  /-- The reporting threads that have decided to reconnect and have not returned from it. -/
  reconnects : Nat := 0
  /-- History: the last callback to return. -/
  lastReturned : Option ConnectionCallback := none
  /-- History: whether activity was recorded since the last drop was begun. -/
  activitySinceDrop : Bool := false
  deriving DecidableEq

inductive IdleAction where
  /-- `NotifyActivity`, up to its unlock. -/
  | notifyActivity
  /-- A reporting thread returns from `onReconnectNeeded_`. -/
  | reconnected
  /-- The monitor wakes up, with the timeout passed or not. -/
  | wake (idle : Bool)
  | maintained
  | dropped
  /-- The monitor returns from `onReconnectNeeded_`. -/
  | published
  | stop
  deriving DecidableEq

namespace IdleManager

variable (m : IdleManager)

def notifyActivity : IdleManager :=
  let m := { m with activityGeneration := m.activityGeneration + 1, activitySinceDrop := true }
  if m.droppedForIdle then
    if m.dropInFlight then { m with reconnectPending := true }
    else { m with droppedForIdle := false, reconnects := m.reconnects + 1 }
  else m

/-- The head of the loop. -/
def wake (idle : Bool) : IdleManager :=
  if !m.running then { m with monitor := .ended }
  else if !m.droppedForIdle && idle then
    { m with droppedForIdle := true, monitor := .maintaining m.activityGeneration }
  else m

/-- The drop is begun if no activity was recorded during maintenance. -/
def maintained (epoch : UInt64) : IdleManager :=
  if m.activityGeneration = epoch && m.droppedForIdle then
    { m with dropInFlight := true, monitor := .dropping, activitySinceDrop := false }
  else { m with monitor := .waiting }

def dropped : IdleManager :=
  let m := { m with dropInFlight := false, lastReturned := some .drop }
  if m.reconnectPending then
    { m with reconnectPending := false, droppedForIdle := false, monitor := .reconnecting }
  else { m with monitor := .waiting }

def step : IdleAction → Option IdleManager
  | .notifyActivity => some m.notifyActivity
  | .reconnected =>
    if m.reconnects = 0 then none
    else some { m with reconnects := m.reconnects - 1, lastReturned := some .reconnect }
  | .wake idle => if m.monitor = .waiting then some (m.wake idle) else none
  | .maintained =>
    match m.monitor with
    | .maintaining epoch => some (m.maintained epoch)
    | _ => none
  | .dropped => if m.monitor = .dropping then some m.dropped else none
  | .published =>
    if m.monitor = .reconnecting then
      some { m with monitor := .waiting, lastReturned := some .reconnect }
    else none
  | .stop => some { m with running := false }

/-- No drop and no reconnect is running or about to run. -/
def Quiet : Prop :=
  m.monitor ≠ .dropping ∧ m.monitor ≠ .reconnecting ∧ m.reconnects = 0

instance (m : IdleManager) : Decidable m.Quiet :=
  inferInstanceAs (Decidable (_ ∧ _))

/-! ## The invariant -/

structure Sound (m : IdleManager) : Prop where
  inFlight : m.dropInFlight = true ↔ m.monitor = .dropping
  /-- Activity during a drop is owed a reconnect. -/
  dropping : m.monitor = .dropping →
    m.droppedForIdle = true ∧ m.reconnectPending = m.activitySinceDrop
  pending : m.reconnectPending = true → m.monitor = .dropping
  settled : m.lastReturned = some .drop → m.Quiet →
    m.droppedForIdle = true ∧ m.activitySinceDrop = false

variable {m m' : IdleManager}

theorem Sound.elsewhere (sound : m.Sound) (stands : m.monitor ≠ .dropping) :
    m.dropInFlight = false ∧ m.reconnectPending = false :=
  ⟨by simpa using mt sound.inFlight.mp stands, by simpa using mt sound.pending stands⟩

theorem sound_of_elsewhere (stands : m.monitor ≠ .dropping)
    (plain : m.dropInFlight = false ∧ m.reconnectPending = false)
    (settled : m.lastReturned = some .drop → m.Quiet →
      m.droppedForIdle = true ∧ m.activitySinceDrop = false) : m.Sound :=
  ⟨by simp [plain, stands], fun drops => absurd drops stands, by simp [plain], settled⟩

theorem Sound.notifyActivity (sound : m.Sound) : m.notifyActivity.Sound := by
  unfold IdleManager.notifyActivity
  dsimp only
  split_ifs with idle flying
  · have drops := sound.inFlight.mp flying
    exact ⟨sound.inFlight, fun _ => ⟨idle, rfl⟩, fun _ => drops, fun _ quiet => absurd drops quiet.1⟩
  · have stands : m.monitor ≠ .dropping := fun drops => flying (sound.inFlight.mpr drops)
    exact sound_of_elsewhere stands (sound.elsewhere stands) fun _ quiet =>
      absurd quiet.2.2 (Nat.succ_ne_zero _)
  · have stands : m.monitor ≠ .dropping := fun drops => idle (sound.dropping drops).1
    exact sound_of_elsewhere stands (sound.elsewhere stands) fun last quiet =>
      absurd (sound.settled last quiet).1 idle

theorem Sound.wake (sound : m.Sound) (waits : m.monitor = .waiting) (idle : Bool) :
    (m.wake idle).Sound := by
  have stands : m.monitor ≠ .dropping := by simp [waits]
  have settled (last : m.lastReturned = some .drop) (none : m.reconnects = 0) :=
    sound.settled last ⟨stands, by simp [waits], none⟩
  unfold IdleManager.wake
  split_ifs with ended decides
  · exact sound_of_elsewhere (by simp) (sound.elsewhere stands) fun last quiet =>
      settled last quiet.2.2
  · refine sound_of_elsewhere (by simp) (sound.elsewhere stands) fun last quiet => ?_
    -- a drop that no reconnect followed has left the flag set
    simp [(settled last quiet.2.2).1] at decides
  · exact sound

theorem Sound.maintained (sound : m.Sound) {epoch : UInt64}
    (stands : m.monitor = .maintaining epoch) : (m.maintained epoch).Sound := by
  have elsewhere : m.monitor ≠ .dropping := by simp [stands]
  obtain ⟨-, nothing⟩ := sound.elsewhere elsewhere
  unfold IdleManager.maintained
  split_ifs with still
  · have idle : m.droppedForIdle = true := (Bool.and_eq_true_iff.mp still).2
    exact ⟨by simp, fun _ => ⟨idle, nothing⟩, by simp [nothing], fun _ quiet => absurd rfl quiet.1⟩
  · exact sound_of_elsewhere (by simp) (sound.elsewhere elsewhere) fun last quiet =>
      sound.settled last ⟨elsewhere, by simp [stands], quiet.2.2⟩

theorem Sound.dropped (sound : m.Sound) (drops : m.monitor = .dropping) : m.dropped.Sound := by
  obtain ⟨idle, owed⟩ := sound.dropping drops
  unfold IdleManager.dropped
  dsimp only
  split_ifs with pending
  · exact sound_of_elsewhere (by simp) ⟨rfl, rfl⟩ fun _ quiet => absurd rfl quiet.2.1
  · have nothing : m.reconnectPending = false := by simpa using pending
    exact sound_of_elsewhere (by simp) ⟨rfl, nothing⟩ fun _ _ => ⟨idle, owed ▸ nothing⟩

theorem Sound.step (sound : m.Sound) {action : IdleAction} (moved : m.step action = some m') :
    m'.Sound := by
  unfold IdleManager.step at moved
  cases action with
  | notifyActivity =>
    cases moved
    exact sound.notifyActivity
  | reconnected =>
    obtain ⟨-, same⟩ := Option.ite_none_left_eq_some.mp moved
    cases same
    exact ⟨sound.inFlight, sound.dropping, sound.pending, by simp⟩
  | wake idle =>
    obtain ⟨waits, rfl⟩ := of_guarded moved
    exact sound.wake waits idle
  | maintained =>
    dsimp only at moved
    split at moved
    · cases moved
      exact sound.maintained ‹_›
    · cases moved
  | dropped =>
    obtain ⟨drops, rfl⟩ := of_guarded moved
    exact sound.dropped drops
  | published =>
    obtain ⟨stands, rfl⟩ := of_guarded moved
    exact sound_of_elsewhere (by simp) (sound.elsewhere (by simp [stands])) (by simp)
  | stop =>
    cases moved
    exact ⟨sound.inFlight, sound.dropping, sound.pending, sound.settled⟩

/-- **A drop never strands activity.** -/
theorem idle_drop_never_strands (reach : Reachable step (· = {}) (fun _ _ => True) m)
    (quiet : m.Quiet) (last : m.lastReturned = some .drop) :
    m.activitySinceDrop = false ∧
      ∃ next, m.step .notifyActivity = some next ∧ next.reconnects = m.reconnects + 1 := by
  have sound : m.Sound := reach.always ⟨by simp, by simp, by simp, by simp⟩ Sound.step
  obtain ⟨idle, none⟩ := sound.settled last quiet
  have grounded : ¬ m.dropInFlight = true := mt sound.inFlight.mp quiet.1
  exact ⟨none, _, rfl, by simp [notifyActivity, idle, grounded]⟩

/-- Activity during maintenance calls off a drop, activity during the next one makes the monitor
reconnect, and the third drop meets none. -/
def thirdDrop : List IdleAction :=
  [.notifyActivity, .wake true, .notifyActivity, .reconnected, .maintained,
    .wake true, .maintained, .notifyActivity, .dropped, .published,
    .wake true, .maintained, .dropped]

theorem idle_drop_never_strands_once :
    ∃ m : IdleManager, run step {} thirdDrop = some m ∧ m.activityGeneration = 3 ∧
      m.activitySinceDrop = false ∧
      ∃ next, m.step .notifyActivity = some next ∧ next.reconnects = m.reconnects + 1 :=
  ⟨_, rfl, rfl, idle_drop_never_strands (.of_run (.start rfl)
    (show run step {} thirdDrop = some _ from rfl)) (by decide) rfl⟩

end IdleManager

end FastFiles.Engine
