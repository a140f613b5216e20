import FastFiles.Foundations.Transition
import FastFiles.Index.Entry

/-!
# Queued directory requests

`RequestDirectory` and the thread of `InvalidationLoop`.  Writes are numbered in the order in which
they start.  A call notes how many had started when it began.
-/

namespace FastFiles.Ui

open Transition
open Index (Text)

local instance : LawfulBEq Text := inferInstance

/-- kMaxPathLengthChars. -/
def maxPathLengthChars : Nat := 32767

/-- Where the sending thread is. -/
inductive Sender where
  | waiting
  /-- Behind the copy of the front, before `WriteFrameOverlapped`. -/
  | taken (path : Text)
  | writing (path : Text) (write : Nat)
  /-- The frame was accepted; the front has yet to be removed. -/
  | sent (path : Text) (write : Nat)
  deriving DecidableEq

/-- An accepted call. -/
structure Call where
  path : Text
  /-- The writes started when it began. -/
  began : Nat
  deriving DecidableEq

structure Requests where
  running : Bool := true
  connected : Bool := true
  invalidationQueue : List Text := []
  sender : Sender := .waiting
  /-- The calls between their check and the lock. -/
  entering : List Call := []
  /-- History: the writes started. -/
  started : Nat := 0
  /-- History: the frames written, with their writes. -/
  frames : List (Text × Nat) := []
  /-- History: the calls that have returned, with the sender they met. -/
  returned : List (Call × Sender) := []

inductive RequestAction where
  | call (path : Text)
  /-- The locked part of a call. -/
  | queue (call : Call)
  | take
  | write
  | written (accepted : Bool)
  | pop
  | connect (up : Bool)
  | stop

namespace Requests

def step (s : Requests) : RequestAction → Option Requests
  | .call path =>
    if path = [] ∨ maxPathLengthChars < path.length ∨ s.running = false then some s
    else some { s with entering := s.entering ++ [⟨path, s.started⟩] }
  | .queue call =>
    if call ∈ s.entering then
      some { s with
        entering := s.entering.erase call
        returned := (call, s.sender) :: s.returned
        invalidationQueue :=
          if call.path ∈ s.invalidationQueue then s.invalidationQueue
          else s.invalidationQueue ++ [call.path] }
    else none
  | .take =>
    match s.sender, s.invalidationQueue with
    | .waiting, path :: _ =>
      if s.running && s.connected then some { s with sender := .taken path } else none
    | _, _ => none
  | .write =>
    match s.sender with
    | .taken path =>
      if s.connected then
        some { s with sender := .writing path s.started, started := s.started + 1 }
      else some { s with sender := .waiting }
    | _ => none
  | .written accepted =>
    match s.sender with
    | .writing path write =>
      if accepted then
        some { s with sender := .sent path write, frames := (path, write) :: s.frames }
      else some { s with sender := .waiting, connected := false }
    | _ => none
  | .pop =>
    match s.sender with
    | .sent path _ => some { s with
        sender := .waiting
        invalidationQueue :=
          if s.invalidationQueue.head? = some path then s.invalidationQueue.tail
          else s.invalidationQueue }
    | _ => none
  | .connect up => some { s with connected := up }
  | .stop => some { s with running := false }

/-- The thread is at a write of the call's path that had started when the call began. -/
def Absorbs (call : Call) : Sender → Prop
  | .writing path write | .sent path write => path = call.path ∧ write < call.began
  | _ => False

/-- A frame for the call's path whose write started after the call began. -/
def Served (s : Requests) (call : Call) : Prop :=
  ∃ write, call.began ≤ write ∧ (call.path, write) ∈ s.frames

structure Sound (s : Requests) : Prop where
  entering : ∀ call ∈ s.entering, call.began ≤ s.started
  returned : ∀ call met, (call, met) ∈ s.returned → call.began ≤ s.started
  sent : ∀ path write, s.sender = .sent path write → (path, write) ∈ s.frames
  kept : ∀ call met, (call, met) ∈ s.returned → ¬ Absorbs call met →
    s.Served call ∨ (call.path ∈ s.invalidationQueue ∧ ¬ Absorbs call s.sender)

variable {s s' : Requests} {call : Call} {path : Text} {write : Nat}

theorem Sound.queue (sound : s.Sound) (enters : call ∈ s.entering)
    (moved : s.step (.queue call) = some s') : s'.Sound := by
  simp only [step, if_pos enters, Option.some.injEq] at moved
  subst moved
  have queued : ∀ path, path ∈ s.invalidationQueue ∨ path = call.path → path ∈
      (if call.path ∈ s.invalidationQueue then s.invalidationQueue
        else s.invalidationQueue ++ [call.path]) := by
    rintro path (old | rfl) <;> split_ifs with there <;> simp_all
  refine ⟨fun other mem => sound.entering other (List.mem_of_mem_erase mem),
    fun other met mem => ?_, sound.sent, fun other met mem clear => ?_⟩
  · rcases List.mem_cons.mp mem with same | old
    · cases same
      exact sound.entering call enters
    · exact sound.returned other met old
  · rcases List.mem_cons.mp mem with same | old
    · cases same
      exact .inr ⟨queued _ (.inr rfl), clear⟩
    · exact (sound.kept other met old clear).imp_right (.imp_left fun old => queued _ (.inl old))

theorem Sound.pop (sound : s.Sound) (stands : s.sender = .sent path write)
    (moved : s.step .pop = some s') : s'.Sound := by
  simp only [step, stands, Option.some.injEq] at moved
  subst moved
  refine ⟨sound.entering, sound.returned, by simp, fun other met mem clear => ?_⟩
  refine (sound.kept other met mem clear).elim .inl fun ⟨queued, free⟩ => ?_
  by_cases same : path = other.path
  · -- the frame just written answers every call it does not absorb
    subst same
    refine .inl ⟨write, not_lt.mp fun early => free ?_, sound.sent _ _ stands⟩
    simpa [stands, Absorbs] using early
  · refine .inr ⟨?_, id⟩
    dsimp only
    split_ifs with front
    · obtain ⟨rest, shape⟩ := List.head?_eq_some_iff.mp front
      rw [shape] at queued ⊢
      exact (List.mem_cons.mp queued).resolve_left (Ne.symm same)
    · exact queued

/-- A step of the sender that leaves the queue and the calls alone. -/
theorem Sound.sender (sound : s.Sound) {sender : Sender} {started : Nat}
    {frames : List (Text × Nat)} {connected : Bool} (later : s.started ≤ started)
    (grows : s.frames ⊆ frames)
    (sent : ∀ path write, sender = .sent path write → (path, write) ∈ frames)
    (absorbs : ∀ call, call.began ≤ s.started → Absorbs call sender → Absorbs call s.sender) :
    Sound { s with sender, started, frames, connected } := by
  refine ⟨fun call mem => (sound.entering call mem).trans later,
    fun call met mem => (sound.returned call met mem).trans later, sent,
    fun call met mem clear => (sound.kept call met mem clear).imp ?_ ?_⟩
  · exact fun ⟨write, after, frame⟩ => ⟨write, after, grows frame⟩
  · exact .imp_right fun free held => free (absorbs call (sound.returned call met mem) held)

theorem Sound.step (sound : s.Sound) {action : RequestAction}
    (moved : s.step action = some s') : s'.Sound := by
  unfold Requests.step at moved
  cases action with
  | call path =>
    dsimp only at moved
    split_ifs at moved <;> cases moved
    · exact sound
    · refine ⟨fun call mem => ?_, sound.returned, sound.sent, sound.kept⟩
      rcases List.mem_append.mp mem with old | new
      · exact sound.entering call old
      · rw [List.mem_singleton.mp new]
  | queue call =>
    have enters : call ∈ s.entering := by
      by_contra absent
      simp [absent] at moved
    exact sound.queue enters moved
  | take =>
    dsimp only at moved
    split at moved
    · obtain ⟨-, rfl⟩ := of_guarded moved
      exact sound.sender le_rfl (List.Subset.refl _) (by simp) (by simp [Absorbs])
    · cases moved
  | write =>
    dsimp only at moved
    split at moved
    · split_ifs at moved <;> cases moved
      · refine sound.sender (Nat.le_succ _) (List.Subset.refl _) (by simp) ?_
        exact fun call before held => absurd held.2 before.not_gt
      · exact sound.sender le_rfl (List.Subset.refl _) (by simp) (by simp [Absorbs])
    · cases moved
  | written accepted =>
    dsimp only at moved
    split at moved
    · rename_i stands
      split_ifs at moved <;> cases moved
      · refine sound.sender le_rfl (List.subset_cons_self _ _) (by simp) fun call _ held => ?_
        rw [stands]
        exact held
      · exact sound.sender le_rfl (List.Subset.refl _) (by simp) (by simp [Absorbs])
    · cases moved
  | pop =>
    cases stands : s.sender with
    | sent path write => exact sound.pop stands moved
    | _ => simp [stands] at moved
  | connect up =>
    cases moved
    exact sound.sender le_rfl (List.Subset.refl _) sound.sent fun _ _ held => held
  | stop =>
    cases moved
    exact ⟨sound.entering, sound.returned, sound.sent, sound.kept⟩

/-- **A call no write under way absorbs is honoured.**  Its path is queued until a frame for it is
written whose write started after the call began. -/
theorem unabsorbed_call_honoured (reach : Reachable step (· = {}) (fun _ _ => True) s)
    {met : Sender} (returned : (call, met) ∈ s.returned) (free : ¬ Absorbs call met) :
    s.Served call ∨ call.path ∈ s.invalidationQueue := by
  have sound : s.Sound := reach.always ⟨by simp, by simp, by simp, by simp⟩ Sound.step
  exact (sound.kept call met returned free).imp_right And.left

/-- A second call begins before the write of the first one's frame and is merged into the queue
while it is under way; that frame is its own as well. -/
theorem unabsorbed_call_honoured_first : ∃ s : Requests,
    (⟨[0x43], 0⟩, .writing [0x43] 0) ∈ s.returned ∧ [0x43] ∉ s.invalidationQueue ∧
      s.Served ⟨[0x43], 0⟩ := by
  have served := unabsorbed_call_honoured (.of_run (.start rfl) (show run step {}
    [.call [0x43], .queue ⟨[0x43], 0⟩, .take, .call [0x43], .write, .queue ⟨[0x43], 0⟩,
      .written true, .pop] = some _ from rfl)) (.head _) (fun absorbed => absurd absorbed.2 (by decide))
  exact ⟨_, .head _, List.not_mem_nil, served.resolve_right List.not_mem_nil⟩

/-- A second call for a folder comes behind the frame of the first and before it leaves the queue. -/
theorem second_call_absorbed :
    ∃ s, Reachable step (· = {}) (fun _ _ => True) s ∧ (∃ met, (⟨[0x43], 1⟩, met) ∈ s.returned) ∧
      ¬ s.Served ⟨[0x43], 1⟩ ∧ [0x43] ∉ s.invalidationQueue :=
  ⟨_, .of_run (.start rfl) (show run step {} [.call [0x43], .queue ⟨[0x43], 0⟩, .take, .write,
    .written true, .call [0x43], .queue ⟨[0x43], 1⟩, .pop] = some _ from rfl),
    ⟨_, .head _⟩, by simp [Served], by simp⟩

end Requests

end FastFiles.Ui
