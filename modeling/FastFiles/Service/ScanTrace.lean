import FastFiles.Service.Connection

/-!
# What a scan worker has done

`ScanTask.Trace` relates the point a scan worker has reached to what it has done so far:
which answers it got from the volume, which records it took and which frames it wrote.
It is kept by every move of the worker, whatever its surroundings answer.

`EndsAt` is what the scanner takes for the end of the enumeration: the end-of-file error,
or a reply without a usable record that does not move forward.
-/

namespace FastFiles.Service

open Protocol ScanTask

/-! ## What a worker has done -/

/-- The reply ends the enumeration. -/
def EndsAt (reference : UInt64) : EnumReply → Prop
  | .error endOfFile => endOfFile = true
  | .bytes data => 8 ≤ data.length ∧ nextEntry (data.drop 8) = none ∧
      Codec.uint64.decode (data.take 8) ≤ reference

namespace ScanEvent

def reply : ScanEvent → Option (UInt64 × EnumReply)
  | replied reference reply => some (reference, reply)
  | _ => none

def taken : ScanEvent → Option MftRecordV2
  | took record => some record
  | _ => none

def batch : ScanEvent → List MftRecordV2
  | wrote frame _ => frame.records
  | _ => []

end ScanEvent

/-- The last answer of the volume. -/
def lastReply (events : List ScanEvent) : Option (UInt64 × EnumReply) :=
  (events.filterMap ScanEvent.reply).getLast?

theorem lastReply_append (events : List ScanEvent) (event : ScanEvent) :
    lastReply (events ++ [event]) = event.reply.or (lastReply events) := by
  cases event <;> simp [lastReply, ScanEvent.reply]

/-- The enumeration came to its end. -/
def ReachedEnd (events : List ScanEvent) : Prop :=
  ∃ reference reply, lastReply events = some (reference, reply) ∧ EndsAt reference reply

/-- Every frame was written completely, and the batches hold every record taken but those
still pending. -/
structure Written (events : List ScanEvent) (pending : List MftRecordV2) : Prop where
  complete : ∀ frame outcome, .wrote frame outcome ∈ events → outcome = .complete
  records : events.flatMap ScanEvent.batch ++ pending = events.filterMap ScanEvent.taken

namespace Written

variable {events : List ScanEvent} {pending : List MftRecordV2}

theorem nil : Written [] [] :=
  ⟨(fun _ _ mem => nomatch mem), rfl⟩

theorem append (written : Written events pending) (event : ScanEvent)
    {pending' : List MftRecordV2} (whole : ∀ frame outcome, event = .wrote frame outcome →
      outcome = .complete) (records : event.batch ++ pending' = pending ++ event.taken.toList) :
    Written (events ++ [event]) pending' := by
  constructor
  · intro frame outcome mem
    rcases List.mem_append.mp mem with old | new
    · exact written.complete frame outcome old
    · exact whole frame outcome (List.mem_singleton.mp new).symm
  · cases taken : event.taken <;> simp_all [← written.records]

theorem append_batch (written : Written events pending) (cursor : List UInt8) :
    Written (events ++ [.wrote (.batch pending cursor) .complete]) [] := by
  refine written.append _ ?_ rfl
  rintro _ _ ⟨⟩
  rfl

end Written

/-! ## The trace of a task -/

namespace ScanLocals

/-- Inside the outer loop. -/
structure Enumerating (events : List ScanEvent) (l : ScanLocals) : Prop where
  goesOn : l.enumerationEnded = false
  written : l.writeFailed = false → Written events l.batch

/-- After the outer loop: an undisturbed scan is here because the enumeration ended. -/
structure Finishing (shouldStop : Bool) (events : List ScanEvent) (pending : List MftRecordV2)
    (l : ScanLocals) : Prop where
  written : l.writeFailed = false → Written events pending
  ended : shouldStop = false → l.writeFailed = false → l.enumerationEnded = true
  reached : l.enumerationEnded = true → l.enumerationFailed = false → ReachedEnd events

theorem Finishing.requestStop {shouldStop : Bool} {events : List ScanEvent}
    {pending : List MftRecordV2} {l : ScanLocals}
    (finishing : l.Finishing shouldStop events pending) : l.Finishing true events pending :=
  ⟨finishing.written, (fun running => nomatch running), finishing.reached⟩

end ScanLocals

/-- The buffer comes from the last reply; its rest is untouched until it had a record. -/
structure EnumBuffer.Traced (events : List ScanEvent) (l : ScanLocals) (buffer : EnumBuffer)
    (data : List UInt8) : Prop where
  reply : lastReply events = some (l.nextFileReference, .bytes data)
  long : 8 ≤ data.length
  next : buffer.next = Codec.uint64.decode (data.take 8)
  rest : buffer.hadRecords = false → buffer.rest = data.drop 8

/-- What the worker has done to come to a task. -/
def ScanTask.Trace (shouldStop : Bool) (events : List ScanEvent) : ScanTask → Prop
  | .begin _ | .opening _ | .deliverFailed => Written events []
  | .enumerating l => l.Enumerating events
  | .sendingBuffer l => l.writeFailed = false ∧ l.Enumerating events
  | .consuming l buffer => l.Enumerating events ∧ ∃ data, buffer.Traced events l data
  | .sendingFull l buffer =>
    l.writeFailed = false ∧ l.Enumerating events ∧ ∃ data, buffer.Traced events l data
  | .consumed l buffer =>
    l.Enumerating events ∧ ∃ data, buffer.Traced events l data ∧
      (shouldStop = false → l.writeFailed = false → buffer.hadRecords = false →
        nextEntry (data.drop 8) = none)
  | .draining l => l.Finishing shouldStop events l.batch
  | .sendingRest l => l.writeFailed = false ∧ l.Finishing shouldStop events l.batch
  | .finishing l => l.Finishing shouldStop events []
  | .terminal success => Written events [] ∧ (success = true → ReachedEnd events)
  | .done _ => True

variable {task : ScanTask}

/-- A stop request asks less. -/
theorem ScanTask.Trace.requestStop {shouldStop : Bool} {events : List ScanEvent}
    (trace : task.Trace shouldStop events) : task.Trace true events := by
  cases task with
  | consumed l buffer =>
    obtain ⟨held, data, traced, -⟩ := trace
    exact ⟨held, data, traced, fun running => by cases running⟩
  | draining _ | finishing _ => exact ScanLocals.Finishing.requestStop trace
  | sendingRest l => exact ⟨trace.1, trace.2.requestStop⟩
  | _ => exact trace

/-- What one move adds to the trace. -/
def ScanTask.newEvents (env : ScanEnv) (outcome : WriteOutcome) (task : ScanTask) :
    List ScanEvent :=
  match task.frame with
  | some frame => [.wrote frame outcome]
  | none => (task.observed env).toList

variable {outcome : WriteOutcome}

theorem ScanTask.newEvents_of_quiet {env : ScanEnv}
    (quiet : task.frame = none) (unobserved : task.observed env = none) (events : List ScanEvent) :
    events ++ task.newEvents env outcome = events := by
  rw [newEvents, quiet, unobserved]
  exact List.append_nil events

section Step

variable {env : ScanEnv} {events : List ScanEvent} {l : ScanLocals} {buffer : EnumBuffer}

section

variable (held : l.Enumerating events) {data : List UInt8}

include held

/-- The head of the outer loop. -/
theorem ScanTask.Trace.enumerateNext :
    (ScanTask.enumerateNext env l).Trace env.shouldStop
      (events ++ ((ScanTask.enumerating l).observed env).toList) := by
  unfold ScanTask.enumerateNext
  simp only [ScanTask.observed, held.goesOn, Bool.false_or]
  by_cases leaves : (env.shouldStop || l.writeFailed) = true
  · rw [if_pos leaves, if_pos leaves, Option.toList_none, List.append_nil]
    refine ⟨held.written, fun running sound => ?_, fun ended => ?_⟩
    · rw [running, sound] at leaves
      cases leaves
    · rw [held.goesOn] at ended
      cases ended
  · rw [if_neg leaves, if_neg leaves, Option.toList_some]
    rw [Bool.not_eq_true, Bool.or_eq_false_iff] at leaves
    have all := (held.written leaves.2).append (.replied l.nextFileReference
      (env.volume.enumerate l.nextFileReference)) nofun (List.append_nil _).symm
    cases reply : env.volume.enumerate l.nextFileReference with
    | error endOfFile =>
      rw [reply] at all
      refine ⟨fun _ => all, fun _ _ => rfl, fun _ succeeded => ?_⟩
      refine ⟨l.nextFileReference, .error endOfFile, lastReply_append _ _, ?_⟩
      exact (Bool.not_eq_false' endOfFile).mp succeeded
    | bytes data =>
      rw [reply] at all
      simp only
      split_ifs with short
      · exact ⟨fun _ => all, fun _ _ => rfl, fun _ succeeded => by cases succeeded⟩
      · refine ⟨⟨held.goesOn, fun _ => all⟩, data, lastReply_append _ _, ?_, rfl, ?_⟩
        · exact Nat.not_lt.mp short
        · exact fun _ => rfl

/-- The loop over one buffer. -/
theorem ScanTask.Trace.consumeNext (traced : buffer.Traced events l data) :
    (ScanTask.consumeNext env l buffer).Trace env.shouldStop
      (events ++ ((ScanTask.consuming l buffer).observed env).toList) := by
  unfold ScanTask.consumeNext
  simp only [ScanTask.observed]
  by_cases leaves : (env.shouldStop || l.writeFailed) = true
  · rw [if_pos leaves, if_pos leaves, Option.toList_none, List.append_nil]
    refine ⟨held, data, traced, fun running sound => ?_⟩
    rw [running, sound] at leaves
    cases leaves
  · rw [if_neg leaves, if_neg leaves]
    cases entry : nextEntry buffer.rest with
    | none =>
      rw [Option.bind_none, Option.toList_none, List.append_nil]
      refine ⟨held, data, traced, fun _ _ untouched => ?_⟩
      rw [← traced.rest untouched]
      exact entry
    | some found =>
      obtain ⟨frn, after⟩ := found
      simp only [Option.bind_some]
      cases env.volume.read frn with
      | none =>
        rw [Option.map_none, Option.toList_none, List.append_nil]
        exact ⟨held, data, traced.reply, traced.long, traced.next, fun had => by cases had⟩
      | some parsed =>
        rw [Bool.not_eq_true, Bool.or_eq_false_iff] at leaves
        have taken := (held.written leaves.2).append (.took (mftRecord frn parsed)) nofun rfl
        have last := (lastReply_append _ (.took (mftRecord frn parsed))).trans traced.reply
        simp only [Option.map_some, Option.toList_some]
        split_ifs
        · refine ⟨leaves.2, ⟨held.goesOn, fun _ => taken⟩, data, ?_⟩
          exact ⟨last, traced.long, traced.next, fun had => by cases had⟩
        · refine ⟨⟨held.goesOn, fun _ => taken⟩, data, ?_⟩
          exact ⟨last, traced.long, traced.next, fun had => by cases had⟩

/-- After one buffer. -/
theorem ScanTask.Trace.leaveBuffer (traced : buffer.Traced events l data)
    (exhausted : env.shouldStop = false → l.writeFailed = false → buffer.hadRecords = false →
      nextEntry (data.drop 8) = none) :
    (ScanTask.leaveBuffer env l buffer).Trace env.shouldStop events := by
  unfold ScanTask.leaveBuffer
  simp only
  split_ifs with stuck abandoned sends sends
  · simp only [Bool.and_eq_true, Bool.not_eq_true', Bool.or_eq_false_iff,
      decide_eq_true_eq] at stuck
    obtain ⟨⟨⟨running, sound⟩, empty⟩, behind⟩ := stuck
    refine ⟨held.written, fun _ _ => rfl, fun _ _ => ?_⟩
    refine ⟨l.nextFileReference, .bytes data, traced.reply, traced.long,
      exhausted running sound empty, ?_⟩
    rw [← traced.next]
    exact behind
  · rw [Bool.and_eq_true, Bool.not_eq_true'] at sends
    exact ⟨sends.1, held⟩
  · exact held
  · rw [Bool.and_eq_true, Bool.not_eq_true'] at sends
    exact ⟨sends.1, held.goesOn, held.written⟩
  · exact ⟨held.goesOn, held.written⟩

/-- A written batch, or a failed write. -/
theorem ScanLocals.Enumerating.sent (sound : l.writeFailed = false) {written : Bool}
    (success : written = true → outcome = .complete) :
    (l.sent written).Enumerating
      (events ++ [.wrote (batchFrame l.batch l.nextFileReference) outcome]) := by
  refine ⟨held.goesOn, fun kept => ?_⟩
  cases written with
  | true =>
    rw [success rfl]
    exact (held.written sound).append_batch _
  | false => cases kept

end

/-- **One move of a worker** keeps its trace. -/
theorem ScanTask.Trace.next (trace : task.Trace env.shouldStop events)
    (success : env.written = true → outcome = .complete) (negotiated : ProtocolVersion) :
    (task.next negotiated env).Trace env.shouldStop (events ++ task.newEvents env outcome) := by
  cases task with
  | begin cursor =>
    rw [newEvents_of_quiet rfl rfl, ScanTask.next]
    split_ifs
    · trivial
    · exact trace
  | opening cursor =>
    rw [newEvents_of_quiet rfl rfl, ScanTask.next]
    split_ifs
    · exact ⟨rfl, fun _ => trace⟩
    · exact trace
  | deliverFailed =>
    rw [newEvents_of_quiet rfl rfl, ScanTask.next, decideTerminal]
    split_ifs
    · trivial
    · trivial
    · exact ⟨trace, fun claimed => by cases claimed⟩
  | enumerating l => exact Trace.enumerateNext trace
  | consuming l buffer =>
    obtain ⟨held, data, traced⟩ := trace
    exact Trace.consumeNext held traced
  | sendingFull l buffer =>
    obtain ⟨sound, held, data, traced⟩ := trace
    refine ⟨held.sent sound success, data, ?_, traced.long, traced.next, traced.rest⟩
    exact (lastReply_append _ _).trans traced.reply
  | consumed l buffer =>
    obtain ⟨held, data, traced, exhausted⟩ := trace
    rw [newEvents_of_quiet rfl rfl]
    exact Trace.leaveBuffer held traced exhausted
  | sendingBuffer l => exact trace.2.sent trace.1 success
  | draining l =>
    rw [newEvents_of_quiet rfl rfl, ScanTask.next]
    split_ifs with sends
    · rw [Bool.and_eq_true, Bool.not_eq_true', Bool.not_eq_true'] at sends
      exact ⟨sends.2, trace⟩
    · refine ⟨fun sound => ?_, trace.ended, trace.reached⟩
      rw [Bool.and_eq_true, Bool.not_eq_true', Bool.not_eq_true', not_and,
        Bool.not_eq_false] at sends
      have empty : l.batch = [] := by
        by_contra nonempty
        exact absurd sound (by simpa using sends (by simpa using nonempty))
      rw [← empty]
      exact trace.written sound
  | sendingRest l =>
    obtain ⟨sound, finishing⟩ := trace
    refine ⟨fun kept => ?_, fun running _ => finishing.ended running sound, fun ended succeeded => ?_⟩
    · rw [Bool.not_eq_false'] at kept
      rw [newEvents, frame, success kept]
      exact (finishing.written sound).append_batch _
    · obtain ⟨reference, reply, last, ends⟩ := finishing.reached ended succeeded
      exact ⟨reference, reply, (lastReply_append _ _).trans last, ends⟩
  | finishing l =>
    rw [newEvents_of_quiet rfl rfl, ScanTask.next, decideTerminal]
    split_ifs with failed stopped aborts
    · trivial
    · trivial
    · trivial
    · rw [Bool.not_eq_true] at failed stopped
      refine ⟨trace.written failed, fun succeeded => ?_⟩
      rw [Bool.not_eq_true'] at succeeded
      exact trace.reached (trace.ended stopped failed) succeeded
  | terminal success' =>
    rw [ScanTask.next]
    split_ifs <;> trivial
  | done result => trivial

end Step

end FastFiles.Service
