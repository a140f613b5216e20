import FastFiles.Protocol.JournalFrames

/-!
# Reading frames from a pipe

`ReadExactOverlappedInternal` and `ReadFrameOverlappedDetailed` of `PipeFraming.cpp`.  The
unread bytes of a pipe are a stream; a schedule says how each overlapped read ends.  A read
that is cancelled, at the deadline or otherwise, may still take bytes from the stream: they
land in the buffer of the operation and are lost with it.

* A `Timeout` leaves the stream as it was exactly if the read cancelled at the deadline took
  nothing, and however its bytes are cut, successive successful reads return a sequence of
  frames (`timeout_and_fragmentation`).
-/

namespace FastFiles.Protocol

open WireFrame

/-! ## Frames on the wire -/

structure FrameHeader where
  totalLength : UInt32
  structVersion : UInt16
  messageType : UInt16
deriving DecidableEq

def FrameHeader.codec : Codec FrameHeader :=
  (Codec.uint32.pair (Codec.uint16.pair Codec.uint16)).map
    { toFun := fun ⟨a, b, c⟩ => ⟨a, b, c⟩
      invFun := fun ⟨a, b, c⟩ => ⟨a, b, c⟩
      left_inv := fun _ => rfl
      right_inv := fun _ => rfl }

def kCurrentStructVersion : UInt16 := 1

def isFrameLengthValid (totalLength : UInt32) : Bool :=
  decide (frameHeaderSize ≤ totalLength.toNat ∧ totalLength.toNat ≤ maxFrameSize)

/-- `MakeHeader`. -/
def makeHeader (frame : WireFrame) : FrameHeader :=
  ⟨.ofNat (frameHeaderSize + frame.payload.length), kCurrentStructVersion, frame.messageType⟩

/-- The bytes of a frame. -/
def WireFrame.bytes (frame : WireFrame) : List UInt8 :=
  FrameHeader.codec.encode (makeHeader frame) ++ frame.payload

/-! ## One read -/

inductive FrameReadStatus where
  | success | timeout | cancelled | disconnected | invalidFrame | ioError | resourceFailure
deriving DecidableEq

/-- How one overlapped read ends.  A read that is cancelled says how many bytes it took
before the cancellation came into effect. -/
inductive ReadOutcome where
  /-- No memory or no event for the operation. -/
  | resourceFailure
  /-- `ReadFile` fails at once; the pipe is broken or not. -/
  | refused (broken : Bool)
  /-- Bytes arrive, at once or before the deadline. -/
  | completed (count : Nat)
  /-- The operation is over by itself, aborted, with the pipe broken, or otherwise failed. -/
  | aborted
  | broken
  | failed
  /-- The shutdown event comes first. -/
  | shutdown (taken : Nat)
  /-- The deadline passes. -/
  | deadline (taken : Nat)
  /-- The wait itself fails. -/
  | waitFailed (taken : Nat)
deriving DecidableEq

/-- What a call leaves behind. -/
structure ReadResult (α : Type) where
  status : FrameReadStatus
  value : α
  unread : List UInt8
  schedule : List ReadOutcome
deriving DecidableEq

/-- `ReadExactOverlappedInternal`, with the bytes collected so far; `none` while it waits. -/
def readExact (size : Nat) : List ReadOutcome → List UInt8 → List UInt8 →
    Option (ReadResult (List UInt8))
  | [], unread, collected =>
    if collected.length = size then some ⟨.success, collected, unread, []⟩ else none
  | outcome :: schedule, unread, collected =>
    if collected.length = size then some ⟨.success, collected, unread, outcome :: schedule⟩
    else
      let remaining := size - collected.length
      let ends (status : FrameReadStatus) (taken : Nat) : Option (ReadResult (List UInt8)) :=
        some ⟨status, collected, unread.drop (min taken remaining), schedule⟩
      match outcome with
      | .resourceFailure => ends .resourceFailure 0
      | .refused broken => ends (if broken then .disconnected else .ioError) 0
      | .completed count =>
        let chunk := unread.take (min count remaining)
        if chunk = [] then ends .disconnected 0
        else readExact size schedule (unread.drop (min count remaining)) (collected ++ chunk)
      | .aborted => ends .cancelled 0
      | .broken => ends .disconnected 0
      | .failed => ends .ioError 0
      | .shutdown taken => ends .cancelled taken
      -- partial bytes of an earlier round make the timeout a disconnect
      | .deadline taken => ends (if collected = [] then .timeout else .disconnected) taken
      | .waitFailed taken => ends .ioError taken

/-- A timeout after the header was read is a disconnect. -/
def payloadStatus : FrameReadStatus → FrameReadStatus
  | .timeout => .disconnected
  | status => status

/-- `ReadFrameOverlappedDetailed`; `none` while it waits. -/
def readFrame (schedule : List ReadOutcome) (unread : List UInt8) :
    Option (ReadResult (Option WireFrame)) :=
  match readExact frameHeaderSize schedule unread [] with
  | none => none
  | some header =>
    if header.status ≠ .success then
      some ⟨header.status, none, header.unread, header.schedule⟩
    else
      let fields := FrameHeader.codec.decode header.value
      if !isFrameLengthValid fields.totalLength || fields.structVersion != kCurrentStructVersion then
        some ⟨.invalidFrame, none, header.unread, header.schedule⟩
      else
        match readExact (fields.totalLength.toNat - frameHeaderSize) header.schedule header.unread [] with
        | none => none
        | some payload =>
          if payload.status ≠ .success then
            some ⟨payloadStatus payload.status, none, payload.unread, payload.schedule⟩
          else some ⟨.success, some ⟨fields.messageType, payload.value⟩, payload.unread,
            payload.schedule⟩

/-! ## What one read takes -/

section ReadExact

variable {size : Nat} {schedule : List ReadOutcome} {unread collected : List UInt8}
  {result : ReadResult (List UInt8)}

/-- A read either delivers some bytes and goes on, or ends without success. -/
theorem readExact_cons_cases {outcome : ReadOutcome} (pending : collected.length ≠ size)
    (done : readExact size (outcome :: schedule) unread collected = some result) :
    (∃ count, unread.take (min count (size - collected.length)) ≠ [] ∧
      readExact size schedule (unread.drop (min count (size - collected.length)))
        (collected ++ unread.take (min count (size - collected.length))) = some result) ∨
      ∃ taken, result.status ≠ .success ∧ result.schedule = schedule ∧
        result.unread = unread.drop (min taken (size - collected.length)) ∧
        (result.status = .timeout → collected = [] ∧ outcome = .deadline taken) := by
  unfold readExact at done
  rw [if_neg pending] at done
  cases outcome with
  | completed count =>
    dsimp only at done
    split_ifs at done with nothing
    · obtain rfl := Option.some.inj done
      exact .inr ⟨0, by simp, rfl, rfl, by simp⟩
    · exact .inl ⟨count, nothing, done⟩
  | deadline taken =>
    obtain rfl := Option.some.inj done
    refine .inr ⟨taken, ?_, rfl, rfl, fun timeout => ⟨?_, rfl⟩⟩
    · dsimp only
      split_ifs <;> simp
    · by_contra some_bytes
      simp [some_bytes] at timeout
  | refused broken =>
    obtain rfl := Option.some.inj done
    cases broken <;> exact .inr ⟨0, by simp, rfl, rfl, by simp⟩
  | shutdown taken | waitFailed taken =>
    obtain rfl := Option.some.inj done
    exact .inr ⟨taken, by simp, rfl, rfl, by simp⟩
  | resourceFailure | aborted | broken | failed =>
    obtain rfl := Option.some.inj done
    exact .inr ⟨0, by simp, rfl, rfl, by simp⟩

theorem readExact_of_full (full : collected.length = size) :
    readExact size schedule unread collected = some ⟨.success, collected, unread, schedule⟩ := by
  cases schedule <;> unfold readExact <;> rw [if_pos full]

/-- A successful read took its bytes from the front of the stream. -/
theorem readExact_success (done : readExact size schedule unread collected = some result)
    (success : result.status = .success) (fits : collected.length ≤ size) :
    collected ++ unread = result.value ++ result.unread ∧ result.value.length = size := by
  induction schedule generalizing unread collected with
  | nil =>
    unfold readExact at done
    split_ifs at done with full
    obtain rfl := Option.some.inj done
    exact ⟨rfl, full⟩
  | cons outcome schedule ih =>
    by_cases full : collected.length = size
    · rw [readExact_of_full full] at done
      obtain rfl := Option.some.inj done
      exact ⟨rfl, full⟩
    · obtain ⟨count, -, rest⟩ | ⟨taken, failed, -⟩ := readExact_cons_cases full done
      · have within : (collected ++ unread.take (min count (size - collected.length))).length ≤ size := by
          rw [List.length_append, List.length_take]
          omega
        obtain ⟨joined, length⟩ := ih rest within
        rw [List.append_assoc, List.take_append_drop] at joined
        exact ⟨joined, length⟩
      · exact absurd success failed

/-- Only a deadline before the first byte is a timeout. -/
theorem readExact_timeout (done : readExact size schedule unread collected = some result)
    (timeout : result.status = .timeout) :
    collected = [] ∧ ∃ taken rest, schedule = .deadline taken :: rest ∧
      result.unread = unread.drop (min taken size) := by
  induction schedule generalizing unread collected with
  | nil =>
    unfold readExact at done
    split_ifs at done with full
    obtain rfl := Option.some.inj done
    exact FrameReadStatus.noConfusion timeout
  | cons outcome schedule ih =>
    by_cases full : collected.length = size
    · rw [readExact_of_full full] at done
      obtain rfl := Option.some.inj done
      exact FrameReadStatus.noConfusion timeout
    · obtain ⟨count, some_bytes, rest⟩ | ⟨taken, -, -, left, early⟩ := readExact_cons_cases full done
      · -- bytes were collected, so no later deadline is a timeout
        obtain ⟨nothing, -⟩ := ih rest
        exact absurd (List.append_eq_nil_iff.mp nothing).2 some_bytes
      · obtain ⟨rfl, rfl⟩ := early timeout
        exact ⟨rfl, taken, schedule, rfl, left⟩

/-- Bytes that arrive piece by piece, at least one at a time, complete a read. -/
theorem readExact_progress (counts : List Nat) (positive : ∀ count ∈ counts, 0 < count)
    (enough : size - collected.length ≤ counts.length)
    (available : size - collected.length ≤ unread.length) (fits : collected.length ≤ size) :
    ∃ used, used ≤ size - collected.length ∧
      readExact size (counts.map .completed) unread collected =
        some ⟨.success, collected ++ unread.take (size - collected.length),
          unread.drop (size - collected.length), (counts.drop used).map .completed⟩ := by
  induction counts generalizing unread collected with
  | nil =>
    have full : collected.length = size := by
      rw [List.length_nil] at enough
      omega
    exact ⟨0, Nat.zero_le _, by simp [readExact_of_full full, full]⟩
  | cons count counts ih =>
    by_cases full : collected.length = size
    · exact ⟨0, Nat.zero_le _, by simp [readExact_of_full full, full]⟩
    · have some_count : 0 < count := positive count (.head _)
      rw [List.length_cons] at enough
      generalize taken_eq : min count (size - collected.length) = taken
      have taken_pos : 0 < taken := by omega
      have taken_le : taken ≤ size - collected.length := by omega
      have length : (collected ++ unread.take taken).length = collected.length + taken := by
        rw [List.length_append, List.length_take, Nat.min_eq_left (by omega)]
      obtain ⟨used, bound, rest⟩ := @ih (unread.drop taken) (collected ++ unread.take taken)
        (fun other mem => positive other (.tail _ mem)) (by omega)
        (by rw [length, List.length_drop]; omega) (by omega)
      refine ⟨used + 1, by omega, ?_⟩
      have nonempty : unread.take taken ≠ [] := by
        apply List.ne_nil_of_length_pos
        rw [List.length_take]
        omega
      rw [List.map_cons, readExact, if_neg full]
      dsimp only
      rw [taken_eq, if_neg nonempty, rest]
      have left : size - collected.length = taken + (size - (collected.length + taken)) := by omega
      simp only [length, List.append_assoc, List.drop_drop, List.drop_succ_cons, Option.some.injEq,
        ReadResult.mk.injEq, true_and, and_true]
      constructor
      · rw [List.append_cancel_left_eq, left, List.take_add]
      · congr 1
        omega

end ReadExact

/-! ## Frames -/

section Frames

variable {schedule : List ReadOutcome} {unread : List UInt8}
  {result : ReadResult (Option WireFrame)}

theorem length_encode_header (header : FrameHeader) :
    (FrameHeader.codec.encode header).length = frameHeaderSize :=
  FrameHeader.codec.length_encode header

variable {frame : WireFrame}

theorem totalLength_makeHeader (valid : frame.isLengthValid = true) :
    (makeHeader frame).totalLength.toNat = frameHeaderSize + frame.payload.length := by
  have small : frameHeaderSize + frame.payload.length ≤ maxFrameSize := by
    simpa [isLengthValid] using valid
  refine UInt32.toNat_ofNat_of_lt' (lt_of_le_of_lt small ?_)
  decide

/-- Only a deadline before the first byte of the header is a timeout. -/
theorem readFrame_timeout (done : readFrame schedule unread = some result)
    (timeout : result.status = .timeout) :
    ∃ taken rest, schedule = .deadline taken :: rest ∧
      result.unread = unread.drop (min taken frameHeaderSize) := by
  unfold readFrame at done
  cases header_read : readExact frameHeaderSize schedule unread [] with
  | none =>
    rw [header_read] at done
    exact absurd done.symm (Option.some_ne_none _)
  | some header =>
    rw [header_read] at done
    dsimp only at done
    split_ifs at done with failed invalid
    · obtain rfl := Option.some.inj done
      exact (readExact_timeout header_read timeout).2
    · obtain rfl := Option.some.inj done
      exact FrameReadStatus.noConfusion timeout
    · split at done
      · exact absurd done.symm (Option.some_ne_none _)
      · rename_i payload payload_read
        split_ifs at done with payload_failed
        · obtain rfl := Option.some.inj done
          exfalso
          dsimp only at timeout
          cases status : payload.status <;> rw [status] at timeout <;>
            exact FrameReadStatus.noConfusion timeout
        · obtain rfl := Option.some.inj done
          exact FrameReadStatus.noConfusion timeout

/-- The header that a frame's bytes decode to is valid and says how long the payload is. -/
theorem header_of_bytes (valid : frame.isLengthValid = true) :
    (!isFrameLengthValid (makeHeader frame).totalLength ||
      (makeHeader frame).structVersion != kCurrentStructVersion) = false ∧
      (makeHeader frame).totalLength.toNat - frameHeaderSize = frame.payload.length := by
  have total := totalLength_makeHeader valid
  have small : frameHeaderSize + frame.payload.length ≤ maxFrameSize := by
    simpa [isLengthValid] using valid
  have in_range : isFrameLengthValid (makeHeader frame).totalLength = true :=
    decide_eq_true (by omega)
  refine ⟨?_, by omega⟩
  rw [in_range]
  rfl

/-- A successful read at a frame boundary returns the frame there and stops at the next. -/
theorem readFrame_success {rest : List UInt8} (valid : frame.isLengthValid = true)
    (done : readFrame schedule (frame.bytes ++ rest) = some result)
    (success : result.status = .success) : result.value = some frame ∧ result.unread = rest := by
  obtain ⟨accepted, payload_size⟩ := header_of_bytes valid
  unfold readFrame at done
  cases header_read : readExact frameHeaderSize schedule (frame.bytes ++ rest) [] with
  | none =>
    rw [header_read] at done
    exact absurd done.symm (Option.some_ne_none _)
  | some header =>
    rw [header_read] at done
    dsimp only at done
    by_cases read : header.status = .success
    · obtain ⟨split, length⟩ := readExact_success header_read read (Nat.zero_le _)
      rw [List.nil_append, bytes, List.append_assoc] at split
      obtain ⟨bytes, left⟩ := List.append_inj split.symm (length.trans (length_encode_header _).symm)
      rw [if_neg (by simp [read]), bytes, Codec.decode_encode, accepted,
        if_neg Bool.false_ne_true, payload_size, left] at done
      split at done
      · exact absurd done.symm (Option.some_ne_none _)
      · rename_i payload payload_read
        split_ifs at done with payload_failed
        · obtain rfl := Option.some.inj done
          exfalso
          dsimp only at success
          cases status : payload.status <;> rw [status] at success payload_failed <;>
            first | exact FrameReadStatus.noConfusion success | exact payload_failed rfl
        · obtain rfl := Option.some.inj done
          obtain ⟨payload_split, payload_length⟩ :=
            readExact_success payload_read (not_not.mp payload_failed) (Nat.zero_le _)
          rw [List.nil_append] at payload_split
          obtain ⟨same, boundary⟩ := List.append_inj payload_split.symm payload_length
          dsimp only
          rw [same, boundary]
          exact ⟨rfl, rfl⟩
    · rw [if_pos (by simpa using read)] at done
      obtain rfl := Option.some.inj done
      exact absurd success read

/-- From the start of a read: the first bytes of the stream, however they are cut. -/
theorem readExact_pieces {front rest : List UInt8} (counts : List Nat)
    (positive : ∀ count ∈ counts, 0 < count) (enough : front.length ≤ counts.length) :
    ∃ used, used ≤ front.length ∧
      readExact front.length (counts.map .completed) (front ++ rest) [] =
        some ⟨.success, front, rest, (counts.drop used).map .completed⟩ := by
  have available : front.length - ([] : List UInt8).length ≤ (front ++ rest).length := by simp
  obtain ⟨used, bound, read⟩ := readExact_progress counts positive enough available (Nat.zero_le _)
  rw [List.length_nil, Nat.sub_zero] at read
  exact ⟨used, bound, by simpa using read⟩

/-- A frame whose bytes arrive piece by piece is read. -/
theorem readFrame_progress (rest : List UInt8) (valid : frame.isLengthValid = true)
    (counts : List Nat) (positive : ∀ count ∈ counts, 0 < count)
    (enough : frame.bytes.length ≤ counts.length) :
    ∃ used, used ≤ frame.bytes.length ∧
      readFrame (counts.map .completed) (frame.bytes ++ rest) =
        some ⟨.success, some frame, rest, (counts.drop used).map .completed⟩ := by
  obtain ⟨accepted, payload_size⟩ := header_of_bytes valid
  have header_length := length_encode_header (makeHeader frame)
  have length : frame.bytes.length = frameHeaderSize + frame.payload.length := by
    rw [bytes, List.length_append, header_length]
  obtain ⟨header_used, header_bound, header_read⟩ :
      ∃ used, used ≤ (FrameHeader.codec.encode (makeHeader frame)).length ∧
        readExact (FrameHeader.codec.encode (makeHeader frame)).length (counts.map .completed)
          (FrameHeader.codec.encode (makeHeader frame) ++ (frame.payload ++ rest)) [] =
        some ⟨.success, FrameHeader.codec.encode (makeHeader frame), frame.payload ++ rest,
          (counts.drop used).map .completed⟩ :=
    readExact_pieces counts positive (by omega)
  obtain ⟨payload_used, payload_bound, payload_read⟩ :
      ∃ used, used ≤ frame.payload.length ∧
        readExact frame.payload.length ((counts.drop header_used).map .completed)
          (frame.payload ++ rest) [] =
        some ⟨.success, frame.payload, rest,
          ((counts.drop header_used).drop used).map .completed⟩ :=
    readExact_pieces (counts.drop header_used)
      (fun count mem => positive count (List.mem_of_mem_drop mem))
      (by rw [List.length_drop]; omega)
  refine ⟨header_used + payload_used, by omega, ?_⟩
  rw [header_length] at header_read
  unfold readFrame
  rw [bytes, List.append_assoc, header_read]
  dsimp only
  rw [if_neg (by simp), Codec.decode_encode, accepted, if_neg Bool.false_ne_true, payload_size,
    payload_read, List.drop_drop]
  rfl

end Frames

/-! ## Sequences of frames -/

/-- A number of calls that all succeed. -/
def readFrames : Nat → List ReadOutcome → List UInt8 → Option (List WireFrame × List UInt8)
  | 0, _, unread => some ([], unread)
  | calls + 1, schedule, unread =>
    match readFrame schedule unread with
    | some ⟨.success, some frame, unread, schedule⟩ =>
      (readFrames calls schedule unread).map fun (frames, unread) => (frame :: frames, unread)
    | _ => none

section Sequences

variable {frames : List WireFrame} {rest : List UInt8}

variable (valid : ∀ frame ∈ frames, frame.isLengthValid = true)

include valid

/-- However the bytes of a sequence of frames are cut, successful calls return its frames in
order and stop at a frame boundary. -/
theorem readFrames_exact {calls : Nat} (bound : calls ≤ frames.length) {schedule : List ReadOutcome}
    {got : List WireFrame} {unread : List UInt8}
    (done : readFrames calls schedule (frames.flatMap bytes ++ rest) = some (got, unread)) :
    got = frames.take calls ∧ unread = (frames.drop calls).flatMap bytes ++ rest := by
  induction calls generalizing frames schedule got unread with
  | zero =>
    obtain ⟨rfl, rfl⟩ := Prod.mk.inj (Option.some.inj done)
    exact ⟨rfl, rfl⟩
  | succ calls ih =>
    cases frames with
    | nil => exact absurd bound (Nat.not_succ_le_zero calls)
    | cons frame frames =>
      rw [List.flatMap_cons, List.append_assoc, readFrames] at done
      split at done
      · rename_i first left schedule' read
        obtain ⟨same, boundary⟩ := readFrame_success (valid frame (.head _)) read rfl
        obtain rfl := Option.some.inj same
        obtain rfl : left = frames.flatMap bytes ++ rest := boundary
        obtain ⟨⟨others, last⟩, others_read, joined⟩ := Option.map_eq_some_iff.mp done
        obtain ⟨rfl, rfl⟩ := Prod.mk.inj joined
        obtain ⟨rfl, rfl⟩ := ih (fun other mem => valid other (.tail _ mem))
          (Nat.le_of_succ_le_succ bound) others_read
        exact ⟨rfl, rfl⟩
      · exact absurd done.symm (Option.some_ne_none _)

/-- And if the bytes arrive, the calls do succeed. -/
theorem readFrames_progress (counts : List Nat) (positive : ∀ count ∈ counts, 0 < count)
    (enough : (frames.flatMap bytes).length ≤ counts.length) :
    readFrames frames.length (counts.map .completed) (frames.flatMap bytes ++ rest) =
      some (frames, rest) := by
  induction frames generalizing counts with
  | nil => rfl
  | cons frame frames ih =>
    rw [List.flatMap_cons, List.length_append] at enough
    obtain ⟨used, bound, read⟩ := readFrame_progress (frames.flatMap bytes ++ rest)
      (valid frame (.head _)) counts positive (by omega)
    rw [List.flatMap_cons, List.append_assoc, List.length_cons, readFrames, read]
    dsimp only
    rw [ih (fun other mem => valid other (List.mem_cons_of_mem _ mem)) (counts.drop used)
      (fun count mem => positive count (List.mem_of_mem_drop mem))
      (by rw [List.length_drop]; omega)]
    rfl

end Sequences

/-- The bytes lost with the read that was cancelled at the first deadline. -/
def lostAtDeadline (schedule : List ReadOutcome) (unread : List UInt8) : List UInt8 :=
  match schedule with
  | .deadline taken :: _ => unread.take (min taken frameHeaderSize)
  | _ => []

/-- A timeout leaves the stream as it was exactly if the read cancelled at the deadline took
nothing; and however the bytes of a sequence of frames are cut, successive successful reads
return that sequence, and do succeed if the bytes arrive. -/
theorem timeout_and_fragmentation (schedule : List ReadOutcome) (unread : List UInt8)
    (frames : List WireFrame) (rest : List UInt8) :
    (∀ result, readFrame schedule unread = some result → result.status = .timeout →
      (result.unread = unread ↔ lostAtDeadline schedule unread = [])) ∧
    ((∀ frame ∈ frames, frame.isLengthValid = true) →
      (∀ calls schedule got unread, calls ≤ frames.length →
        readFrames calls schedule (frames.flatMap bytes ++ rest) = some (got, unread) →
        got = frames.take calls ∧ unread = (frames.drop calls).flatMap bytes ++ rest) ∧
      ∀ counts : List Nat, (∀ count ∈ counts, 0 < count) →
        (frames.flatMap bytes).length ≤ counts.length →
        readFrames frames.length (counts.map .completed) (frames.flatMap bytes ++ rest) =
          some (frames, rest)) := by
  refine ⟨fun result done timeout => ?_, fun valid => ⟨?_, ?_⟩⟩
  · obtain ⟨taken, tail, rfl, left⟩ := readFrame_timeout done timeout
    rw [left, lostAtDeadline]
    constructor
    · intro untouched
      have size := congrArg List.length untouched
      rw [List.length_drop] at size
      rw [← List.length_eq_zero_iff, List.length_take]
      omega
    · intro nothing
      have size := congrArg List.length nothing
      rw [List.length_take, List.length_nil] at size
      obtain none_taken | no_stream := Nat.min_eq_zero_iff.mp size
      · rw [none_taken, List.drop_zero]
      · rw [List.length_eq_zero_iff.mp no_stream, List.drop_nil]
  · intro calls schedule got unread bound done
    exact readFrames_exact valid bound done
  · intro counts positive enough
    exact readFrames_progress valid counts positive enough

/-- The deadline passes before the first byte, and the cancelled read still takes three bytes of
the frame: the call reports a timeout, and the next one does not find the frame. -/
theorem timeout_loses_bytes :
    let stream := bytes ⟨7, []⟩ ++ bytes ⟨8, []⟩
    ∃ left, readFrame [.deadline 3, .completed 8] stream =
        some ⟨.timeout, none, left, [.completed 8]⟩ ∧
      left ≠ stream ∧ (readFrame [.completed 8] left).map ReadResult.status = some .invalidFrame := by
  refine ⟨(bytes ⟨7, []⟩ ++ bytes ⟨8, []⟩).drop 3, ?_, ?_, ?_⟩ <;> decide +kernel

end FastFiles.Protocol
