import FastFiles.Foundations.Paging
import FastFiles.Service.Scanner

/-!
# Scan cursors are resumable

A scan of a fixed volume is run with a stop request at any point, with any write failing,
and cut off anywhere.  The records it has sent, together with those of a new scan from
the last cursor it has sent, are all an uninterrupted scan sends, and nothing else, after any
number of interruptions.

* `Volume.Yields` is the enumeration of the volume page by page (`Foundations/Paging`).
* `sent_yields`: a scan sends only records of that enumeration, from its start cursor.
* `eventually_sent`: an uninterrupted scan comes to every one of them.
* `Accounted` is the invariant of an interrupted scan: what it has sent and the last
  cursor cover the enumeration, and the pending batch and the unread part of the buffer
  cover what lies between that cursor and the position reached.
-/

namespace FastFiles.Service

open Protocol Paging ScanTask

/-! ## Runs of a scan -/

structure ScanState where
  task : ScanTask
  shouldStop : Bool
  /-- The frames written completely. -/
  sent : List ScanFrame
deriving DecidableEq

inductive ScanAction
  /-- The stop flag is set; it is never cleared. -/
  | requestStop
  | move (opened written : Bool)
deriving DecidableEq

variable (negotiated : ProtocolVersion) (volume : Volume)

namespace ScanState

def start (resumeCursor : List UInt8) : ScanState :=
  { task := .begin resumeCursor, shouldStop := false, sent := [] }

def step (s : ScanState) : ScanAction → ScanState
  | .requestStop => { s with shouldStop := true }
  | .move opened written =>
    { s with
      task := s.task.next negotiated
        { shouldStop := s.shouldStop, opened := opened, written := written, volume := volume }
      sent := if written then s.sent ++ s.task.frame.toList else s.sent }

/-- A move of a scan that nothing disturbs. -/
def advance (s : ScanState) : ScanState :=
  s.step negotiated volume (.move true true)

end ScanState

/-- The frames sent by a scan that is stopped, fails and ends as `actions` say. -/
def interruptedScan (cursor : List UInt8) (actions : List ScanAction) : List ScanFrame :=
  (actions.foldl (ScanState.step negotiated volume) (ScanState.start cursor)).sent

/-- The frames an undisturbed scan has sent after a number of moves. -/
def uninterruptedScan (cursor : List UInt8) (moves : Nat) : List ScanFrame :=
  ((ScanState.advance negotiated volume)^[moves] (ScanState.start cursor)).sent

def sentRecords (sent : List ScanFrame) : List MftRecordV2 :=
  sent.flatMap ScanFrame.records

/-- The cursor of the last batch sent, or the one the scan was started from. -/
def lastCursor (resumeCursor : List UInt8) (sent : List ScanFrame) : List UInt8 :=
  (sent.filterMap ScanFrame.cursor).getLast?.getD resumeCursor

variable {cursor : List UInt8}

theorem ScanFrame.eq_batch_of_cursor (frame : ScanFrame) (carried : frame.cursor = some cursor) :
    ∃ records, frame = .batch records cursor := by
  cases frame with
  | batch records _ => cases carried; exact ⟨records, rfl⟩
  | _ => cases carried

theorem mem_sentRecords_append_batch {sent : List ScanFrame} {records : List MftRecordV2}
    {r : MftRecordV2} :
    r ∈ sentRecords (sent ++ [.batch records cursor]) ↔ r ∈ sentRecords sent ∨ r ∈ records := by
  simp [sentRecords, ScanFrame.records]

/-- A terminal carries no record and no cursor. -/
theorem append_terminal {frame : ScanFrame} (terminal : frame.cursor = none)
    (resumeCursor : List UInt8) (sent : List ScanFrame) :
    sentRecords (sent ++ [frame]) = sentRecords sent ∧
      lastCursor resumeCursor (sent ++ [frame]) = lastCursor resumeCursor sent := by
  cases frame with
  | batch records cursor => cases terminal
  | _ => simp [sentRecords, lastCursor, ScanFrame.records, ScanFrame.cursor]

/-! ## The enumeration of a volume -/

variable {volume : Volume}

namespace Volume

/-- The records the scanner takes from the rest of a buffer. -/
inductive InBuffer (volume : Volume) : List UInt8 → MftRecordV2 → Prop
  | here {rest after : List UInt8} {frn : UInt64} {parsed : ParsedMftRecord} :
      nextEntry rest = some (frn, after) → volume.read frn = some parsed →
        InBuffer volume rest (mftRecord frn parsed)
  | there {rest after : List UInt8} {frn : UInt64} {r : MftRecordV2} :
      nextEntry rest = some (frn, after) → InBuffer volume after r → InBuffer volume rest r

/-- The page at a file reference. -/
def page (volume : Volume) (reference : UInt64) : Option EnumBuffer :=
  match volume.enumerate reference with
  | .error _ => none
  | .bytes data =>
    if data.length < 8 then none
    else some ⟨Codec.uint64.decode (data.take 8), false, data.drop 8⟩

theorem hadRecords_of_page {reference : UInt64} {buffer : EnumBuffer}
    (page : volume.page reference = some buffer) : buffer.hadRecords = false := by
  unfold Volume.page at page
  cases reply : volume.enumerate reference with
  | error endOfFile => rw [reply] at page; cases page
  | bytes data =>
    rw [reply] at page
    simp only at page
    split_ifs at page
    cases page
    rfl

theorem InBuffer.nextEntry_isSome {rest : List UInt8} {r : MftRecordV2}
    (mem : volume.InBuffer rest r) : (nextEntry rest).isSome = true := by
  cases mem with
  | here entry _ => rw [entry]; rfl
  | there entry _ => rw [entry]; rfl

def Records (volume : Volume) (reference : UInt64) (r : MftRecordV2) : Prop :=
  ∃ buffer, volume.page reference = some buffer ∧ volume.InBuffer buffer.rest r

/-- The scanner goes on to the next page if this one has an entry or moves forward. -/
def Continues (volume : Volume) (reference next : UInt64) : Prop :=
  ∃ buffer, volume.page reference = some buffer ∧ next = buffer.next ∧
    ((nextEntry buffer.rest).isSome = true ∨ reference < buffer.next)

/-- The records an enumeration from a file reference comes to. -/
def Yields (volume : Volume) : UInt64 → MftRecordV2 → Prop :=
  Paging.Yields volume.Records volume.Continues

def Covers (volume : Volume) : Set MftRecordV2 → UInt64 → UInt64 → Prop :=
  Paging.Covers volume.Records volume.Continues

end Volume

/-! ## What a move can do -/

namespace ScanTask

variable (env : ScanEnv) (l : ScanLocals) (buffer : EnumBuffer)

/-- The head of the outer loop leaves the loop or reads the page at the position. -/
theorem enumerateNext_cases : (∃ ended failed, enumerateNext env l =
        draining { l with enumerationEnded := ended, enumerationFailed := failed }) ∨
      ∃ buffer, env.volume.page l.nextFileReference = some buffer ∧ buffer.hadRecords = false ∧
        enumerateNext env l = consuming l buffer := by
  unfold enumerateNext
  split_ifs with stops
  · exact .inl ⟨l.enumerationEnded, l.enumerationFailed, rfl⟩
  · cases reply : env.volume.enumerate l.nextFileReference with
    | error endOfFile => exact .inl ⟨true, !endOfFile, rfl⟩
    | bytes data =>
      simp only
      split_ifs with short
      · exact .inl ⟨true, true, rfl⟩
      · refine .inr ⟨_, ?_, rfl, rfl⟩
        rw [Volume.page, reply]
        exact if_neg short

/-- The loop over a buffer ends, or takes the next entry. -/
theorem consumeNext_cases :
    ((env.shouldStop = true ∨ l.writeFailed = true ∨ nextEntry buffer.rest = none) ∧
        consumeNext env l buffer = consumed l buffer) ∨
      ∃ frn after, l.writeFailed = false ∧ nextEntry buffer.rest = some (frn, after) ∧
        ((env.volume.read frn = none ∧ consumeNext env l buffer =
            consuming l { buffer with hadRecords := true, rest := after }) ∨
          ∃ parsed, env.volume.read frn = some parsed ∧
            (consumeNext env l buffer =
                sendingFull { l with batch := l.batch ++ [mftRecord frn parsed] }
                  { buffer with hadRecords := true, rest := after } ∨
              consumeNext env l buffer =
                consuming { l with batch := l.batch ++ [mftRecord frn parsed] }
                  { buffer with hadRecords := true, rest := after })) := by
  unfold consumeNext
  split_ifs with stops
  · rw [Bool.or_eq_true] at stops
    exact .inl ⟨stops.imp_right Or.inl, rfl⟩
  · cases entry : nextEntry buffer.rest with
    | none => exact .inl ⟨.inr (.inr rfl), rfl⟩
    | some found =>
      obtain ⟨frn, after⟩ := found
      rw [Bool.not_eq_true, Bool.or_eq_false_iff] at stops
      refine .inr ⟨frn, after, stops.2, rfl, ?_⟩
      simp only
      cases read : env.volume.read frn with
      | none => exact .inl ⟨rfl, rfl⟩
      | some parsed =>
        refine .inr ⟨parsed, rfl, ?_⟩
        simp only
        split_ifs
        · exact .inl rfl
        · exact .inr rfl

/-- After a buffer the position moves past it only if the buffer was not abandoned. -/
theorem leaveBuffer_cases : (∃ ended, leaveBuffer env l buffer =
        draining { l with enumerationEnded := ended }) ∨
      (l.writeFailed = false ∧ leaveBuffer env l buffer = sendingBuffer l ∨
        leaveBuffer env l buffer = enumerating l) ∨
      (env.shouldStop = false ∧ l.writeFailed = false ∧
        (buffer.hadRecords = true ∨ l.nextFileReference < buffer.next) ∧
        (leaveBuffer env l buffer =
            sendingBuffer { l with nextFileReference := buffer.next } ∨
          leaveBuffer env l buffer =
            enumerating { l with nextFileReference := buffer.next })) := by
  unfold leaveBuffer
  simp only
  split_ifs with stuck abandoned records records
  · exact .inl ⟨true, rfl⟩
  · rw [Bool.and_eq_true, Bool.not_eq_true'] at records
    exact .inr (.inl (.inl ⟨records.1, rfl⟩))
  · exact .inr (.inl (.inr rfl))
  all_goals
    rw [Bool.not_eq_true, Bool.or_eq_false_iff] at abandoned
    obtain ⟨running, sound⟩ := abandoned
    have moves : buffer.hadRecords = true ∨ l.nextFileReference < buffer.next := by
      simp only [running, sound, Bool.or_self, Bool.not_false, Bool.true_and, Bool.and_eq_true,
        Bool.not_eq_true', decide_eq_true_eq, not_and, UInt64.not_le] at stuck
      cases had : buffer.hadRecords with
      | true => exact .inl rfl
      | false => exact .inr (stuck had)
    refine .inr (.inr ⟨running, sound, moves, ?_⟩)
  · exact .inl rfl
  · exact .inr rfl

end ScanTask

/-! ## Only records of the enumeration are sent -/

variable {frn : UInt64} {after : List UInt8} {task : ScanTask}

section Soundness

variable (volume : Volume) (origin : UInt64)

/-- Everything found at or after a position belongs to the enumeration from `origin`. -/
def Within (reference : UInt64) : Prop :=
  ∀ r, volume.Yields reference r → volume.Yields origin r

/-- What a scan holds belongs to the enumeration from `origin`. -/
structure ScanLocals.Sound (l : ScanLocals) : Prop where
  batch : ∀ r ∈ l.batch, volume.Yields origin r
  position : Within volume origin l.nextFileReference

/-- The rest of the buffer as well, and what follows it unless the scan would stop there. -/
structure EnumBuffer.Sound (l : ScanLocals) (buffer : EnumBuffer) : Prop where
  rest : ∀ r, volume.InBuffer buffer.rest r → volume.Yields origin r
  next : buffer.hadRecords = true ∨ (nextEntry buffer.rest).isSome = true ∨
    l.nextFileReference < buffer.next → Within volume origin buffer.next

def ScanTask.Sound : ScanTask → Prop
  | .begin cursor | .opening cursor => decodeCursor cursor = origin
  | .enumerating l | .sendingBuffer l | .draining l | .sendingRest l | .finishing l =>
    l.Sound volume origin
  | .consuming l buffer | .sendingFull l buffer | .consumed l buffer =>
    l.Sound volume origin ∧ buffer.Sound volume origin l
  | _ => True

variable {volume origin} {l : ScanLocals} {buffer : EnumBuffer}

theorem ScanLocals.Sound.sent (sound : l.Sound volume origin) (written : Bool) :
    (l.sent written).Sound volume origin :=
  ⟨fun _ mem => absurd mem List.not_mem_nil, sound.position⟩

/-- A page read at a sound position is sound. -/
theorem EnumBuffer.Sound.of_page (sound : l.Sound volume origin)
    (page : volume.page l.nextFileReference = some buffer) (fresh : buffer.hadRecords = false) :
    buffer.Sound volume origin l where
  rest := fun r mem => sound.position r (.here ⟨buffer, page, mem⟩)
  next := by
    rintro (had | more) r yields
    · rw [fresh] at had
      cases had
    · exact sound.position r (.later ⟨buffer, page, rfl, more⟩ yields)

/-- Taking an entry leaves a sound rest. -/
theorem EnumBuffer.Sound.tail (sound : buffer.Sound volume origin l)
    (entry : nextEntry buffer.rest = some (frn, after)) (l' : ScanLocals) :
    ({ buffer with hadRecords := true, rest := after } : EnumBuffer).Sound volume origin l' where
  rest := fun r mem => sound.rest r (.there entry mem)
  next := fun _ => sound.next (.inr (.inl (by rw [entry]; rfl)))

theorem ScanTask.Sound.next (sound : task.Sound volume origin) (negotiated : ProtocolVersion)
    (env : ScanEnv) (same : env.volume = volume) :
    (task.next negotiated env).Sound volume origin := by
  subst same
  cases task with
  | begin cursor =>
    rw [ScanTask.next]
    split_ifs
    · trivial
    · exact sound
  | opening cursor =>
    rw [ScanTask.next]
    split_ifs
    · exact ⟨fun _ mem => absurd mem List.not_mem_nil, fun r yields => sound ▸ yields⟩
    · trivial
  | deliverFailed | finishing _ | terminal _ =>
    simp only [ScanTask.next, decideTerminal]
    split_ifs <;> trivial
  | enumerating l =>
    rw [ScanTask.next]
    obtain ⟨ended, failed, out⟩ | ⟨buffer, page, fresh, out⟩ :=
      enumerateNext_cases env l
    · rw [out]
      exact ⟨sound.batch, sound.position⟩
    · rw [out]
      exact ⟨sound, .of_page sound page fresh⟩
  | consuming l buffer =>
    obtain ⟨held, unread⟩ := sound
    rw [ScanTask.next]
    obtain ⟨-, out⟩ | ⟨frn, after, -, entry, ⟨-, out⟩ | ⟨parsed, read, out⟩⟩ :=
      consumeNext_cases env l buffer
    · rw [out]
      exact ⟨held, unread⟩
    · rw [out]
      exact ⟨held, unread.tail entry l⟩
    · have grown : ({ l with batch := l.batch ++ [mftRecord frn parsed] } : ScanLocals).Sound
          env.volume origin := by
        refine ⟨fun r mem => ?_, held.position⟩
        rcases List.mem_append.mp mem with old | new
        · exact held.batch r old
        · rw [List.mem_singleton.mp new]
          exact unread.rest _ (.here entry read)
      rcases out with out | out <;> rw [out] <;> exact ⟨grown, unread.tail entry _⟩
  | sendingFull l buffer => exact ⟨sound.1.sent _, sound.2.rest, sound.2.next⟩
  | consumed l buffer =>
    obtain ⟨held, unread⟩ := sound
    rw [ScanTask.next]
    obtain ⟨ended, out⟩ | out | ⟨-, -, moves, out⟩ := leaveBuffer_cases env l buffer
    · rw [out]
      exact ⟨held.batch, held.position⟩
    · rcases out with ⟨-, out⟩ | out <;> rw [out] <;> exact held
    · have moved := unread.next (moves.imp_right Or.inr)
      rcases out with out | out <;> rw [out] <;> exact ⟨held.batch, moved⟩
  | sendingBuffer l => exact sound.sent _
  | draining l =>
    rw [ScanTask.next]
    split_ifs <;> exact sound
  | sendingRest l => exact ⟨sound.batch, sound.position⟩
  | done result => trivial

/-- What a sound task writes belongs to the enumeration. -/
theorem ScanTask.Sound.frame (sound : task.Sound volume origin) {frame : ScanFrame}
    (writes : task.frame = some frame) {r : MftRecordV2} (mem : r ∈ frame.records) :
    volume.Yields origin r := by
  cases task with
  | sendingFull l buffer => cases writes; exact sound.1.batch r mem
  | sendingBuffer _ | sendingRest _ => cases writes; exact sound.batch r mem
  | terminal success => cases success <;> cases writes <;> cases mem
  | _ => cases writes

end Soundness

/-! ## Nothing of the enumeration is lost -/

section Accounting

variable (volume : Volume) (last : UInt64) (delivered : Set MftRecordV2)

/-- What was delivered and the pending batch cover the enumeration up to the position. -/
def ScanLocals.Covered (l : ScanLocals) : Prop :=
  volume.Covers (delivered ∪ {r | r ∈ l.batch}) last l.nextFileReference

/-- Together with `unread` they cover the enumeration past the buffer. -/
def EnumBuffer.Covered (l : ScanLocals) (unread : Set MftRecordV2) (buffer : EnumBuffer) : Prop :=
  volume.Covers (delivered ∪ {r | r ∈ l.batch} ∪ unread) l.nextFileReference buffer.next

/-- The account a scan keeps.  It lapses with the first failed write, after which nothing is
written; a buffer left early is accounted for only until the stop request that cut it short. -/
def ScanTask.Accounted (shouldStop : Bool) : ScanTask → Prop
  | .begin cursor | .opening cursor => decodeCursor cursor = last
  | .enumerating l | .draining l => l.writeFailed = false → l.Covered volume last delivered
  | .sendingBuffer l | .sendingRest l => l.Covered volume last delivered
  | .consuming l buffer =>
    l.writeFailed = false → l.Covered volume last delivered ∧
      buffer.Covered volume delivered l {r | volume.InBuffer buffer.rest r}
  | .sendingFull l buffer =>
    l.Covered volume last delivered ∧
      buffer.Covered volume delivered l {r | volume.InBuffer buffer.rest r}
  | .consumed l buffer =>
    l.writeFailed = false → l.Covered volume last delivered ∧
      (shouldStop = false → buffer.Covered volume delivered l ∅)
  | _ => True

variable {volume last delivered} {l : ScanLocals} {buffer : EnumBuffer}

/-- A page covers its own position. -/
theorem EnumBuffer.Covered.of_page (page : volume.page l.nextFileReference = some buffer) :
    buffer.Covered volume delivered l {r | volume.InBuffer buffer.rest r} := by
  rintro r (⟨found, page', mem⟩ | ⟨⟨found, page', rfl, -⟩, yields⟩)
  · rw [page] at page'
    cases page'
    exact .inl (.inr mem)
  · rw [page] at page'
    cases page'
    exact .inr yields

/-- The first entry of a buffer moves to the batch, or is skipped. -/
theorem InBuffer.cases_of_nextEntry {rest : List UInt8} {r : MftRecordV2}
    (entry : nextEntry rest = some (frn, after)) (mem : volume.InBuffer rest r) :
    (∃ parsed, volume.read frn = some parsed ∧ r = mftRecord frn parsed) ∨
      volume.InBuffer after r := by
  cases mem with
  | here entry' read =>
    rw [entry] at entry'
    cases entry'
    exact .inl ⟨_, read, rfl⟩
  | there entry' mem =>
    rw [entry] at entry'
    cases entry'
    exact .inr mem

/-- A move that writes nothing keeps the account. -/
theorem ScanTask.Accounted.next (env : ScanEnv) (same : env.volume = volume)
    (account : task.Accounted volume last delivered env.shouldStop)
    (silent : task.frame = none ∨ env.written = false) (negotiated : ProtocolVersion) :
    (task.next negotiated env).Accounted volume last delivered env.shouldStop := by
  subst same
  cases task with
  | begin cursor =>
    rw [ScanTask.next]
    split_ifs
    · trivial
    · exact account
  | opening cursor =>
    rw [ScanTask.next]
    split_ifs
    · intro _
      have start : (ScanLocals.start cursor).nextFileReference = last := account
      rw [ScanLocals.Covered, start]
      exact Covers.refl _ _
    · trivial
  | deliverFailed | finishing _ | terminal _ =>
    simp only [ScanTask.next, decideTerminal]
    split_ifs <;> trivial
  | enumerating l =>
    rw [ScanTask.next]
    obtain ⟨ended, failed, out⟩ | ⟨buffer, page, -, out⟩ := enumerateNext_cases env l
    · rw [out]
      exact account
    · rw [out]
      exact fun sound => ⟨account sound, .of_page page⟩
  | consuming l buffer =>
    rw [ScanTask.next]
    obtain ⟨ends, out⟩ | ⟨frn, after, sound, entry, ⟨unread, out⟩ | ⟨parsed, read, out⟩⟩ :=
      consumeNext_cases env l buffer
    · rw [out]
      intro sound
      obtain ⟨covered, pending⟩ := account sound
      refine ⟨covered, fun running => ?_⟩
      have exhausted : nextEntry buffer.rest = none := by
        rw [running, sound] at ends
        exact ends.resolve_left Bool.false_ne_true |>.resolve_left Bool.false_ne_true
      refine pending.mono (Set.union_subset_union_right _ fun r mem => ?_)
      have entry := mem.nextEntry_isSome
      rw [exhausted] at entry
      cases entry
    · rw [out]
      intro sound
      obtain ⟨covered, pending⟩ := account sound
      refine ⟨covered, pending.mono (Set.union_subset_union_right _ fun r mem => ?_)⟩
      rcases InBuffer.cases_of_nextEntry entry mem with ⟨parsed, read, -⟩ | mem
      · rw [unread] at read
        cases read
      · exact mem
    · obtain ⟨covered, pending⟩ := account sound
      have grown : {r | r ∈ l.batch} ⊆ {r | r ∈ l.batch ++ [mftRecord frn parsed]} :=
        fun r mem => List.mem_append_left _ mem
      have covered' := covered.mono (Set.union_subset_union_right delivered grown)
      have pending' : ({ buffer with hadRecords := true, rest := after } : EnumBuffer).Covered
          env.volume delivered { l with batch := l.batch ++ [mftRecord frn parsed] }
          {r | env.volume.InBuffer after r} := by
        refine pending.mono ?_
        rintro r ((mem | mem) | mem)
        · exact .inl (.inl mem)
        · exact .inl (.inr (grown mem))
        · rcases InBuffer.cases_of_nextEntry entry mem with ⟨parsed', read', rfl⟩ | mem
          · rw [read] at read'
            cases read'
            exact .inl (.inr (List.mem_append_right _ (.head _)))
          · exact .inr mem
      rcases out with out | out <;> rw [out]
      · exact ⟨covered', pending'⟩
      · exact fun _ => ⟨covered', pending'⟩
  | sendingFull _ _ | sendingBuffer _ =>
    rw [ScanTask.next, silent.resolve_left (Option.some_ne_none _)]
    exact fun sound => absurd sound (by simp [ScanLocals.sent])
  | consumed l buffer =>
    rw [ScanTask.next]
    obtain ⟨ended, out⟩ | out | ⟨running, sound, -, out⟩ :=
      leaveBuffer_cases env l buffer
    · rw [out]
      exact fun sound => (account sound).1
    · rcases out with ⟨sound, out⟩ | out <;> rw [out]
      · exact (account sound).1
      · exact fun sound => (account sound).1
    · obtain ⟨covered, pending⟩ := account sound
      have past := pending running
      rw [EnumBuffer.Covered, Set.union_empty] at past
      have moved := Covers.trans covered past
      rcases out with out | out <;> rw [out]
      · exact moved
      · exact fun _ => moved
  | draining l =>
    rw [ScanTask.next]
    split_ifs with pending
    · rw [Bool.and_eq_true, Bool.not_eq_true', Bool.not_eq_true'] at pending
      exact account pending.2
    · trivial
  | sendingRest _ | done _ => trivial

/-- A batch that was written moves the last cursor to the position and the pending batch to
what was delivered; the account of the task starts afresh from there. -/
theorem ScanTask.Accounted.written (env : ScanEnv)
    (account : task.Accounted volume last delivered env.shouldStop) {records : List MftRecordV2}
    (writes : task.frame = some (.batch records cursor)) (negotiated : ProtocolVersion) :
    volume.Covers (delivered ∪ {r | r ∈ records}) last (decodeCursor cursor) ∧
      (task.next negotiated env).Accounted volume (decodeCursor cursor)
        (delivered ∪ {r | r ∈ records}) env.shouldStop := by
  cases task with
  | sendingFull l buffer =>
    obtain ⟨covered, pending⟩ := account
    cases writes
    rw [decodeCursor_encodeCursor]
    refine ⟨covered, fun _ => ⟨Covers.refl _ _, pending.mono ?_⟩⟩
    rintro r (mem | mem)
    · exact .inl (.inl mem)
    · exact .inr mem
  | sendingBuffer l =>
    cases writes
    rw [decodeCursor_encodeCursor]
    exact ⟨account, fun _ => Covers.refl _ _⟩
  | sendingRest l =>
    cases writes
    rw [decodeCursor_encodeCursor]
    exact ⟨account, trivial⟩
  | terminal success => cases success <;> cases writes
  | _ => cases writes

end Accounting

/-- A terminal is the last thing a scan writes. -/
theorem ScanTask.next_of_terminal {frame : ScanFrame} (writes : task.frame = some frame)
    (terminal : frame.cursor = none) (negotiated : ProtocolVersion) (env : ScanEnv) :
    ∃ result, task.next negotiated env = .done result := by
  cases task with
  | terminal success =>
    rw [ScanTask.next]
    split_ifs <;> exact ⟨_, rfl⟩
  | sendingFull _ _ | sendingBuffer _ | sendingRest _ => cases writes; cases terminal
  | _ => cases writes

/-! ## Whole runs -/

namespace ScanState

variable {volume : Volume} {cursor : List UInt8} {s : ScanState}

/-- The invariant of an interrupted scan. -/
structure Accounted (volume : Volume) (cursor : List UInt8) (s : ScanState) : Prop where
  covers : volume.Covers {r | r ∈ sentRecords s.sent} (decodeCursor cursor)
    (decodeCursor (lastCursor cursor s.sent))
  task : s.task.Accounted volume (decodeCursor (lastCursor cursor s.sent))
    {r | r ∈ sentRecords s.sent} s.shouldStop

theorem Accounted.start (volume : Volume) (cursor : List UInt8) :
    Accounted volume cursor (.start cursor) := ⟨Covers.refl _ _, rfl⟩

theorem Accounted.step (account : Accounted volume cursor s) (negotiated : ProtocolVersion)
    (action : ScanAction) : Accounted volume cursor (s.step negotiated volume action) := by
  cases action with
  | requestStop =>
    refine ⟨account.covers, ?_⟩
    have task := account.task
    rw [ScanState.step]
    cases reached : s.task with
    | consumed l buffer =>
      rw [reached] at task
      exact fun sound => ⟨(task sound).1, fun running => by cases running⟩
    | _ =>
      rw [reached] at task
      exact task
  | move opened written =>
    let env : ScanEnv := ⟨s.shouldStop, opened, written, volume⟩
    obtain ⟨covers, task⟩ := account
    have silent := task.next env rfl
    cases written with
    | false => exact ⟨covers, silent (.inr rfl) negotiated⟩
    | true =>
      rw [ScanState.step]
      cases writes : s.task.frame with
      | none =>
        rw [if_pos rfl, Option.toList_none, List.append_nil]
        exact ⟨covers, silent (.inl writes) negotiated⟩
      | some frame =>
        rw [if_pos rfl, Option.toList_some]
        cases carried : frame.cursor with
        | some resume =>
          obtain ⟨records, rfl⟩ := frame.eq_batch_of_cursor carried
          obtain ⟨reached, kept⟩ := task.written env writes negotiated
          have last : lastCursor cursor (s.sent ++ [.batch records resume]) = resume := by
            simp [lastCursor, ScanFrame.cursor]
          constructor <;> simp only [mem_sentRecords_append_batch, last]
          · exact (covers.mono Set.subset_union_left).trans reached
          · exact kept
        | none =>
          obtain ⟨result, ends⟩ := next_of_terminal writes carried negotiated env
          obtain ⟨same, kept⟩ := append_terminal carried cursor s.sent
          constructor
          · simp only [same, kept]
            exact covers
          · simp only [env] at ends
            rw [ends]
            trivial

theorem Accounted.run (actions : List ScanAction) (account : Accounted volume cursor s) :
    Accounted volume cursor (actions.foldl (ScanState.step negotiated volume) s) := by
  induction actions generalizing s with
  | nil => exact account
  | cons action actions ih => exact ih (account.step negotiated action)

/-- What a scan has sent and holds belongs to the enumeration from its start cursor. -/
structure Sound (volume : Volume) (origin : UInt64) (s : ScanState) : Prop where
  sent : ∀ r ∈ sentRecords s.sent, volume.Yields origin r
  task : s.task.Sound volume origin

theorem Sound.advance {origin : UInt64} (sound : Sound volume origin s)
    (negotiated : ProtocolVersion) : Sound volume origin (s.advance negotiated volume) where
  sent := by
    intro r mem
    rw [ScanState.advance, ScanState.step, if_pos rfl, sentRecords, List.flatMap_append,
      List.mem_append] at mem
    rcases mem with old | new
    · exact sound.sent r old
    · obtain ⟨frame, written, carried⟩ := List.mem_flatMap.mp new
      exact sound.task.frame (Option.mem_toList.mp written) carried
  task := sound.task.next negotiated _ rfl

theorem sound_iterate (volume : Volume) (cursor : List UInt8) (moves : Nat) :
    Sound volume (decodeCursor cursor)
      ((ScanState.advance negotiated volume)^[moves] (.start cursor)) := by
  induction moves with
  | zero => exact ⟨fun _ mem => (List.not_mem_nil mem).elim, rfl⟩
  | succ moves ih =>
    rw [Function.iterate_succ_apply']
    exact ih.advance negotiated

end ScanState

variable {r : MftRecordV2}

/-- An undisturbed scan sends only records of the enumeration. -/
theorem sent_yields {negotiated : ProtocolVersion} {moves : Nat}
    (sent : r ∈ sentRecords (uninterruptedScan negotiated volume cursor moves)) :
    volume.Yields (decodeCursor cursor) r :=
  (ScanState.sound_iterate negotiated volume cursor moves).sent r sent

/-! ## An undisturbed scan sends the whole enumeration -/

section Completeness

variable (negotiated : ProtocolVersion) (volume : Volume)

/-- An undisturbed scan in state `s` comes to state `t`. -/
def Leads (s t : ScanState) : Prop :=
  ∃ moves, (ScanState.advance negotiated volume)^[moves] s = t

variable {negotiated volume}

theorem Leads.trans {s t u : ScanState} (first : Leads negotiated volume s t)
    (second : Leads negotiated volume t u) : Leads negotiated volume s u := by
  obtain ⟨m, rfl⟩ := first
  obtain ⟨n, rfl⟩ := second
  exact ⟨n + m, Function.iterate_add_apply _ n m s⟩

variable {task task' : ScanTask} {sent : List ScanFrame}

theorem Leads.silent (quiet : task.frame = none)
    (next : task.next negotiated ⟨false, true, true, volume⟩ = task') :
    Leads negotiated volume ⟨task, false, sent⟩ ⟨task', false, sent⟩ := by
  refine ⟨1, ?_⟩
  rw [Function.iterate_one, ScanState.advance, ScanState.step, quiet, if_pos rfl,
    Option.toList_none, List.append_nil, next]

theorem Leads.writes {frame : ScanFrame} (writes : task.frame = some frame)
    (next : task.next negotiated ⟨false, true, true, volume⟩ = task') :
    Leads negotiated volume ⟨task, false, sent⟩ ⟨task', false, sent ++ [frame]⟩ := by
  refine ⟨1, ?_⟩
  rw [Function.iterate_one, ScanState.advance, ScanState.step, writes, if_pos rfl,
    Option.toList_some, next]

/-- The scan stands at a position and goes on from there. -/
structure ScanLocals.At (reference : UInt64) (l : ScanLocals) : Prop where
  position : l.nextFileReference = reference
  sound : l.writeFailed = false
  open_ : l.enumerationEnded = false

variable {reference : UInt64} {l : ScanLocals} {buffer : EnumBuffer}

/-- One entry of a buffer is taken, and its record is sent or pending then. -/
theorem Leads.takeEntry (at_ : l.At reference) (entry : nextEntry buffer.rest = some (frn, after))
    (sent : List ScanFrame) :
    ∃ l' sent', l'.At reference ∧
      Leads negotiated volume ⟨.consuming l buffer, false, sent⟩
        ⟨.consuming l' ⟨buffer.next, true, after⟩, false, sent'⟩ ∧
      ∀ r, r ∈ sentRecords sent ∨ r ∈ l.batch ∨
          (∃ parsed, volume.read frn = some parsed ∧ r = mftRecord frn parsed) →
        r ∈ sentRecords sent' ∨ r ∈ l'.batch := by
  cases read : volume.read frn with
  | none =>
    refine ⟨l, sent, at_, Leads.silent rfl ?_, ?_⟩
    · simp [ScanTask.next, consumeNext, at_.sound, entry, read]
    · rintro r (mem | mem | ⟨parsed, none_, -⟩)
      · exact .inl mem
      · exact .inr mem
      · cases none_
  | some parsed =>
    let grown : ScanLocals := { l with batch := l.batch ++ [mftRecord frn parsed] }
    have kept : ∀ r, r ∈ sentRecords sent ∨ r ∈ l.batch ∨
        (∃ other, some parsed = some other ∧ r = mftRecord frn other) →
          r ∈ sentRecords sent ∨ r ∈ grown.batch := by
      rintro r (mem | mem | ⟨other, same, rfl⟩)
      · exact .inl mem
      · exact .inr (List.mem_append_left _ mem)
      · cases same
        exact .inr (List.mem_append_right _ (.head _))
    have takes : (consuming l buffer).next negotiated ⟨false, true, true, volume⟩ =
        if grown.batch.length ≥ scanBatchSize then .sendingFull grown ⟨buffer.next, true, after⟩
        else .consuming grown ⟨buffer.next, true, after⟩ := by
      simp [ScanTask.next, consumeNext, at_.sound, entry, read, grown]
    by_cases full : grown.batch.length ≥ scanBatchSize
    · -- the batch is full and is sent at once
      refine ⟨grown.sent true, sent ++ [batchFrame grown.batch grown.nextFileReference],
        ⟨at_.position, rfl, at_.open_⟩, ?_, fun r mem => ?_⟩
      · exact (Leads.silent rfl (takes.trans (if_pos full))).trans (Leads.writes rfl rfl)
      · exact .inl (mem_sentRecords_append_batch.mpr (kept r mem))
    · exact ⟨grown, sent, ⟨at_.position, at_.sound, at_.open_⟩,
        Leads.silent rfl (takes.trans (if_neg full)), kept⟩

/-- A buffer is consumed to its end, and every record of it is sent or pending then. -/
theorem Leads.consume (negotiated : ProtocolVersion) (volume : Volume) (at_ : l.At reference)
    (buffer : EnumBuffer) (sent : List ScanFrame) :
    ∃ l' rest sent', l'.At reference ∧
      Leads negotiated volume ⟨.consuming l buffer, false, sent⟩
        ⟨.consumed l' ⟨buffer.next, buffer.hadRecords || (nextEntry buffer.rest).isSome, rest⟩,
          false, sent'⟩ ∧
      ∀ r, r ∈ sentRecords sent ∨ r ∈ l.batch ∨ volume.InBuffer buffer.rest r →
        r ∈ sentRecords sent' ∨ r ∈ l'.batch := by
  -- each entry shortens the buffer
  induction total : buffer.rest.length using Nat.strong_induction_on
    generalizing l buffer sent with
  | _ size ih =>
    cases entry : nextEntry buffer.rest with
    | none =>
      refine ⟨l, buffer.rest, sent, at_, Leads.silent rfl ?_, ?_⟩
      · simp [ScanTask.next, consumeNext, at_.sound, entry]
      · rintro r (mem | mem | mem)
        · exact .inl mem
        · exact .inr mem
        · have some_ := mem.nextEntry_isSome
          rw [entry] at some_
          cases some_
    | some found =>
      obtain ⟨frn, after⟩ := found
      have shorter : after.length < size := total ▸ length_lt_of_nextEntry entry
      obtain ⟨l₁, sent₁, at₁, first, kept₁⟩ := Leads.takeEntry at_ entry sent
      obtain ⟨l', rest, sent', at', second, kept'⟩ :=
        ih after.length shorter at₁ ⟨buffer.next, true, after⟩ sent₁ rfl
      refine ⟨l', rest, sent', at', ?_, fun r mem => ?_⟩
      · rw [Option.isSome_some, Bool.or_true]
        exact first.trans second
      · rcases mem with mem | mem | mem
        · exact kept' r ((kept₁ r (.inl mem)).imp_right Or.inl)
        · exact kept' r ((kept₁ r (.inr (.inl mem))).imp_right Or.inl)
        · rcases InBuffer.cases_of_nextEntry entry mem with taken | mem
          · exact kept' r ((kept₁ r (.inr (.inr taken))).imp_right Or.inl)
          · exact kept' r (.inr (.inr mem))

/-- A page the scan goes past is sent completely. -/
theorem Leads.page (at_ : l.At reference) (page : volume.page reference = some buffer)
    (continues : (nextEntry buffer.rest).isSome = true ∨ reference < buffer.next)
    (sent : List ScanFrame) :
    ∃ l' sent', l'.At buffer.next ∧
      Leads negotiated volume ⟨.enumerating l, false, sent⟩ ⟨.enumerating l', false, sent'⟩ ∧
      ∀ r, volume.InBuffer buffer.rest r → r ∈ sentRecords sent' := by
  obtain ⟨rfl, sound, open_⟩ := at_
  have goesOn : ¬ (l.enumerationEnded || false || l.writeFailed) = true := by simp [sound, open_]
  have reads : (ScanTask.enumerating l).next negotiated ⟨false, true, true, volume⟩ =
      .consuming l buffer := by
    rw [ScanTask.next, ScanTask.enumerateNext, if_neg goesOn]
    unfold Volume.page at page
    cases reply : volume.enumerate l.nextFileReference with
    | error endOfFile => rw [reply] at page; cases page
    | bytes data =>
      rw [reply] at page
      simp only at page ⊢
      split_ifs at page ⊢ with short
      cases page
      rfl
  obtain ⟨l', rest, sent', at', consumed, kept⟩ :=
    Leads.consume negotiated volume ⟨rfl, sound, open_⟩ buffer sent
  rw [Volume.hadRecords_of_page page, Bool.false_or] at consumed
  have arrived := (Leads.silent rfl reads).trans consumed
  have leaves : ¬ (false || l'.writeFailed) = true := by simp [at'.sound]
  let moved : ScanLocals := { l' with nextFileReference := buffer.next }
  cases entries : (nextEntry buffer.rest).isSome with
  | true =>
    rw [entries] at arrived
    refine ⟨moved.sent true, sent' ++ [batchFrame moved.batch moved.nextFileReference],
      ⟨rfl, rfl, at'.open_⟩, ?_, ?_⟩
    · have sends : (ScanTask.consumed l' ⟨buffer.next, true, rest⟩).next negotiated
          ⟨false, true, true, volume⟩ = .sendingBuffer moved := by
        simp [ScanTask.next, ScanTask.leaveBuffer, at'.sound, moved]
      exact arrived.trans ((Leads.silent rfl sends).trans (Leads.writes rfl rfl))
    · exact fun r mem => mem_sentRecords_append_batch.mpr (kept r (.inr (.inr mem)))
  | false =>
    rw [entries] at arrived continues
    have forward := continues.resolve_left Bool.false_ne_true
    refine ⟨moved, sent', ⟨rfl, at'.sound, at'.open_⟩, ?_, ?_⟩
    · have passes : (ScanTask.consumed l' ⟨buffer.next, false, rest⟩).next negotiated
          ⟨false, true, true, volume⟩ = .enumerating moved := by
        have ahead : ¬ buffer.next ≤ l'.nextFileReference := by
          rw [at'.position, UInt64.not_le]
          exact forward
        simp [ScanTask.next, ScanTask.leaveBuffer, at'.sound, moved, ahead]
      exact arrived.trans (Leads.silent rfl passes)
    · intro r mem
      have entry := mem.nextEntry_isSome
      rw [entries] at entry
      cases entry

/-- An undisturbed scan comes to every record of the enumeration. -/
theorem eventually_sent (negotiated : ProtocolVersion)
    (yields : volume.Yields reference r) (at_ : l.At reference) (sent : List ScanFrame) :
    ∃ t, Leads negotiated volume ⟨.enumerating l, false, sent⟩ t ∧ r ∈ sentRecords t.sent := by
  induction yields generalizing l sent with
  | here found =>
    obtain ⟨buffer, page, mem⟩ := found
    obtain ⟨l', sent', -, leads, all⟩ :=
      Leads.page at_ page (.inl mem.nextEntry_isSome) sent
    exact ⟨_, leads, all _ mem⟩
  | later continues _ ih =>
    obtain ⟨buffer, page, rfl, forward⟩ := continues
    obtain ⟨l', sent', at', leads, -⟩ := Leads.page at_ page forward sent
    obtain ⟨t, onward, mem⟩ := ih at' sent'
    exact ⟨t, leads.trans onward, mem⟩

end Completeness

/-! ## Resuming -/

theorem yields_sent (yields : volume.Yields (decodeCursor cursor) r) :
    ∃ moves, r ∈ sentRecords (uninterruptedScan negotiated volume cursor moves) := by
  have opens : Leads negotiated volume (.start cursor) ⟨.enumerating (.start cursor), false, []⟩ :=
    (Leads.silent rfl rfl).trans (Leads.silent rfl rfl)
  have begun : (ScanLocals.start cursor).At (decodeCursor cursor) := ⟨rfl, rfl, rfl⟩
  obtain ⟨t, leads, mem⟩ := eventually_sent negotiated yields begun []
  obtain ⟨moves, reached⟩ := opens.trans leads
  exact ⟨moves, by rw [uninterruptedScan, reached]; exact mem⟩

/-- The records of the uninterrupted scan are those an interrupted one has sent, and those of
a new scan from the last cursor it has sent. -/
theorem scan_resumable (negotiated negotiated' negotiated'' : ProtocolVersion) (volume : Volume)
    (cursor : List UInt8) (actions : List ScanAction) :
    {r | ∃ moves, r ∈ sentRecords (uninterruptedScan negotiated volume cursor moves)} ⊆
      {r | r ∈ sentRecords (interruptedScan negotiated' volume cursor actions)} ∪
      {r | ∃ moves, r ∈ sentRecords (uninterruptedScan negotiated'' volume
        (lastCursor cursor (interruptedScan negotiated' volume cursor actions)) moves)} := by
  rintro r ⟨moves, sent⟩
  have account := (ScanState.Accounted.start volume cursor).run negotiated' actions
  rcases account.covers r (sent_yields sent) with delivered | later
  · exact .inl delivered
  · exact .inr (yields_sent negotiated'' later)

/-! ## Any number of interruptions -/

/-- A frame carries records of the enumeration, and so is what follows its cursor. -/
structure ScanFrame.Sound (volume : Volume) (origin : UInt64) (frame : ScanFrame) : Prop where
  records : ∀ r ∈ frame.records, volume.Yields origin r
  cursor : ∀ resume, frame.cursor = some resume → Within volume origin (decodeCursor resume)

theorem ScanTask.Sound.writes {task : ScanTask} {origin : UInt64}
    (sound : task.Sound volume origin) {frame : ScanFrame} (writes : task.frame = some frame) :
    frame.Sound volume origin := by
  refine ⟨fun r => sound.frame writes, fun resume carried => ?_⟩
  cases task with
  | sendingFull l buffer =>
    cases writes; cases carried
    rw [decodeCursor_encodeCursor]
    exact sound.1.position
  | sendingBuffer l | sendingRest l =>
    cases writes; cases carried
    rw [decodeCursor_encodeCursor]
    exact sound.position
  | terminal success => cases success <;> cases writes <;> cases carried
  | _ => cases writes

/-- However a scan is disturbed, its frames stay within the enumeration from its cursor. -/
theorem sound_interruptedScan (actions : List ScanAction) :
    ∀ frame ∈ interruptedScan negotiated volume cursor actions,
      frame.Sound volume (decodeCursor cursor) := by
  refine (List.foldlRecOn (b := .start cursor) actions (ScanState.step negotiated volume)
    (motive := fun s : ScanState => s.task.Sound volume (decodeCursor cursor) ∧
      ∀ frame ∈ s.sent, frame.Sound volume (decodeCursor cursor))
    ⟨rfl, fun _ mem => absurd mem List.not_mem_nil⟩ ?_).2
  rintro s ⟨task, sent⟩ action -
  cases action with
  | requestStop => exact ⟨task, sent⟩
  | move opened written =>
    refine ⟨task.next negotiated _ rfl, fun frame mem => ?_⟩
    rw [ScanState.step] at mem
    cases written with
    | false => exact sent frame mem
    | true =>
      rcases List.mem_append.mp mem with old | new
      · exact sent frame old
      · exact task.writes (Option.mem_toList.mp new)

/-- An interrupted scan splits the enumeration at the last cursor it has sent. -/
theorem yields_iff_interrupted (actions : List ScanAction) :
    volume.Yields (decodeCursor cursor) r ↔
      r ∈ sentRecords (interruptedScan negotiated volume cursor actions) ∨ volume.Yields
        (decodeCursor (lastCursor cursor (interruptedScan negotiated volume cursor actions))) r := by
  constructor
  · exact ((ScanState.Accounted.start volume cursor).run negotiated actions).covers r
  · rintro (sent | later)
    · obtain ⟨frame, mem, carried⟩ := List.mem_flatMap.mp sent
      exact (sound_interruptedScan negotiated actions frame mem).records r carried
    · rw [lastCursor] at later
      cases last : ((interruptedScan negotiated volume cursor actions).filterMap
          ScanFrame.cursor).getLast? with
      | none => rwa [last] at later
      | some resume =>
        rw [last] at later
        obtain ⟨frame, mem, carried⟩ := List.mem_filterMap.mp (List.mem_of_getLast? last)
        exact (sound_interruptedScan negotiated actions frame mem).cursor resume carried r later

/-- The frames of scans of which each is resumed from the last cursor sent before it. -/
def resumedScans (volume : Volume) (cursor : List UInt8) :
    List (ProtocolVersion × List ScanAction) → List ScanFrame
  | [] => []
  | (negotiated, actions) :: scans =>
    let sent := interruptedScan negotiated volume cursor actions
    sent ++ resumedScans volume (lastCursor cursor sent) scans

theorem yields_iff_resumed (scans : List (ProtocolVersion × List ScanAction)) :
    volume.Yields (decodeCursor cursor) r ↔ r ∈ sentRecords (resumedScans volume cursor scans) ∨
      volume.Yields (decodeCursor (lastCursor cursor (resumedScans volume cursor scans))) r := by
  induction scans generalizing cursor with
  | nil => simp [resumedScans, sentRecords, lastCursor]
  | cons scan scans ih =>
    obtain ⟨negotiated, actions⟩ := scan
    rw [yields_iff_interrupted negotiated actions, ih]
    simp [resumedScans, sentRecords, lastCursor, or_assoc]

/-- However often a scan breaks off and is resumed from its last cursor, what was sent and what
an undisturbed scan then sends are the records of one undisturbed scan, no more and no fewer. -/
theorem resumed_scans_exact (negotiated negotiated' : ProtocolVersion) (volume : Volume)
    (cursor : List UInt8) (scans : List (ProtocolVersion × List ScanAction)) :
    {r | ∃ moves, r ∈ sentRecords (uninterruptedScan negotiated volume cursor moves)} =
      {r | r ∈ sentRecords (resumedScans volume cursor scans)} ∪
      {r | ∃ moves, r ∈ sentRecords (uninterruptedScan negotiated' volume
        (lastCursor cursor (resumedScans volume cursor scans)) moves)} := by
  have sends (negotiated cursor r) :
      (∃ moves, r ∈ sentRecords (uninterruptedScan negotiated volume cursor moves)) ↔
        volume.Yields (decodeCursor cursor) r :=
    ⟨fun ⟨_, sent⟩ => sent_yields sent, yields_sent negotiated⟩
  ext r
  simp only [Set.mem_union, Set.mem_ofPred_eq, sends]
  exact yields_iff_resumed scans

end FastFiles.Service
