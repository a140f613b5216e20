import FastFiles.Protocol.Records

/-!
# The volume scan

The scan worker of `VolumeScanner.cpp` as a machine that makes one observable move at a
time: it looks at the stop flag, asks the volume, or writes one frame.  A `ScanTask` is
the point the thread has reached together with the locals of `RunVolumeScan`;
`ScanTask.frame` is the frame it is about to write and `ScanTask.next` where it goes
with what its environment answers.

The bytes of an enumeration buffer are parsed here as the scanner parses them.  The
record parser itself (`ApplyFixupAndValidate`, then `ParseMftAttributes`, modelled in
`Service.Fixup` and `Service.MftParser`) is a parameter: nothing here depends on which records
it forwards.  A volume answers alike for one number throughout a read, and a peer below {2,1}
gets the records of a batch without their allocated sizes.
-/

namespace FastFiles.Service

open Protocol

/-! ## The volume -/

/-- What the record parser forwards.  The name length is a byte of the record and the
parser takes no empty name. -/
structure ParsedMftRecord where
  parentFileReferenceNumber : UInt64
  creationTime : UInt64
  lastModifiedTime : UInt64
  lastAccessTime : UInt64
  sizeBytes : UInt64
  allocatedSizeBytes : UInt64
  fileAttributes : UInt32
  fileName : List UInt16
  one_le_length : 1 ≤ fileName.length
  length_le : fileName.length ≤ 255
deriving DecidableEq

/-- The answer to `FSCTL_GET_NTFS_FILE_RECORD`. -/
structure FileRecordReply where
  fileReferenceNumber : UInt64
  fileRecordLength : Nat
  fileRecordBuffer : List UInt8
deriving DecidableEq

/-- The answer to `FSCTL_ENUM_USN_DATA`. -/
inductive EnumReply
  /-- The call failed; `endOfFile` when the error is `ERROR_HANDLE_EOF`. -/
  | error (endOfFile : Bool)
  /-- The bytes returned. -/
  | bytes (data : List UInt8)
deriving DecidableEq

/-- A volume as the service sees it. -/
structure Volume where
  recordSize : Nat
  enumerate : UInt64 → EnumReply
  fileRecord : UInt64 → Option FileRecordReply
  parse : List UInt8 → Option ParsedMftRecord

def mftSegmentNumberMask : UInt64 := 0x0000FFFFFFFFFFFF

/-- Fetch and parse one record.  The volume may answer with a nearby record, so the
segment number is compared; the sequence number is not. -/
def Volume.read (volume : Volume) (frn : UInt64) : Option ParsedMftRecord :=
  match volume.fileRecord frn with
  | none => none
  | some output =>
    if output.fileReferenceNumber &&& mftSegmentNumberMask != frn &&& mftSegmentNumberMask then none
    else if output.fileRecordLength = 0 ∨ volume.recordSize < output.fileRecordLength then none
    else volume.parse (output.fileRecordBuffer.take output.fileRecordLength)

/-- The record forwarded for a parsed file record. -/
def mftRecord (frn : UInt64) (parsed : ParsedMftRecord) : MftRecordV2 where
  fixed :=
    { fileReferenceNumber := frn
      parentFileReferenceNumber := parsed.parentFileReferenceNumber
      creationTime := parsed.creationTime
      lastModifiedTime := parsed.lastModifiedTime
      lastAccessTime := parsed.lastAccessTime
      sizeBytes := parsed.sizeBytes
      allocatedSizeBytes := parsed.allocatedSizeBytes
      fileAttributes := parsed.fileAttributes
      fileNameLengthChars := UInt16.ofNat parsed.fileName.length }
  fileName := parsed.fileName

/-! ## Cursors and buffers -/

def decodeCursor (cursor : List UInt8) : UInt64 :=
  if cursor.length ≠ 8 then 0 else Codec.uint64.decode cursor

def encodeCursor (nextFileReference : UInt64) : List UInt8 :=
  Codec.uint64.encode nextFileReference

@[simp] theorem decodeCursor_encodeCursor (reference : UInt64) :
    decodeCursor (encodeCursor reference) = reference := by
  have eight : (encodeCursor reference).length = 8 := Codec.uint64.length_encode reference
  rw [decodeCursor, if_neg (by simp [eight]), encodeCursor, Codec.decode_encode]

/-- `sizeof(USN_RECORD_V2)`. -/
def usnRecordV2Size : Nat := 64

/-- The file reference of the first entry of a buffer and the bytes after that entry.
`none` ends the loop over the buffer: too few bytes, or a malformed record length. -/
def nextEntry (rest : List UInt8) : Option (UInt64 × List UInt8) :=
  if rest.length < usnRecordV2Size then none
  else
    let recordLength := (Codec.uint32.readAt 0 rest).toNat
    if recordLength = 0 ∨ rest.length < recordLength then none
    else some (Codec.uint64.readAt 8 rest, rest.drop recordLength)

theorem length_lt_of_nextEntry {rest after : List UInt8} {frn : UInt64}
    (entry : nextEntry rest = some (frn, after)) : after.length < rest.length := by
  unfold nextEntry at entry
  split at entry
  · cases entry
  · simp only at entry
    split at entry
    · cases entry
    · cases entry
      rw [List.length_drop]
      omega

/-! ## Frames -/

/-- A frame of a scan worker, with the records as they are handed to `SendBatch`. -/
inductive ScanFrame
  | batch (records : List MftRecordV2) (cursor : List UInt8)
  | complete
  | failed
deriving DecidableEq

namespace ScanFrame

def records : ScanFrame → List MftRecordV2
  | batch records _ => records
  | _ => []

def cursor : ScanFrame → Option (List UInt8)
  | batch _ cursor => some cursor
  | _ => none

end ScanFrame

/-- The batch `SendBatch` writes. -/
def batchFrame (records : List MftRecordV2) (nextFileReference : UInt64) : ScanFrame :=
  .batch records (encodeCursor nextFileReference)

/-! ## The scan -/

def scanBatchSize : Nat := 64

/-- The locals of `RunVolumeScan`. -/
structure ScanLocals where
  nextFileReference : UInt64
  batch : List MftRecordV2
  writeFailed : Bool
  enumerationEnded : Bool
  enumerationFailed : Bool
deriving DecidableEq

namespace ScanLocals

def start (resumeCursor : List UInt8) : ScanLocals where
  nextFileReference := decodeCursor resumeCursor
  batch := []
  writeFailed := false
  enumerationEnded := false
  enumerationFailed := false

/-- The result of `SendBatch`; the batch is cleared either way. -/
def sent (l : ScanLocals) (written : Bool) : ScanLocals :=
  { l with batch := [], writeFailed := !written }

/-- The enumeration call failed, or its reply has no cursor. -/
def ended (l : ScanLocals) (failed : Bool) : ScanLocals :=
  { l with enumerationEnded := true, enumerationFailed := failed }

end ScanLocals

inductive ScanRunResult
  | completed
  | cancelled
  | transportFailed
  | failedTerminalDelivered
  | failureAbortedConnection
deriving DecidableEq

/-- The part of a buffer that is not processed yet. -/
structure EnumBuffer where
  /-- `bufferNextFileReference`. -/
  next : UInt64
  hadRecords : Bool
  rest : List UInt8
deriving DecidableEq

/-- Where the scan thread stands. -/
inductive ScanTask
  | begin (resumeCursor : List UInt8)
  /-- The privilege, the volume handle and the volume geometry. -/
  | opening (resumeCursor : List UInt8)
  /-- `DeliverFailedScanTerminal`. -/
  | deliverFailed
  /-- The head of the outer loop. -/
  | enumerating (l : ScanLocals)
  /-- The head of the loop over one buffer. -/
  | consuming (l : ScanLocals) (buffer : EnumBuffer)
  /-- A full batch in the middle of a buffer. -/
  | sendingFull (l : ScanLocals) (buffer : EnumBuffer)
  /-- After the loop over one buffer. -/
  | consumed (l : ScanLocals) (buffer : EnumBuffer)
  /-- The batch at the end of a buffer. -/
  | sendingBuffer (l : ScanLocals)
  /-- After the outer loop. -/
  | draining (l : ScanLocals)
  | sendingRest (l : ScanLocals)
  /-- `ScanOutput::Finish`. -/
  | finishing (l : ScanLocals)
  /-- `SendScanTerminal`, with a terminal the peer can parse. -/
  | terminal (success : Bool)
  | done (result : ScanRunResult)
deriving DecidableEq

/-- What the surroundings answer to one move. -/
structure ScanEnv where
  shouldStop : Bool
  opened : Bool
  written : Bool
  volume : Volume

namespace ScanTask

/-- The frame this move writes. -/
def frame : ScanTask → Option ScanFrame
  | sendingFull l _ | sendingBuffer l | sendingRest l => some (batchFrame l.batch l.nextFileReference)
  | terminal true => some .complete
  | terminal false => some .failed
  | _ => none

variable (negotiated : ProtocolVersion) (env : ScanEnv) (l : ScanLocals)

/-- The terminal decision of `SendScanTerminal`: a failure the peer cannot parse has none. -/
def decideTerminal (success : Bool) : ScanTask :=
  if !success && !negotiated.supportsScanFailure then done .failureAbortedConnection
  else terminal success

/-- The head of the outer loop. -/
def enumerateNext : ScanTask :=
  if l.enumerationEnded || env.shouldStop || l.writeFailed then draining l
  else
    match env.volume.enumerate l.nextFileReference with
    | .error endOfFile => draining (l.ended !endOfFile)
    | .bytes data =>
      if data.length < 8 then draining (l.ended true)
      else consuming l ⟨Codec.uint64.decode (data.take 8), false, data.drop 8⟩

/-- The loop over one buffer.  `nextFileReference` does not change in it, so the cursor of
a full batch is the start of the buffer. -/
def consumeNext (buffer : EnumBuffer) : ScanTask :=
  if env.shouldStop || l.writeFailed then consumed l buffer
  else
    match nextEntry buffer.rest with
    | none => consumed l buffer
    | some (frn, rest) =>
      let buffer := { buffer with hadRecords := true, rest }
      match env.volume.read frn with
      | none => consuming l buffer
      | some parsed =>
        let l := { l with batch := l.batch ++ [mftRecord frn parsed] }
        if l.batch.length ≥ scanBatchSize then sendingFull l buffer else consuming l buffer

/-- After the loop over one buffer. -/
def leaveBuffer (buffer : EnumBuffer) : ScanTask :=
  let bufferAbandoned := env.shouldStop || l.writeFailed
  if !bufferAbandoned && !buffer.hadRecords && decide (buffer.next ≤ l.nextFileReference) then
    -- no record and no forward progress counts as the end of the enumeration
    draining { l with enumerationEnded := true }
  else
    let l := if bufferAbandoned then l else { l with nextFileReference := buffer.next }
    if !l.writeFailed && buffer.hadRecords then sendingBuffer l else enumerating l

def next : ScanTask → ScanTask
  | begin cursor => if env.shouldStop then done .cancelled else opening cursor
  | opening cursor => if env.opened then enumerating (.start cursor) else deliverFailed
  | deliverFailed => if env.shouldStop then done .cancelled else decideTerminal negotiated false
  | enumerating l => enumerateNext env l
  | consuming l buffer => consumeNext env l buffer
  | sendingFull l buffer => consuming (l.sent env.written) buffer
  | consumed l buffer => leaveBuffer env l buffer
  | sendingBuffer l => enumerating (l.sent env.written)
  | draining l => if !l.batch.isEmpty && !l.writeFailed then sendingRest l else finishing l
  | sendingRest l => finishing { l with writeFailed := !env.written }
  | finishing l =>
    if l.writeFailed then done .transportFailed
    else if env.shouldStop then done .cancelled
    else decideTerminal negotiated !l.enumerationFailed
  | terminal success =>
    if !env.written then done .transportFailed
    else if success then done .completed else done .failedTerminalDelivered
  | done result => done result

end ScanTask

end FastFiles.Service
