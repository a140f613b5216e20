import FastFiles.Protocol.JournalFrames
import FastFiles.Service.Scanner

/-!
# The journal reader

How `RunUsnJournalStream` turns the bytes of one journal read into records:
`DecodeUsnRecord` (`UsnRecordParser.cpp`), the enrichment of a record from the file
table, and the loop over the read buffer.  The batch is sent and cleared after every
read, so a batch holds the records of one read.
-/

namespace FastFiles.Service

open Protocol Codec

/-! ## Raw journal records -/

structure DecodedUsnRecord where
  usn : UInt64
  fileReferenceNumber : UInt64
  parentFileReferenceNumber : UInt64
  reason : UInt32
  timestamp : UInt64
  fileAttributes : UInt32
  fileNameLength : UInt16
  fileNameOffset : UInt16
deriving DecidableEq

/-- `sizeof(USN_RECORD_COMMON_HEADER)`. -/
def commonHeaderSize : Nat := 8

/-- `offsetof(USN_RECORD_V2, FileName)` and `offsetof(USN_RECORD_V3, FileName)`. -/
def usnRecordV2NameOffset : Nat := 60
def usnRecordV3NameOffset : Nat := 76

/-- A 128-bit file id is taken only if its high half is zero. -/
def decodeNtfsFileId (offset : Nat) (record : List UInt8) : Option UInt64 :=
  if uint64.readAt (offset + 8) record = 0 then some (uint64.readAt offset record)
  else none

def validateFilenameRange (filenameOffset filenameLength : UInt16)
    (recordLength minimumFilenameOffset : Nat) : Bool :=
  if filenameOffset.toNat < minimumFilenameOffset ∨ filenameLength.toNat % 2 ≠ 0 then false
  else decide (filenameOffset.toNat + filenameLength.toNat ≤ recordLength)

variable (volume : Volume) (record : List UInt8)

def decodeUsnRecordV2 : DecodedUsnRecord where
  usn := uint64.readAt 24 record
  fileReferenceNumber := uint64.readAt 8 record
  parentFileReferenceNumber := uint64.readAt 16 record
  reason := uint32.readAt 40 record
  timestamp := uint64.readAt 32 record
  fileAttributes := uint32.readAt 52 record
  fileNameLength := uint16.readAt 56 record
  fileNameOffset := uint16.readAt 58 record

def decodeUsnRecordV3 (fileId parentId : UInt64) : DecodedUsnRecord where
  usn := uint64.readAt 40 record
  fileReferenceNumber := fileId
  parentFileReferenceNumber := parentId
  reason := uint32.readAt 56 record
  timestamp := uint64.readAt 48 record
  fileAttributes := uint32.readAt 68 record
  fileNameLength := uint16.readAt 72 record
  fileNameOffset := uint16.readAt 74 record

/-- The version switch of `DecodeUsnRecord`: the fields and the least offset of the name. -/
def decodeUsnFields (declaredRecordLength : Nat) : Option (DecodedUsnRecord × Nat) :=
  let majorVersion := uint16.readAt 4 record
  if majorVersion = 2 then
    if declaredRecordLength < usnRecordV2NameOffset then none
    else some (decodeUsnRecordV2 record, usnRecordV2NameOffset)
  else if majorVersion = 3 then
    if declaredRecordLength < usnRecordV3NameOffset then none
    else
      match decodeNtfsFileId 8 record, decodeNtfsFileId 24 record with
      | some fileId, some parentId =>
        some (decodeUsnRecordV3 record fileId parentId, usnRecordV3NameOffset)
      | _, _ => none
  else none

def decodeUsnRecord : Option DecodedUsnRecord :=
  if record.length < commonHeaderSize then none
  else
    let declaredRecordLength := (uint32.readAt 0 record).toNat
    if declaredRecordLength < commonHeaderSize ∨ record.length < declaredRecordLength then none
    else
      match decodeUsnFields record declaredRecordLength with
      | none => none
      | some (decoded, minimumFilenameOffset) =>
        if validateFilenameRange decoded.fileNameOffset decoded.fileNameLength
            declaredRecordLength minimumFilenameOffset then some decoded
        else none

/-! ## Records for the peer -/

/-- The record re-read from the file table: every field is present. -/
def enrichedDelta (decoded : DecodedUsnRecord) (enriched : ParsedMftRecord) : UsnDeltaV3 where
  fixed :=
    { usn := decoded.usn
      fileReferenceNumber := decoded.fileReferenceNumber
      parentFileReferenceNumber := enriched.parentFileReferenceNumber
      reason := decoded.reason
      timestamp := decoded.timestamp
      creationTime := enriched.creationTime
      lastModifiedTime := enriched.lastModifiedTime
      lastAccessTime := enriched.lastAccessTime
      sizeBytes := enriched.sizeBytes
      allocatedSizeBytes := enriched.allocatedSizeBytes
      fileAttributes := enriched.fileAttributes
      fieldMask := usnFieldParentId ||| usnFieldName ||| usnFieldSizeBytes |||
        usnFieldCreationTime ||| usnFieldLastModifiedTime ||| usnFieldLastAccessTime |||
        usnFieldAttributes ||| usnFieldAllocatedSizeBytes
      fileNameLengthChars := UInt16.ofNat enriched.fileName.length }
  fileName := enriched.fileName

/-- The record as the journal has it, most commonly a deletion. -/
def fallbackDelta (decoded : DecodedUsnRecord) (record : List UInt8) : UsnDeltaV3 :=
  let fileName := uint16.decodeMany (decoded.fileNameLength.toNat / 2)
    (record.drop decoded.fileNameOffset.toNat)
  { fixed :=
      { usn := decoded.usn
        fileReferenceNumber := decoded.fileReferenceNumber
        parentFileReferenceNumber := decoded.parentFileReferenceNumber
        reason := decoded.reason
        timestamp := decoded.timestamp
        creationTime := 0
        lastModifiedTime := decoded.timestamp
        lastAccessTime := 0
        sizeBytes := 0
        allocatedSizeBytes := 0
        fileAttributes := decoded.fileAttributes
        fieldMask := usnFieldParentId ||| usnFieldName ||| usnFieldLastModifiedTime |||
          usnFieldAttributes
        fileNameLengthChars := UInt16.ofNat fileName.length }
    fileName := fileName }

/-- The record forwarded for a decoded one.  `volume.read` is `TryReenrichFromMft`. -/
def journalDelta (decoded : DecodedUsnRecord) : UsnDeltaV3 :=
  match volume.read decoded.fileReferenceNumber with
  | some enriched => enrichedDelta decoded enriched
  | none => fallbackDelta decoded record

/-- What one raw record contributes to the batch: nothing if it does not decode, or its name
length is out of range. -/
def journalRecord : Option UsnDeltaV3 :=
  match decodeUsnRecord record with
  | none => none
  | some decoded =>
    let delta := journalDelta volume record decoded
    if isFileNameLengthValid delta.fixed.fileNameLengthChars then some delta else none

/-- The loop over the read buffer. -/
def journalRecords (volume : Volume) (rest : List UInt8) : List UsnDeltaV3 :=
  if rest.length < commonHeaderSize then []
  else
    let recordLength := (uint32.readAt 0 rest).toNat
    if recordLength = 0 ∨ rest.length < recordLength then []
    else
      (journalRecord volume (rest.take recordLength)).toList ++
        journalRecords volume (rest.drop recordLength)
termination_by rest.length
decreasing_by
  simp only [commonHeaderSize, List.length_drop] at *
  omega

/-- `kReadBufferSize`. -/
def readBufferSize : Nat := 64 * 1024

/-- The bytes returned by one `FSCTL_READ_USN_JOURNAL`. -/
structure JournalReply where
  bytes : List UInt8
  length_le : bytes.length ≤ readBufferSize

/-- The records of one read: the reply starts with the next position. -/
def journalReadRecords (reply : List UInt8) : List UsnDeltaV3 :=
  journalRecords volume (reply.drop 8)

/-! ## The stream -/

/-- A frame of a journal worker, with the records as they are handed to `SendJournalBatch`. -/
inductive JournalFrame
  | opened (journalId currentUsn : UInt64)
  | batch (records : List UsnDeltaV3) (latestUsn : UInt64)
  | resumeInvalid
deriving DecidableEq

inductive JournalStreamOutcome
  | ended
  | resumePositionInvalid
deriving DecidableEq

/-- The result of one `FSCTL_READ_USN_JOURNAL`. -/
inductive JournalRead
  /-- The call failed; `outOfRange` when the position is not in the journal any more. -/
  | error (outOfRange : Bool)
  | bytes (reply : JournalReply)

/-- Where the journal thread stands, from `RunUsnJournalStream` to the end of its thread
function. -/
inductive JournalTask
  | opening (resumeUsn : UInt64)
  | sendingOpened (journalId currentUsn resumeUsn : UInt64)
  /-- The volume geometry is queried after the journal was announced. -/
  | measuring (resumeUsn : UInt64)
  | reading (startUsn latestUsnInBatch : UInt64)
  | sendingBatch (records : List UsnDeltaV3) (startUsn latestUsnInBatch : UInt64)
  | streamEnded (outcome : JournalStreamOutcome)
  | sendingInvalid
  | done
deriving DecidableEq

structure JournalEnv where
  shouldStop : Bool
  /-- The journal id and next position, if the volume and its journal could be opened. -/
  journal : Option (UInt64 × UInt64)
  measured : Bool
  read : JournalRead
  written : Bool
  volume : Volume

namespace JournalTask

def frame : JournalTask → Option JournalFrame
  | sendingOpened journalId currentUsn _ => some (.opened journalId currentUsn)
  | sendingBatch records _ latestUsn => some (.batch records latestUsn)
  | sendingInvalid => some .resumeInvalid
  | _ => none

/-- One turn of the read loop. -/
def readNext (env : JournalEnv) (latestUsnInBatch : UInt64) : JournalTask :=
  if env.shouldStop then streamEnded .ended
  else
    match env.read with
    | .error outOfRange => streamEnded (if outOfRange then .resumePositionInvalid else .ended)
    | .bytes reply =>
      if reply.bytes.length < 8 then streamEnded .ended
      else
        let nextUsn := uint64.readAt 0 reply.bytes
        let records := journalReadRecords env.volume reply.bytes
        match records.getLast? with
        | none => reading nextUsn latestUsnInBatch
        | some latest => sendingBatch records nextUsn latest.fixed.usn

def next (negotiated : ProtocolVersion) (env : JournalEnv) : JournalTask → JournalTask
  | opening resumeUsn =>
    match env.journal with
    | none => streamEnded .ended
    | some (journalId, nextUsn) => sendingOpened journalId nextUsn resumeUsn
  | sendingOpened _ _ resumeUsn => if env.written then measuring resumeUsn else streamEnded .ended
  | measuring resumeUsn => if env.measured then reading resumeUsn resumeUsn else streamEnded .ended
  | reading _ latestUsnInBatch => readNext env latestUsnInBatch
  | sendingBatch _ startUsn latestUsnInBatch =>
    if env.written then reading startUsn latestUsnInBatch else streamEnded .ended
  | streamEnded outcome =>
    if outcome = .resumePositionInvalid ∧ negotiated.major ≠ 1 then sendingInvalid else done
  | sendingInvalid => done
  | done => done

end JournalTask

end FastFiles.Service
