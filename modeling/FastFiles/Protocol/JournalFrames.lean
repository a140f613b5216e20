import FastFiles.Protocol.Records

/-!
# Journal batch frames

The three messages that carry journal records, written by the service
(`SendJournalBatch`) and read by the engine (`DispatchReceivedFrame`).  All headers are
packed.  A major-1 peer gets V1 records, a {2,0} peer V2 records, every later one V3
records; the engine hands V1 and V2 batches on as V2 records.
-/

namespace FastFiles.Protocol

open Codec

/-! ## Frames -/

/-- A frame without its 8-byte header. -/
structure WireFrame where
  messageType : UInt16
  payload : List UInt8
deriving DecidableEq

def frameHeaderSize : Nat := 8

def maxFrameSize : Nat := 1024 * 1024

/-- Checked by the writer and by the reader. -/
def WireFrame.isLengthValid (frame : WireFrame) : Bool :=
  decide (frameHeaderSize + frame.payload.length ≤ maxFrameSize)

namespace MessageType

def journalRecordBatch : UInt16 := 17
def journalRecordBatchV2 : UInt16 := 19
def journalRecordBatchV3 : UInt16 := 21

end MessageType

/-! ## Headers -/

structure JournalRecordBatchHeader where
  volumeId : VolumeId
  recordCount : UInt32
  latestUsn : UInt64
deriving DecidableEq

/-- The V3 header has the same fields. -/
structure JournalRecordBatchV2Header where
  volumeId : VolumeId
  recordCount : UInt32
  latestUsn : UInt64
  recordFormatVersion : UInt16
deriving DecidableEq

def JournalRecordBatchHeader.codec : Codec JournalRecordBatchHeader :=
  (uint32.pair (uint32.pair uint64)).map
    { toFun := fun ⟨a, b, c⟩ => ⟨a, b, c⟩
      invFun := fun ⟨a, b, c⟩ => ⟨a, b, c⟩
      left_inv := fun _ => rfl
      right_inv := fun _ => rfl }

def JournalRecordBatchV2Header.codec : Codec JournalRecordBatchV2Header :=
  (uint32.pair (uint32.pair (uint64.pair uint16))).map
    { toFun := fun ⟨a, b, c, d⟩ => ⟨a, b, c, d⟩
      invFun := fun ⟨a, b, c, d⟩ => ⟨a, b, c, d⟩
      left_inv := fun _ => rfl
      right_inv := fun _ => rfl }

/-! ## The service writes -/

/-- A record flagged as a file delete. -/
def isFileDelete (record : UsnDeltaV3) : Bool :=
  record.fixed.reason &&& usnReasonFileDelete != 0

/-- A deletion needs only its parent and name in a V1 record. -/
def isRepresentableInLegacyV1 (record : UsnDeltaV3) : Bool :=
  let required :=
    if isFileDelete record then usnFieldParentId ||| usnFieldName else usnFieldMaskRequiredForV1
  isKnownMask record.fixed.fieldMask && record.fixed.fieldMask &&& required == required

/-- `SendJournalBatch`. -/
def journalBatchFrame (negotiated : ProtocolVersion) (volumeId : VolumeId)
    (records : List UsnDeltaV3) (latestUsn : UInt64) : WireFrame :=
  if negotiated.major = 1 then
    let legacyRecords := (records.filter isRepresentableInLegacyV1).map downgradeUsnDeltaV3ToV1
    { messageType := MessageType.journalRecordBatch
      payload := JournalRecordBatchHeader.codec.encode
          ⟨volumeId, UInt32.ofNat legacyRecords.length, latestUsn⟩ ++
        serializeUsnDeltaBatch legacyRecords }
  else if !negotiated.supportsAllocatedSize then
    let v2Records := (records.filter isRepresentableInUsnV2).map downgradeUsnDeltaV3
    { messageType := MessageType.journalRecordBatchV2
      payload := JournalRecordBatchV2Header.codec.encode
          ⟨volumeId, UInt32.ofNat v2Records.length, latestUsn, 2⟩ ++
        serializeUsnDeltaV2Batch v2Records }
  else
    { messageType := MessageType.journalRecordBatchV3
      payload := JournalRecordBatchV2Header.codec.encode
          ⟨volumeId, UInt32.ofNat records.length, latestUsn, 3⟩ ++
        serializeUsnDeltaV3Batch records }

/-! ## The engine reads -/

/-- What a journal batch frame hands to the session manager. -/
structure JournalBatch where
  volumeId : VolumeId
  latestUsn : UInt64
  records : List UsnDeltaV2 ⊕ List UsnDeltaV3
deriving DecidableEq

def receiveJournalRecordBatch (payload : List UInt8) : Option JournalBatch :=
  let size := JournalRecordBatchHeader.codec.width
  if payload.length < size then none
  else
    let header := JournalRecordBatchHeader.codec.decode (payload.take size)
    (parseUsnDeltaBatch (payload.drop size) header.recordCount.toNat).map fun records =>
      ⟨header.volumeId, header.latestUsn, .inl (records.map upgradeUsnDeltaV1)⟩

def receiveJournalRecordBatchV2 (payload : List UInt8) : Option JournalBatch :=
  let size := JournalRecordBatchV2Header.codec.width
  if payload.length < size then none
  else
    let header := JournalRecordBatchV2Header.codec.decode (payload.take size)
    if header.recordFormatVersion ≠ 2 then none
    else
      (parseUsnDeltaV2Batch (payload.drop size) header.recordCount.toNat).map fun records =>
        ⟨header.volumeId, header.latestUsn, .inl records⟩

def receiveJournalRecordBatchV3 (payload : List UInt8) : Option JournalBatch :=
  let size := JournalRecordBatchV2Header.codec.width
  if payload.length < size then none
  else
    let header := JournalRecordBatchV2Header.codec.decode (payload.take size)
    if header.recordFormatVersion ≠ 3 then none
    else
      (parseUsnDeltaV3Batch (payload.drop size) header.recordCount.toNat).map fun records =>
        ⟨header.volumeId, header.latestUsn, .inr records⟩

/-- The journal batch cases of `DispatchReceivedFrame`; `none` is a protocol violation, or a
frame the reader refuses for its length. -/
def receiveJournalBatch (frame : WireFrame) : Option JournalBatch :=
  if !frame.isLengthValid then none
  else if frame.messageType = MessageType.journalRecordBatch then
    receiveJournalRecordBatch frame.payload
  else if frame.messageType = MessageType.journalRecordBatchV2 then
    receiveJournalRecordBatchV2 frame.payload
  else if frame.messageType = MessageType.journalRecordBatchV3 then
    receiveJournalRecordBatchV3 frame.payload
  else none

/-! ## Reading what was written -/

section RoundTrip

variable {volumeId : VolumeId} {latestUsn : UInt64}

/-- A short list keeps its length in 32 bits. -/
theorem toNat_ofNat_length {α : Type} {records : List α}
    (few : records.length ≤ maxBatchRecordCount) :
    (UInt32.ofNat records.length).toNat = records.length := by
  apply UInt32.toNat_ofNat_of_lt'
  exact Nat.lt_of_le_of_lt few (by decide)

/-- A frame of a valid length is read by the case of its type. -/
theorem receiveJournalBatch_of_type {payload : List UInt8}
    (fits : frameHeaderSize + payload.length ≤ maxFrameSize) :
    receiveJournalBatch ⟨MessageType.journalRecordBatch, payload⟩ =
        receiveJournalRecordBatch payload ∧
      receiveJournalBatch ⟨MessageType.journalRecordBatchV2, payload⟩ =
        receiveJournalRecordBatchV2 payload ∧
      receiveJournalBatch ⟨MessageType.journalRecordBatchV3, payload⟩ =
        receiveJournalRecordBatchV3 payload := by
  have valid : ∀ type : UInt16, WireFrame.isLengthValid ⟨type, payload⟩ = true :=
    fun _ => decide_eq_true fits
  refine ⟨?_, ?_, ?_⟩ <;> rw [receiveJournalBatch, valid] <;> rfl

theorem receiveJournalRecordBatch_encode {records : List UsnDeltaV1}
    (fit : ∀ record ∈ records, record.isSerializable = true)
    (few : records.length ≤ maxBatchRecordCount) :
    receiveJournalRecordBatch
        (JournalRecordBatchHeader.codec.encode
          ⟨volumeId, UInt32.ofNat records.length, latestUsn⟩ ++ serializeUsnDeltaBatch records) =
      some ⟨volumeId, latestUsn, .inl (records.map upgradeUsnDeltaV1)⟩ := by
  have parsed : parseUsnDeltaBatch (serializeUsnDeltaBatch records) records.length = some records :=
    parseBatch_serializeBatch fit few
  rw [receiveJournalRecordBatch, if_neg (by simp), decode_take_append, drop_append]
  simp [toNat_ofNat_length few, parsed]

theorem receiveJournalRecordBatchV2_encode {records : List UsnDeltaV2}
    (fit : ∀ record ∈ records, record.isSerializable = true)
    (known : ∀ record ∈ records, isKnownMask record.fixed.fieldMask = true)
    (few : records.length ≤ maxBatchRecordCount) :
    receiveJournalRecordBatchV2
        (JournalRecordBatchV2Header.codec.encode
          ⟨volumeId, UInt32.ofNat records.length, latestUsn, 2⟩ ++
            serializeUsnDeltaV2Batch records) =
      some ⟨volumeId, latestUsn, .inl records⟩ := by
  have parsed : parseUsnDeltaV2Batch (serializeUsnDeltaV2Batch records) records.length =
      some records := by
    rw [parseUsnDeltaV2Batch, serializeUsnDeltaV2Batch, parseBatch_serializeBatch fit few]
    exact rejectUnknownMasks_iff.mpr ⟨rfl, known⟩
  rw [receiveJournalRecordBatchV2, if_neg (by simp), decode_take_append, drop_append]
  simp [toNat_ofNat_length few, parsed]

theorem receiveJournalRecordBatchV3_encode {records : List UsnDeltaV3}
    (fit : ∀ record ∈ records, record.isSerializable = true)
    (known : ∀ record ∈ records, isKnownMask record.fixed.fieldMask = true)
    (few : records.length ≤ maxBatchRecordCount) :
    receiveJournalRecordBatchV3
        (JournalRecordBatchV2Header.codec.encode
          ⟨volumeId, UInt32.ofNat records.length, latestUsn, 3⟩ ++
            serializeUsnDeltaV3Batch records) =
      some ⟨volumeId, latestUsn, .inr records⟩ := by
  have parsed : parseUsnDeltaV3Batch (serializeUsnDeltaV3Batch records) records.length =
      some records := by
    rw [parseUsnDeltaV3Batch, serializeUsnDeltaV3Batch, parseBatch_serializeBatch fit few]
    exact rejectUnknownMasks_iff.mpr ⟨rfl, known⟩
  rw [receiveJournalRecordBatchV3, if_neg (by simp), decode_take_append, drop_append]
  simp [toNat_ofNat_length few, parsed]

end RoundTrip

end FastFiles.Protocol
