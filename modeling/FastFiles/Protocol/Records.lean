import FastFiles.Foundations.Codec

/-!
# Wire records

The record formats of `Records.h`, their batch parser and serializer, the conversions
between versions (`Records.cpp`), and the version gates of `Version.h`.

A wire record is a packed fixed part followed by the file name it declares the length
of.  The five formats share one parser and one serializer, as in the source; what a
format contributes is its `FixedRecord` instance.
-/

namespace FastFiles.Protocol

/-! ## Negotiated versions -/

structure ProtocolVersion where
  major : Nat
  minor : Nat
deriving DecidableEq

namespace ProtocolVersion

/-- `v` is `{major, minor}` or later; the three gates of `Version.h` have this form. -/
def atLeast (major minor : Nat) (v : ProtocolVersion) : Bool :=
  decide (v.major > major) || (decide (v.major = major) && decide (v.minor ≥ minor))

def supportsAllocatedSize : ProtocolVersion → Bool := atLeast 2 1

def supportsScanFailure : ProtocolVersion → Bool := atLeast 2 2

def supportsScanAttemptStarted : ProtocolVersion → Bool := atLeast 2 3

end ProtocolVersion

/-! ## Formats -/

abbrev VolumeId := UInt32

def maxFileNameLengthChars : Nat := 255

def maxBatchRecordCount : Nat := 8192

def isFileNameLengthValid (lengthChars : UInt16) : Bool :=
  decide (1 ≤ lengthChars.toNat ∧ lengthChars.toNat ≤ maxFileNameLengthChars)

/-- A fixed part with its file name. -/
structure WireRecord (F : Type) where
  fixed : F
  fileName : List UInt16
deriving DecidableEq

/-- The packed fixed part of a format. -/
class FixedRecord (F : Type) where
  codec : Codec F
  fileNameLengthChars : F → UInt16

structure MftRecordFixedV1 where
  fileReferenceNumber : UInt64
  parentFileReferenceNumber : UInt64
  creationTime : UInt64
  lastModifiedTime : UInt64
  lastAccessTime : UInt64
  sizeBytes : UInt64
  fileAttributes : UInt32
  fileNameLengthChars : UInt16
deriving DecidableEq

structure MftRecordFixedV2 where
  fileReferenceNumber : UInt64
  parentFileReferenceNumber : UInt64
  creationTime : UInt64
  lastModifiedTime : UInt64
  lastAccessTime : UInt64
  sizeBytes : UInt64
  allocatedSizeBytes : UInt64
  fileAttributes : UInt32
  fileNameLengthChars : UInt16
deriving DecidableEq

structure UsnDeltaFixedV1 where
  usn : UInt64
  fileReferenceNumber : UInt64
  parentFileReferenceNumber : UInt64
  reason : UInt32
  timestamp : UInt64
  sizeBytes : UInt64
  fileAttributes : UInt32
  fileNameLengthChars : UInt16
deriving DecidableEq

structure UsnDeltaFixedV2 where
  usn : UInt64
  fileReferenceNumber : UInt64
  parentFileReferenceNumber : UInt64
  reason : UInt32
  timestamp : UInt64
  creationTime : UInt64
  lastModifiedTime : UInt64
  lastAccessTime : UInt64
  sizeBytes : UInt64
  fileAttributes : UInt32
  fieldMask : UInt32
  fileNameLengthChars : UInt16
deriving DecidableEq

structure UsnDeltaFixedV3 where
  usn : UInt64
  fileReferenceNumber : UInt64
  parentFileReferenceNumber : UInt64
  reason : UInt32
  timestamp : UInt64
  creationTime : UInt64
  lastModifiedTime : UInt64
  lastAccessTime : UInt64
  sizeBytes : UInt64
  allocatedSizeBytes : UInt64
  fileAttributes : UInt32
  fieldMask : UInt32
  fileNameLengthChars : UInt16
deriving DecidableEq

abbrev MftRecordV1 := WireRecord MftRecordFixedV1
abbrev MftRecordV2 := WireRecord MftRecordFixedV2
abbrev UsnDeltaV1 := WireRecord UsnDeltaFixedV1
abbrev UsnDeltaV2 := WireRecord UsnDeltaFixedV2
abbrev UsnDeltaV3 := WireRecord UsnDeltaFixedV3

/-! ### Layouts

`#pragma pack(push, 1)`: the fields in declaration order, without padding. -/

section Layouts

open Codec

instance : FixedRecord MftRecordFixedV1 where
  codec :=
    (uint64.pair (uint64.pair (uint64.pair (uint64.pair (uint64.pair (uint64.pair
      (uint32.pair uint16))))))).map
      { toFun := fun ⟨a, b, c, d, e, f, g, h⟩ => ⟨a, b, c, d, e, f, g, h⟩
        invFun := fun ⟨a, b, c, d, e, f, g, h⟩ => ⟨a, b, c, d, e, f, g, h⟩
        left_inv := fun _ => rfl
        right_inv := fun _ => rfl }
  fileNameLengthChars := MftRecordFixedV1.fileNameLengthChars

instance : FixedRecord MftRecordFixedV2 where
  codec :=
    (uint64.pair (uint64.pair (uint64.pair (uint64.pair (uint64.pair (uint64.pair
      (uint64.pair (uint32.pair uint16)))))))).map
      { toFun := fun ⟨a, b, c, d, e, f, g, h, i⟩ => ⟨a, b, c, d, e, f, g, h, i⟩
        invFun := fun ⟨a, b, c, d, e, f, g, h, i⟩ => ⟨a, b, c, d, e, f, g, h, i⟩
        left_inv := fun _ => rfl
        right_inv := fun _ => rfl }
  fileNameLengthChars := MftRecordFixedV2.fileNameLengthChars

instance : FixedRecord UsnDeltaFixedV1 where
  codec :=
    (uint64.pair (uint64.pair (uint64.pair (uint32.pair (uint64.pair (uint64.pair
      (uint32.pair uint16))))))).map
      { toFun := fun ⟨a, b, c, d, e, f, g, h⟩ => ⟨a, b, c, d, e, f, g, h⟩
        invFun := fun ⟨a, b, c, d, e, f, g, h⟩ => ⟨a, b, c, d, e, f, g, h⟩
        left_inv := fun _ => rfl
        right_inv := fun _ => rfl }
  fileNameLengthChars := UsnDeltaFixedV1.fileNameLengthChars

instance : FixedRecord UsnDeltaFixedV2 where
  codec :=
    (uint64.pair (uint64.pair (uint64.pair (uint32.pair (uint64.pair (uint64.pair
      (uint64.pair (uint64.pair (uint64.pair (uint32.pair (uint32.pair uint16))))))))))).map
      { toFun := fun ⟨a, b, c, d, e, f, g, h, i, j, k, l⟩ => ⟨a, b, c, d, e, f, g, h, i, j, k, l⟩
        invFun := fun ⟨a, b, c, d, e, f, g, h, i, j, k, l⟩ => ⟨a, b, c, d, e, f, g, h, i, j, k, l⟩
        left_inv := fun _ => rfl
        right_inv := fun _ => rfl }
  fileNameLengthChars := UsnDeltaFixedV2.fileNameLengthChars

instance : FixedRecord UsnDeltaFixedV3 where
  codec :=
    (uint64.pair (uint64.pair (uint64.pair (uint32.pair (uint64.pair (uint64.pair
      (uint64.pair (uint64.pair (uint64.pair (uint64.pair
        (uint32.pair (uint32.pair uint16)))))))))))).map
      { toFun := fun ⟨a, b, c, d, e, f, g, h, i, j, k, l, m⟩ =>
          ⟨a, b, c, d, e, f, g, h, i, j, k, l, m⟩
        invFun := fun ⟨a, b, c, d, e, f, g, h, i, j, k, l, m⟩ =>
          ⟨a, b, c, d, e, f, g, h, i, j, k, l, m⟩
        left_inv := fun _ => rfl
        right_inv := fun _ => rfl }
  fileNameLengthChars := UsnDeltaFixedV3.fileNameLengthChars

end Layouts

/-! ## Batches -/

/-- `sizeof` of a fixed part. -/
def fixedSize (F : Type) [FixedRecord F] : Nat := (FixedRecord.codec : Codec F).width

section Batches

variable {F : Type} [FixedRecord F]

/-- The name length a record declares. -/
def WireRecord.fileNameLengthChars (record : WireRecord F) : UInt16 :=
  FixedRecord.fileNameLengthChars record.fixed

/-- Every record takes its fixed part and at least one code unit. -/
def isBatchCountPlausible (declaredCount payloadSize fixedRecordSize : Nat) : Bool :=
  if declaredCount > maxBatchRecordCount then false
  else decide (declaredCount * (fixedRecordSize + 2) ≤ payloadSize)

/-- The record loop of `ParseBatch`: the records read and the bytes left over. -/
def parseRecords : Nat → List UInt8 → Option (List (WireRecord F) × List UInt8)
  | 0, payload => some ([], payload)
  | count + 1, payload =>
    if payload.length < fixedSize F then none
    else
      let fixed : F := FixedRecord.codec.decode (payload.take (fixedSize F))
      let rest := payload.drop (fixedSize F)
      let chars := FixedRecord.fileNameLengthChars fixed
      if !isFileNameLengthValid chars then none
      else if rest.length < chars.toNat * 2 then none
      else
        let fileName := Codec.uint16.decodeMany chars.toNat rest
        (parseRecords count (rest.drop (chars.toNat * 2))).map fun (records, left) =>
          (⟨fixed, fileName⟩ :: records, left)

/-- The declared records must consume the payload exactly. -/
def parseBatch (payload : List UInt8) (declaredCount : Nat) : Option (List (WireRecord F)) :=
  if !isBatchCountPlausible declaredCount payload.length (fixedSize F) then none
  else
    match parseRecords declaredCount payload with
    | some (records, []) => some records
    | _ => none

/-- `SerializeBatch` skips a record whose declared name length is out of range or not the
length of its name. -/
def WireRecord.isSerializable (record : WireRecord F) : Bool :=
  isFileNameLengthValid record.fileNameLengthChars &&
    decide (record.fileNameLengthChars.toNat = record.fileName.length)

def WireRecord.bytes (record : WireRecord F) : List UInt8 :=
  FixedRecord.codec.encode record.fixed ++ Codec.uint16.encodeAll record.fileName

def serializeBatch (records : List (WireRecord F)) : List UInt8 :=
  (records.filter WireRecord.isSerializable).flatMap WireRecord.bytes

/-! ### Parsing what was serialized -/

theorem WireRecord.length_bytes (record : WireRecord F) :
    record.bytes.length = fixedSize F + record.fileName.length * 2 := by
  rw [WireRecord.bytes, List.length_append, Codec.length_encode, Codec.length_encodeAll]
  rfl

variable {record : WireRecord F}

theorem WireRecord.isSerializable_iff :
    record.isSerializable = true ↔
      isFileNameLengthValid record.fileNameLengthChars = true ∧
        record.fileNameLengthChars.toNat = record.fileName.length := by
  simp [WireRecord.isSerializable]

theorem WireRecord.one_le_length_fileName
    (fits : record.isSerializable = true) : 1 ≤ record.fileName.length := by
  obtain ⟨valid, length⟩ := isSerializable_iff.mp fits
  rw [isFileNameLengthValid, decide_eq_true_eq] at valid
  omega

/-- One step of the record loop reads back one serialized record. -/
theorem parseRecords_bytes (fits : record.isSerializable = true) (count : Nat) (rest : List UInt8) :
    parseRecords (count + 1) (record.bytes ++ rest) =
      (parseRecords count rest).map fun (records, left) => (record :: records, left) := by
  obtain ⟨valid, length⟩ := WireRecord.isSerializable_iff.mp fits
  have units : (Codec.uint16.encodeAll record.fileName).length = record.fileName.length * 2 :=
    Codec.length_encodeAll _ _
  have chars : FixedRecord.fileNameLengthChars record.fixed = record.fileNameLengthChars := rfl
  have enough : ¬ (record.bytes ++ rest).length < fixedSize F := by
    rw [List.length_append, WireRecord.length_bytes]
    omega
  rw [parseRecords, if_neg enough, WireRecord.bytes, List.append_assoc, fixedSize,
    Codec.decode_take_append, Codec.drop_append]
  have named : ¬ (Codec.uint16.encodeAll record.fileName ++ rest).length <
      record.fileNameLengthChars.toNat * 2 := by
    rw [List.length_append, units, length]
    omega
  simp only [chars, valid, Bool.not_true, Bool.false_eq_true, if_false, named]
  rw [length, Codec.decodeMany_encodeAll, List.drop_left' units]

variable {records : List (WireRecord F)}

section

variable (fit : ∀ record ∈ records, record.isSerializable = true)

include fit

/-- The record loop reads back a serialized batch and stops where it ends. -/
theorem parseRecords_flatMap (rest : List UInt8) :
    parseRecords records.length (records.flatMap WireRecord.bytes ++ rest) =
      some (records, rest) := by
  induction records with
  | nil => rfl
  | cons record records ih =>
    have fits := fit record (.head _)
    have others := ih fun other mem => fit other (.tail _ mem)
    rw [List.length_cons, List.flatMap_cons, List.append_assoc, parseRecords_bytes fits, others]
    rfl

theorem le_length_flatMap_bytes :
    records.length * (fixedSize F + 2) ≤ (records.flatMap WireRecord.bytes).length := by
  induction records with
  | nil => simp
  | cons record records ih =>
    have others := ih fun other mem => fit other (.tail _ mem)
    have named := WireRecord.one_le_length_fileName (fit record (.head _))
    rw [List.length_cons, List.flatMap_cons, List.length_append, WireRecord.length_bytes,
      Nat.succ_mul]
    omega

/-- **Round trip.**  A batch of serializable records that is not too long is parsed back. -/
theorem parseBatch_serializeBatch (few : records.length ≤ maxBatchRecordCount) :
    parseBatch (serializeBatch records) records.length = some records := by
  have all : records.filter WireRecord.isSerializable = records := List.filter_eq_self.mpr fit
  have counted : isBatchCountPlausible records.length
      (records.flatMap WireRecord.bytes).length (fixedSize F) = true := by
    rw [isBatchCountPlausible, if_neg (Nat.not_lt.mpr few), decide_eq_true_eq]
    exact le_length_flatMap_bytes fit
  have parsed := parseRecords_flatMap fit []
  rw [List.append_nil] at parsed
  rw [parseBatch, serializeBatch, all, counted, parsed]
  rfl

end

variable {count : Nat}

/-- What the record loop reads is what the serializer writes. -/
theorem of_parseRecords {payload left : List UInt8}
    (parsed : parseRecords count payload = some (records, left)) :
    payload = records.flatMap WireRecord.bytes ++ left ∧ records.length = count ∧
      ∀ record ∈ records, record.isSerializable = true := by
  induction count generalizing payload records with
  | zero =>
    cases parsed
    exact ⟨rfl, rfl, by simp⟩
  | succ count ih =>
    rw [parseRecords] at parsed
    dsimp only at parsed
    split_ifs at parsed with short invalid cut
    obtain ⟨⟨later, rest⟩, loop, same⟩ := Option.map_eq_some_iff.mp parsed
    cases same
    obtain ⟨read, counted, fit⟩ := ih loop
    have fixed := (FixedRecord.codec : Codec F).encode_decode (payload.take (fixedSize F))
      (List.length_take_of_le (Nat.le_of_not_lt short))
    have named := Codec.uint16.encodeAll_decodeMany _ (Nat.le_of_not_lt cut)
    rw [show Codec.uint16.width = 2 from rfl] at named
    refine ⟨?_, congrArg (· + 1) counted, List.forall_mem_cons.mpr ⟨?_, fit⟩⟩
    · rw [List.flatMap_cons, List.append_assoc, ← read, WireRecord.bytes]
      dsimp only
      rw [fixed, named, List.append_assoc, List.take_append_drop, List.take_append_drop]
    · rw [WireRecord.isSerializable_iff]
      rw [Bool.not_eq_true', Bool.not_eq_false] at invalid
      exact ⟨invalid, (Codec.length_decodeMany ..).symm⟩

/-- **Nothing but a serialized batch is parsed.** -/
theorem serializeBatch_of_parseBatch {payload : List UInt8}
    (parsed : parseBatch payload count = some records) :
    serializeBatch records = payload ∧ records.length = count ∧ count ≤ maxBatchRecordCount ∧
      ∀ record ∈ records, record.isSerializable = true := by
  unfold parseBatch at parsed
  split_ifs at parsed with implausible
  split at parsed
  · rename_i whole
    cases parsed
    obtain ⟨read, counted, fit⟩ := of_parseRecords whole
    have few : count ≤ maxBatchRecordCount := by
      by_contra many
      simp [isBatchCountPlausible, Nat.lt_of_not_le many] at implausible
    rw [List.append_nil] at read
    exact ⟨by rw [serializeBatch, List.filter_eq_self.mpr fit, ← read], counted, few, fit⟩
  · cases parsed

/-- A parser and a serializer that are inverse on the valid records of a format. -/
def BatchInverse (valid : WireRecord F → Bool)
    (parse : List UInt8 → Nat → Option (List (WireRecord F)))
    (serialize : List (WireRecord F) → List UInt8) : Prop :=
  (∀ records, records.length ≤ maxBatchRecordCount → (∀ record ∈ records, valid record = true) →
    parse (serialize records) records.length = some records) ∧
  ∀ payload count records, parse payload count = some records →
    serialize records = payload ∧ records.length = count ∧ count ≤ maxBatchRecordCount ∧
      ∀ record ∈ records, valid record = true

theorem batchInverse_parseBatch :
    BatchInverse (F := F) WireRecord.isSerializable parseBatch serializeBatch :=
  ⟨fun _ few fit => parseBatch_serializeBatch fit few, fun _ _ _ => serializeBatch_of_parseBatch⟩

end Batches

def parseMftBatch : List UInt8 → Nat → Option (List MftRecordV1) := parseBatch

def parseMftBatchV2 : List UInt8 → Nat → Option (List MftRecordV2) := parseBatch

def parseUsnDeltaBatch : List UInt8 → Nat → Option (List UsnDeltaV1) := parseBatch

/-! ## Presence masks -/

/-- `USN_REASON_FILE_DELETE`. -/
def usnReasonFileDelete : UInt32 := 0x200

/-- The bits of a field mask. -/
def usnFieldParentId : UInt32 := 0x01
def usnFieldName : UInt32 := 0x02
def usnFieldSizeBytes : UInt32 := 0x04
def usnFieldCreationTime : UInt32 := 0x08
def usnFieldLastModifiedTime : UInt32 := 0x10
def usnFieldLastAccessTime : UInt32 := 0x20
def usnFieldAttributes : UInt32 := 0x40
def usnFieldAllocatedSizeBytes : UInt32 := 0x80

def usnFieldMaskAll : UInt32 :=
  usnFieldParentId ||| usnFieldName ||| usnFieldSizeBytes ||| usnFieldCreationTime |||
    usnFieldLastModifiedTime ||| usnFieldLastAccessTime ||| usnFieldAttributes |||
    usnFieldAllocatedSizeBytes

/-- The fields a V1 record carries. -/
def usnFieldMaskRequiredForV1 : UInt32 :=
  usnFieldParentId ||| usnFieldName ||| usnFieldSizeBytes ||| usnFieldLastModifiedTime |||
    usnFieldAttributes

/-- A mask without unknown bits. -/
def isKnownMask (mask : UInt32) : Bool := mask &&& ~~~usnFieldMaskAll == 0

/-- One unknown mask bit rejects the whole batch. -/
def rejectUnknownMasks {F : Type} (mask : F → UInt32) (records : List (WireRecord F)) :
    Option (List (WireRecord F)) :=
  if records.all fun record => isKnownMask (mask record.fixed) then some records else none

def parseUsnDeltaV2Batch (payload : List UInt8) (declaredCount : Nat) : Option (List UsnDeltaV2) :=
  (parseBatch payload declaredCount).bind (rejectUnknownMasks UsnDeltaFixedV2.fieldMask)

def parseUsnDeltaV3Batch (payload : List UInt8) (declaredCount : Nat) : Option (List UsnDeltaV3) :=
  (parseBatch payload declaredCount).bind (rejectUnknownMasks UsnDeltaFixedV3.fieldMask)

theorem rejectUnknownMasks_iff {F : Type} {mask : F → UInt32}
    {records accepted : List (WireRecord F)} :
    rejectUnknownMasks mask records = some accepted ↔
      records = accepted ∧ ∀ record ∈ accepted, isKnownMask (mask record.fixed) = true := by
  unfold rejectUnknownMasks
  split_ifs with known
  · rw [List.all_eq_true] at known
    constructor
    · intro same
      cases same
      exact ⟨rfl, known⟩
    · intro same
      rw [same.1]
  · refine iff_of_false (by simp) fun same => known ?_
    rw [same.1]
    exact List.all_eq_true.mpr same.2

/-- The formats with a mask. -/
theorem batchInverse_masked {F : Type} [FixedRecord F] (mask : F → UInt32) :
    BatchInverse (fun record => record.isSerializable && isKnownMask (mask record.fixed))
      (fun payload count => (parseBatch payload count).bind (rejectUnknownMasks mask))
      serializeBatch := by
  refine ⟨fun records few fit => ?_, fun payload count records parsed => ?_⟩
  · have parsed := parseBatch_serializeBatch
      (fun record mem => ((Bool.and_eq_true _ _).mp (fit record mem)).1) few
    refine Option.bind_eq_some_iff.mpr ⟨records, parsed, rejectUnknownMasks_iff.mpr ⟨rfl, ?_⟩⟩
    exact fun record mem => ((Bool.and_eq_true _ _).mp (fit record mem)).2
  · obtain ⟨all, whole, masked⟩ := Option.bind_eq_some_iff.mp parsed
    obtain ⟨rfl, known⟩ := rejectUnknownMasks_iff.mp masked
    obtain ⟨read, counted, few, fit⟩ := serializeBatch_of_parseBatch whole
    exact ⟨read, counted, few, fun record mem =>
      (Bool.and_eq_true _ _).mpr ⟨fit record mem, known record mem⟩⟩

def serializeMftBatch : List MftRecordV1 → List UInt8 := serializeBatch

def serializeMftBatchV2 : List MftRecordV2 → List UInt8 := serializeBatch

def serializeUsnDeltaBatch : List UsnDeltaV1 → List UInt8 := serializeBatch

def serializeUsnDeltaV2Batch : List UsnDeltaV2 → List UInt8 := serializeBatch

def serializeUsnDeltaV3Batch : List UsnDeltaV3 → List UInt8 := serializeBatch

/-- **The five batch codecs are exact inverses.** -/
theorem batch_codecs_inverse :
    BatchInverse WireRecord.isSerializable parseMftBatch serializeMftBatch ∧
    BatchInverse WireRecord.isSerializable parseMftBatchV2 serializeMftBatchV2 ∧
    BatchInverse WireRecord.isSerializable parseUsnDeltaBatch serializeUsnDeltaBatch ∧
    BatchInverse (fun record => record.isSerializable && isKnownMask record.fixed.fieldMask)
      parseUsnDeltaV2Batch serializeUsnDeltaV2Batch ∧
    BatchInverse (fun record => record.isSerializable && isKnownMask record.fixed.fieldMask)
      parseUsnDeltaV3Batch serializeUsnDeltaV3Batch :=
  ⟨batchInverse_parseBatch, batchInverse_parseBatch, batchInverse_parseBatch,
    batchInverse_masked UsnDeltaFixedV2.fieldMask, batchInverse_masked UsnDeltaFixedV3.fieldMask⟩

/-! ## Conversions -/

/-- A V1 record has no presence mask: the fields it carries are marked present. -/
def upgradeUsnDeltaV1 (record : UsnDeltaV1) : UsnDeltaV2 where
  fixed :=
    { usn := record.fixed.usn
      fileReferenceNumber := record.fixed.fileReferenceNumber
      parentFileReferenceNumber := record.fixed.parentFileReferenceNumber
      reason := record.fixed.reason
      timestamp := record.fixed.timestamp
      creationTime := 0
      lastModifiedTime := record.fixed.timestamp
      lastAccessTime := 0
      sizeBytes := record.fixed.sizeBytes
      fileAttributes := record.fixed.fileAttributes
      fieldMask := usnFieldParentId ||| usnFieldName ||| usnFieldSizeBytes |||
        usnFieldLastModifiedTime ||| usnFieldAttributes
      fileNameLengthChars := record.fixed.fileNameLengthChars }
  fileName := record.fileName

/-- A mask that V2 knows, without the allocated size. -/
def isRepresentableInUsnV2 (record : UsnDeltaV3) : Bool :=
  isKnownMask record.fixed.fieldMask &&
    record.fixed.fieldMask &&& usnFieldAllocatedSizeBytes == 0

def downgradeUsnDeltaV3 (record : UsnDeltaV3) : UsnDeltaV2 where
  fixed :=
    { usn := record.fixed.usn
      fileReferenceNumber := record.fixed.fileReferenceNumber
      parentFileReferenceNumber := record.fixed.parentFileReferenceNumber
      reason := record.fixed.reason
      timestamp := record.fixed.timestamp
      creationTime := record.fixed.creationTime
      lastModifiedTime := record.fixed.lastModifiedTime
      lastAccessTime := record.fixed.lastAccessTime
      sizeBytes := record.fixed.sizeBytes
      fileAttributes := record.fixed.fileAttributes
      fieldMask := record.fixed.fieldMask
      fileNameLengthChars := record.fixed.fileNameLengthChars }
  fileName := record.fileName

def downgradeUsnDeltaV3ToV1 (record : UsnDeltaV3) : UsnDeltaV1 where
  fixed :=
    { usn := record.fixed.usn
      fileReferenceNumber := record.fixed.fileReferenceNumber
      parentFileReferenceNumber := record.fixed.parentFileReferenceNumber
      reason := record.fixed.reason
      timestamp := record.fixed.timestamp
      sizeBytes := record.fixed.sizeBytes
      fileAttributes := record.fixed.fileAttributes
      fileNameLengthChars := record.fixed.fileNameLengthChars }
  fileName := record.fileName

end FastFiles.Protocol
