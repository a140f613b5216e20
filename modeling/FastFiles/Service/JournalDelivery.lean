import FastFiles.Service.JournalReader

/-!
# Downgrading journal batches

One read of the journal becomes one frame in the format the peer negotiated, and the
engine decodes it.  The decoded records are, in order, a sublist of the records read;
`DeletionsDelivered` asks in addition that no deletion is missing.  That is so for V1
and V3 peers.  A {2,0} peer does not get a record with an authoritative allocated size,
and a deletion whose file record could still be read has one.
-/

namespace FastFiles.Service

open Protocol

/-! ## What the reader produces -/

/-- A record the reader puts into a batch. -/
structure FromJournal (record : UsnDeltaV3) : Prop where
  serializable : record.isSerializable = true
  mask : record.fixed.fieldMask = usnFieldMaskAll ∨
    record.fixed.fieldMask = usnFieldParentId ||| usnFieldName ||| usnFieldLastModifiedTime |||
      usnFieldAttributes

namespace FromJournal

variable {record : UsnDeltaV3}

variable (made : FromJournal record)

include made

theorem known : isKnownMask record.fixed.fieldMask = true := by
  rcases made.mask with mask | mask <;> rw [mask] <;> decide

/-- Both masks have the fields a deletion needs. -/
theorem isRepresentableInLegacyV1 (deletes : isFileDelete record = true) :
    isRepresentableInLegacyV1 record = true := by
  rw [Protocol.isRepresentableInLegacyV1, deletes]
  rcases made.mask with mask | mask <;> rw [mask] <;> decide

theorem isRepresentableInUsnV2 :
    isRepresentableInUsnV2 record =
      (record.fixed.fieldMask &&& usnFieldAllocatedSizeBytes == 0) := by
  rw [Protocol.isRepresentableInUsnV2, made.known, Bool.true_and]

end FromJournal

variable {record : UsnDeltaV3} {volume : Volume} {raw : List UInt8}

/-- A declared length below 2^16 is the length of the name. -/
theorem isSerializable_of_valid
    (declared : record.fixed.fileNameLengthChars = UInt16.ofNat record.fileName.length)
    (short : record.fileName.length < 2 ^ 16)
    (valid : isFileNameLengthValid record.fixed.fileNameLengthChars = true) :
    record.isSerializable = true := by
  rw [WireRecord.isSerializable_iff]
  have length : record.fixed.fileNameLengthChars.toNat = record.fileName.length := by
    rw [declared, UInt16.toNat_ofNat_of_lt' short]
  exact ⟨valid, length⟩

theorem fromJournal_of_journalRecord (made : journalRecord volume raw = some record) :
    FromJournal record := by
  unfold journalRecord at made
  cases decoding : decodeUsnRecord raw with
  | none => rw [decoding] at made; cases made
  | some decoded =>
    rw [decoding] at made
    simp only [Option.ite_none_right_eq_some] at made
    obtain ⟨valid, same⟩ := made
    rw [← Option.some.inj same]
    unfold journalDelta at valid ⊢
    cases reading : volume.read decoded.fileReferenceNumber with
    | some enriched =>
      rw [reading] at valid
      refine ⟨isSerializable_of_valid rfl ?_ valid, .inl rfl⟩
      exact Nat.lt_of_le_of_lt enriched.length_le (by decide)
    | none =>
      rw [reading] at valid
      refine ⟨isSerializable_of_valid rfl ?_ valid, .inr rfl⟩
      have bound : decoded.fileNameLength.toNat < 2 ^ 16 := decoded.fileNameLength.toNat_lt
      simp only [fallbackDelta, Codec.length_decodeMany]
      omega

/-- A raw record that decodes has at least the fixed part of a V2 record. -/
theorem length_of_decodeUsnRecord {decoded : DecodedUsnRecord}
    (decoding : decodeUsnRecord raw = some decoded) : usnRecordV2NameOffset ≤ raw.length := by
  unfold decodeUsnRecord at decoding
  split_ifs at decoding with tooShort
  simp only at decoding
  split_ifs at decoding with outside
  rw [not_or, Nat.not_lt, Nat.not_lt] at outside
  refine Nat.le_trans ?_ outside.2
  unfold decodeUsnFields at decoding
  simp only at decoding
  split_ifs at decoding with two small three small'
  · exact Nat.not_lt.mp small
  · exact Nat.le_trans (by decide) (Nat.not_lt.mp small')

theorem fromJournal_of_mem {rest : List UInt8} (mem : record ∈ journalRecords volume rest) :
    FromJournal record := by
  fun_induction journalRecords volume rest with
  | case1 => cases mem
  | case2 => cases mem
  | case3 rest _ recordLength _ ih =>
    rcases List.mem_append.mp mem with first | later
    · exact fromJournal_of_journalRecord (Option.mem_toList.mp first)
    · exact ih later

theorem length_journalRecord (volume : Volume) (raw : List UInt8) :
    (journalRecord volume raw).toList.length * usnRecordV2NameOffset ≤ raw.length := by
  unfold journalRecord
  cases decoding : decodeUsnRecord raw with
  | none => exact Nat.zero_le _
  | some decoded =>
    have room := length_of_decodeUsnRecord decoding
    simp only
    split_ifs
    · simpa using room
    · exact Nat.zero_le _

/-- Every record read takes 60 bytes of the buffer. -/
theorem length_journalRecords (volume : Volume) (rest : List UInt8) :
    (journalRecords volume rest).length * usnRecordV2NameOffset ≤ rest.length := by
  fun_induction journalRecords volume rest with
  | case1 => exact Nat.zero_le _
  | case2 => exact Nat.zero_le _
  | case3 rest _ recordLength fits ih =>
    have first := length_journalRecord volume (rest.take recordLength)
    rw [List.length_take] at first
    rw [List.length_drop] at ih
    rw [List.length_append, Nat.add_mul]
    omega

/-! ## Sizes -/

variable {F : Type} {records : List UsnDeltaV3}

/-- A record is at most its fixed part and 255 code units. -/
theorem length_bytes_le [FixedRecord F] {record : WireRecord F}
    (fits : record.isSerializable = true) : record.bytes.length ≤ fixedSize F + 510 := by
  obtain ⟨valid, length⟩ := WireRecord.isSerializable_iff.mp fits
  rw [isFileNameLengthValid, decide_eq_true_eq, maxFileNameLengthChars] at valid
  rw [WireRecord.length_bytes]
  omega

theorem length_serializeBatch_le [FixedRecord F] (records : List (WireRecord F)) :
    (serializeBatch records).length ≤ records.length * (fixedSize F + 510) := by
  induction records with
  | nil => simp [serializeBatch]
  | cons record records ih =>
    rw [serializeBatch] at ih ⊢
    rw [List.filter_cons, List.length_cons, Nat.succ_mul]
    split_ifs with fits
    · rw [List.flatMap_cons, List.length_append, Nat.add_comm]
      exact Nat.add_le_add ih (length_bytes_le fits)
    · exact Nat.le_trans ih (Nat.le_add_right _ _)

/-- A read fills at most 1092 records, which fit one frame in every format. -/
theorem frame_length_le [FixedRecord F] (records : List (WireRecord F))
    (few : records.length ≤ 1092) (small : fixedSize F ≤ 86) (header : List UInt8)
    (short : header.length ≤ 18) :
    frameHeaderSize + (header ++ serializeBatch records).length ≤ maxFrameSize := by
  have size := length_serializeBatch_le records
  have total : records.length * (fixedSize F + 510) ≤ 1092 * 596 :=
    Nat.mul_le_mul few (by omega)
  simp only [List.length_append, frameHeaderSize, maxFrameSize]
  omega

/-! ## Delivery -/

/-- What both formats the engine is handed carry. -/
structure RecordView where
  usn : UInt64
  reason : UInt32
  fileReferenceNumber : UInt64
  parentFileReferenceNumber : UInt64
  fileName : List UInt16
  sizeBytes : UInt64
  fileAttributes : UInt32
deriving DecidableEq

def viewV2 (record : UsnDeltaV2) : RecordView where
  usn := record.fixed.usn
  reason := record.fixed.reason
  fileReferenceNumber := record.fixed.fileReferenceNumber
  parentFileReferenceNumber := record.fixed.parentFileReferenceNumber
  fileName := record.fileName
  sizeBytes := record.fixed.sizeBytes
  fileAttributes := record.fixed.fileAttributes

def viewV3 (record : UsnDeltaV3) : RecordView where
  usn := record.fixed.usn
  reason := record.fixed.reason
  fileReferenceNumber := record.fixed.fileReferenceNumber
  parentFileReferenceNumber := record.fixed.parentFileReferenceNumber
  fileName := record.fileName
  sizeBytes := record.fixed.sizeBytes
  fileAttributes := record.fixed.fileAttributes

def JournalBatch.views (batch : JournalBatch) : List RecordView :=
  match batch.records with
  | .inl records => records.map viewV2
  | .inr records => records.map viewV3

variable (negotiated : ProtocolVersion) (volumeId : VolumeId)

/-- The engine decodes the frame to a sublist of the records, in order and with their
identity, place, name, size and attributes, that has all deletions. -/
def DeletionsDelivered (records : List UsnDeltaV3) (latestUsn : UInt64) : Prop :=
  ∃ (batch : JournalBatch) (kept : List UsnDeltaV3),
    receiveJournalBatch (journalBatchFrame negotiated volumeId records latestUsn) = some batch ∧
      kept.Sublist records ∧ kept.filter isFileDelete = records.filter isFileDelete ∧
      JournalBatch.views batch = kept.map viewV3

/-- The records that pass the filter of the negotiated format. -/
def keptRecords (records : List UsnDeltaV3) : List UsnDeltaV3 :=
  if negotiated.major = 1 then records.filter isRepresentableInLegacyV1
  else if !negotiated.supportsAllocatedSize then records.filter isRepresentableInUsnV2
  else records

theorem keptRecords_sublist (records : List UsnDeltaV3) :
    (keptRecords negotiated records).Sublist records := by
  unfold keptRecords
  split_ifs
  · exact List.filter_sublist
  · exact List.filter_sublist
  · exact .refl _

/-- The engine decodes exactly the records that pass the filter. -/
theorem receive_journalBatchFrame (latestUsn : UInt64)
    (made : ∀ record ∈ records, FromJournal record) (few : records.length ≤ 1092) :
    ∃ batch : JournalBatch,
      receiveJournalBatch (journalBatchFrame negotiated volumeId records latestUsn) = some batch ∧
        JournalBatch.views batch = (keptRecords negotiated records).map viewV3 := by
  have limit : 1092 ≤ maxBatchRecordCount := by decide
  unfold journalBatchFrame keptRecords
  split_ifs with legacy
  · have short : ((records.filter isRepresentableInLegacyV1).map
        downgradeUsnDeltaV3ToV1).length ≤ 1092 := by
      rw [List.length_map]
      exact Nat.le_trans (List.length_filter_le _ _) few
    have fit : ∀ record ∈ (records.filter isRepresentableInLegacyV1).map downgradeUsnDeltaV3ToV1,
        record.isSerializable = true := by
      intro record mem
      obtain ⟨original, passed, rfl⟩ := List.mem_map.mp mem
      exact (made original (List.mem_of_mem_filter passed)).serializable
    refine ⟨_, (receiveJournalBatch_of_type
      (frame_length_le _ short (by decide) _ (by simp; decide))).1.trans
        (receiveJournalRecordBatch_encode fit (Nat.le_trans short limit)), ?_⟩
    simp only [JournalBatch.views, List.map_map]
    rfl
  · have short : ((records.filter isRepresentableInUsnV2).map
        downgradeUsnDeltaV3).length ≤ 1092 := by
      rw [List.length_map]
      exact Nat.le_trans (List.length_filter_le _ _) few
    have fit : ∀ record ∈ (records.filter isRepresentableInUsnV2).map downgradeUsnDeltaV3,
        record.isSerializable = true ∧ isKnownMask record.fixed.fieldMask = true := by
      intro record mem
      obtain ⟨original, passed, rfl⟩ := List.mem_map.mp mem
      have kept := made original (List.mem_of_mem_filter passed)
      exact ⟨kept.serializable, kept.known⟩
    refine ⟨_, (receiveJournalBatch_of_type
      (frame_length_le _ short (by decide) _ (by simp; decide))).2.1.trans
        (receiveJournalRecordBatchV2_encode (fun record mem => (fit record mem).1)
          (fun record mem => (fit record mem).2) (Nat.le_trans short limit)), ?_⟩
    simp only [JournalBatch.views, List.map_map]
    rfl
  · refine ⟨_, (receiveJournalBatch_of_type
      (frame_length_le _ few (by decide) _ (by simp; decide))).2.2.trans
        (receiveJournalRecordBatchV3_encode (fun record mem => (made record mem).serializable)
          (fun record mem => (made record mem).known) (Nat.le_trans few limit)), ?_⟩
    rfl

/-- Whether a record is a deletion can be seen in what is delivered. -/
def RecordView.isFileDelete (view : RecordView) : Bool := view.reason &&& usnReasonFileDelete != 0

theorem filter_map_viewV3 (records : List UsnDeltaV3) :
    (records.map viewV3).filter RecordView.isFileDelete =
      (records.filter isFileDelete).map viewV3 := by
  rw [List.filter_map]
  rfl

/-- Delivery of all deletions is a matter of the filter alone. -/
theorem deletionsDelivered_iff_filter (latestUsn : UInt64)
    (made : ∀ record ∈ records, FromJournal record) (few : records.length ≤ 1092) :
    DeletionsDelivered negotiated volumeId records latestUsn ↔
      (keptRecords negotiated records).filter isFileDelete = records.filter isFileDelete := by
  obtain ⟨batch, received, views⟩ :=
    receive_journalBatchFrame negotiated volumeId latestUsn made few
  have sublist := keptRecords_sublist negotiated records
  constructor
  · rintro ⟨other, kept, received', -, deletions, views'⟩
    rw [received] at received'
    obtain rfl := Option.some.inj received'
    -- the deletions delivered are as many as those that passed the filter
    have same := congrArg (List.filter RecordView.isFileDelete) (views.symm.trans views')
    rw [filter_map_viewV3, filter_map_viewV3, deletions] at same
    refine (sublist.filter isFileDelete).eq_of_length ?_
    simpa using congrArg List.length same
  · intro deletions
    exact ⟨batch, _, received, sublist, deletions, views⟩

/-- A filter keeps all deletions if every deletion passes it. -/
theorem filter_keeps_deletions_iff (keep : UsnDeltaV3 → Bool) (records : List UsnDeltaV3) :
    (records.filter keep).filter isFileDelete = records.filter isFileDelete ↔
      ∀ record ∈ records, isFileDelete record = true → keep record = true := by
  constructor
  · intro same record mem deletes
    have listed : record ∈ records.filter isFileDelete := List.mem_filter.mpr ⟨mem, deletes⟩
    rw [← same] at listed
    exact (List.mem_filter.mp (List.mem_of_mem_filter listed)).2
  · intro passes
    rw [List.filter_filter]
    refine List.filter_congr fun record mem => ?_
    cases deletes : isFileDelete record with
    | true => rw [passes record mem deletes]; rfl
    | false => rfl

theorem fromJournal_of_mem_read (volume : Volume) (reply : JournalReply) :
    ∀ record ∈ journalReadRecords volume reply.bytes, FromJournal record :=
  fun _ mem => fromJournal_of_mem mem

/-- One read returns at most 1092 records. -/
theorem length_journalReadRecords (volume : Volume) (reply : JournalReply) :
    (journalReadRecords volume reply.bytes).length ≤ 1092 := by
  have room := length_journalRecords volume (reply.bytes.drop 8)
  have size := reply.length_le
  simp only [List.length_drop, usnRecordV2NameOffset, readBufferSize] at room size
  unfold journalReadRecords
  omega

/-- **Deletions and downgrading.**  A batch of the journal reader reaches the engine with all
its deletions exactly if the peer is not a {2,0} one or no deletion of the batch carries an
allocated size. -/
theorem deletionsDelivered_iff (negotiated : ProtocolVersion) (volumeId : VolumeId)
    (volume : Volume) (reply : JournalReply) (latestUsn : UInt64) :
    DeletionsDelivered negotiated volumeId (journalReadRecords volume reply.bytes) latestUsn ↔
      negotiated.major = 1 ∨ negotiated.supportsAllocatedSize = true ∨
        ∀ record ∈ journalReadRecords volume reply.bytes, isFileDelete record = true →
          record.fixed.fieldMask &&& usnFieldAllocatedSizeBytes = 0 := by
  have made := fromJournal_of_mem_read volume reply
  have few := length_journalReadRecords volume reply
  rw [deletionsDelivered_iff_filter negotiated volumeId latestUsn made few, keptRecords]
  split_ifs with legacy old
  · refine iff_of_true ?_ (.inl legacy)
    rw [filter_keeps_deletions_iff]
    exact fun record mem deletes => (made record mem).isRepresentableInLegacyV1 deletes
  · rw [Bool.not_eq_true'] at old
    rw [filter_keeps_deletions_iff, or_iff_right legacy, old, or_iff_right Bool.false_ne_true]
    refine forall₂_congr fun record mem => ?_
    rw [(made record mem).isRepresentableInUsnV2, beq_iff_eq]
  · rw [Bool.not_eq_true', Bool.not_eq_false] at old
    exact iff_of_true rfl (.inr (.inl old))

/-! ### A deletion that a {2,0} peer never sees -/

/-- A volume on which the record segment of the deleted file is in use again: its file record
reads back. -/
def reusedSegmentVolume : Volume where
  recordSize := 1024
  enumerate _ := .error true
  fileRecord frn := some ⟨frn, 1, [0]⟩
  parse _ := some ⟨5, 0, 0, 0, 0, 4096, 0, [97], by decide, by decide⟩

/-- One raw record of the deletion of file 7. -/
def deletionReply : JournalReply where
  bytes := leBytes 8 100 ++ leBytes 4 64 ++ leBytes 2 2 ++ leBytes 2 0 ++ leBytes 8 7 ++
    leBytes 8 5 ++ leBytes 8 90 ++ leBytes 8 0 ++ leBytes 4 0x200 ++ leBytes 4 0 ++ leBytes 4 0 ++
    leBytes 4 0 ++ leBytes 2 2 ++ leBytes 2 60 ++ leBytes 2 97 ++ leBytes 2 0
  length_le := by decide

theorem deletion_delivered_later :
    DeletionsDelivered ⟨2, 1⟩ 1 (journalReadRecords reusedSegmentVolume deletionReply.bytes) 90 :=
  (deletionsDelivered_iff ⟨2, 1⟩ 1 reusedSegmentVolume deletionReply 90).mpr
    (.inr (.inl (by decide)))

theorem deletion_withheld :
    ¬ DeletionsDelivered ⟨2, 0⟩ 1 (journalReadRecords reusedSegmentVolume deletionReply.bytes) 90 := by
  have read : ((journalReadRecords reusedSegmentVolume deletionReply.bytes).filter
        isFileDelete).length = 1 ∧
      ((keptRecords ⟨2, 0⟩ (journalReadRecords reusedSegmentVolume deletionReply.bytes)).filter
        isFileDelete).length = 0 := by
    decide +kernel
  intro delivered
  have same := (deletionsDelivered_iff_filter ⟨2, 0⟩ 1 90
    (fromJournal_of_mem_read reusedSegmentVolume deletionReply)
    (length_journalReadRecords reusedSegmentVolume deletionReply)).mp delivered
  rw [same, read.1] at read
  exact absurd read.2 (by decide)

end FastFiles.Service
