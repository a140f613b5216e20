import FastFiles.Protocol.Records

/-!
# Entries

`Identity.h` and `EntryRecord.h`: the identity of a file, the fields of an entry, and the
changes a batch is made of; and the conversions of wire records into changes at the head
of `IndexPipeline.cpp`.
-/

namespace FastFiles.Index

open Protocol

/-! ## Identity -/

structure FileId where
  low : UInt64
  high : UInt64
deriving DecidableEq

/-- `volumes.id`; positive, and never used twice. -/
abbrev VolumeRowId := Nat

structure EntryKey where
  volumeRowId : VolumeRowId
  frn : FileId
deriving DecidableEq

/-! ## Records -/

/-- UTF-16 code units. -/
abbrev Text := List UInt16

def backslash : UInt16 := 0x5C

def quoteMark : UInt16 := 0x22

/-- The small letter of an ASCII capital: `towlower` in the C locale. -/
def asciiLower (unit : UInt16) : UInt16 :=
  if 0x41 ≤ unit.toNat ∧ unit.toNat ≤ 0x5A then .ofNat (unit.toNat + 0x20) else unit

def isHighSurrogate (unit : UInt16) : Bool := decide (0xD800 ≤ unit.toNat ∧ unit.toNat ≤ 0xDBFF)

def isLowSurrogate (unit : UInt16) : Bool := decide (0xDC00 ≤ unit.toNat ∧ unit.toNat ≤ 0xDFFF)

/-- A record of an entry; in a pooled projection the name is an id. -/
structure EntryRecord (ν : Type := Text) where
  id : FileId
  parentId : FileId
  name : ν
  sizeBytes : UInt64
  allocatedSizeBytes : UInt64
  allocatedSizeKnown : Bool
  creationTime : UInt64
  lastModifiedTime : UInt64
  lastAccessTime : UInt64
  attributes : UInt32
deriving DecidableEq

abbrev EntryFieldMask := UInt32

def entryFieldParentId : EntryFieldMask := 0x01
def entryFieldName : EntryFieldMask := 0x02
def entryFieldSizeBytes : EntryFieldMask := 0x04
def entryFieldCreationTime : EntryFieldMask := 0x08
def entryFieldLastModifiedTime : EntryFieldMask := 0x10
def entryFieldLastAccessTime : EntryFieldMask := 0x20
def entryFieldAttributes : EntryFieldMask := 0x40
def entryFieldAllocatedSizeBytes : EntryFieldMask := 0x80

def entryFieldMaskAll : EntryFieldMask :=
  entryFieldParentId ||| entryFieldName ||| entryFieldSizeBytes ||| entryFieldCreationTime |||
    entryFieldLastModifiedTime ||| entryFieldLastAccessTime ||| entryFieldAttributes |||
    entryFieldAllocatedSizeBytes

def hasEntryField (fields field : EntryFieldMask) : Bool := fields &&& field != 0

inductive EntryChangeKind
  | upsert
  | remove
deriving DecidableEq

structure EntryChange where
  kind : EntryChangeKind
  record : EntryRecord
  fields : EntryFieldMask := entryFieldMaskAll
deriving DecidableEq

/-- `FILE_ATTRIBUTE_DIRECTORY`. -/
def fileAttributeDirectory : UInt32 := 0x10

/-! ## Changes from the wire -/

/-- An NTFS reference number; the high half is for ReFS. -/
def ntfsFileId (fileReferenceNumber : UInt64) : FileId := ⟨fileReferenceNumber, 0⟩

/-- A V1 record predates the allocated size. -/
def toEntryRecordOfMftV1 (record : MftRecordV1) : EntryRecord where
  id := ntfsFileId record.fixed.fileReferenceNumber
  parentId := ntfsFileId record.fixed.parentFileReferenceNumber
  name := record.fileName
  sizeBytes := record.fixed.sizeBytes
  allocatedSizeBytes := 0
  allocatedSizeKnown := false
  creationTime := record.fixed.creationTime
  lastModifiedTime := record.fixed.lastModifiedTime
  lastAccessTime := record.fixed.lastAccessTime
  attributes := record.fixed.fileAttributes

def toEntryRecordOfMftV2 (record : MftRecordV2) : EntryRecord where
  id := ntfsFileId record.fixed.fileReferenceNumber
  parentId := ntfsFileId record.fixed.parentFileReferenceNumber
  name := record.fileName
  sizeBytes := record.fixed.sizeBytes
  allocatedSizeBytes := record.fixed.allocatedSizeBytes
  allocatedSizeKnown := true
  creationTime := record.fixed.creationTime
  lastModifiedTime := record.fixed.lastModifiedTime
  lastAccessTime := record.fixed.lastAccessTime
  attributes := record.fixed.fileAttributes

/-- The allocated size and its flag keep the defaults of `EntryRecord`. -/
def toEntryRecordOfUsnV2 (record : UsnDeltaV2) : EntryRecord where
  id := ntfsFileId record.fixed.fileReferenceNumber
  parentId := ntfsFileId record.fixed.parentFileReferenceNumber
  name := record.fileName
  sizeBytes := record.fixed.sizeBytes
  allocatedSizeBytes := 0
  allocatedSizeKnown := false
  creationTime := record.fixed.creationTime
  lastModifiedTime := record.fixed.lastModifiedTime
  lastAccessTime := record.fixed.lastAccessTime
  attributes := record.fixed.fileAttributes

def toEntryRecordOfUsnV3 (record : UsnDeltaV3) : EntryRecord :=
  let allocatedSizeKnown := record.fixed.fieldMask &&& usnFieldAllocatedSizeBytes != 0
  { id := ntfsFileId record.fixed.fileReferenceNumber
    parentId := ntfsFileId record.fixed.parentFileReferenceNumber
    name := record.fileName
    sizeBytes := record.fixed.sizeBytes
    allocatedSizeBytes := if allocatedSizeKnown then record.fixed.allocatedSizeBytes else 0
    allocatedSizeKnown := allocatedSizeKnown
    creationTime := record.fixed.creationTime
    lastModifiedTime := record.fixed.lastModifiedTime
    lastAccessTime := record.fixed.lastAccessTime
    attributes := record.fixed.fileAttributes }

/-- The wire bits map one to one; an unknown bit has no translation. -/
def toEntryFieldMask (fields : UInt32) : Option EntryFieldMask :=
  if !isKnownMask fields then none
  else
    let translate (wire : UInt32) (stored : EntryFieldMask) : EntryFieldMask :=
      if fields &&& wire != 0 then stored else 0
    some (translate usnFieldParentId entryFieldParentId |||
      translate usnFieldName entryFieldName |||
      translate usnFieldSizeBytes entryFieldSizeBytes |||
      translate usnFieldCreationTime entryFieldCreationTime |||
      translate usnFieldLastModifiedTime entryFieldLastModifiedTime |||
      translate usnFieldLastAccessTime entryFieldLastAccessTime |||
      translate usnFieldAttributes entryFieldAttributes |||
      translate usnFieldAllocatedSizeBytes entryFieldAllocatedSizeBytes)

/-- A deletion is a removal whatever its mask; an upsert needs a mask that translates. -/
def usnChange (reason fieldMask : UInt32) (record : EntryRecord) : Option EntryChange :=
  if reason &&& usnReasonFileDelete != 0 then some { kind := .remove, record }
  else (toEntryFieldMask fieldMask).map fun fields => { kind := .upsert, record, fields }

def changeOfUsnV2 (record : UsnDeltaV2) : Option EntryChange :=
  usnChange record.fixed.reason record.fixed.fieldMask (toEntryRecordOfUsnV2 record)

def changeOfUsnV3 (record : UsnDeltaV3) : Option EntryChange :=
  usnChange record.fixed.reason record.fixed.fieldMask (toEntryRecordOfUsnV3 record)

def changeOfMft (record : EntryRecord) : EntryChange where
  kind := .upsert
  record := record

end FastFiles.Index
