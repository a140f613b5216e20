import FastFiles.Service.Scanner

/-!
# Parsing a file record

`ParseMftAttributes` of `MftParser.cpp`: the walk over the attributes of a file record whose
fixup was applied.  Every byte is untrusted.

The parser reads the record's header, the headers of the attributes it walks over, and the
resident standard information and file names, and nothing else: records that agree there
parse alike (`parseMftAttributes_congr`).
-/

namespace FastFiles.Service

open Codec

/-! ## Layout -/

def kOffsetFirstAttributeOffset : Nat := 20
def kOffsetFlags : Nat := 22
def kOffsetBytesInUse : Nat := 24

def kFileRecordDirectoryFlag : UInt16 := 0x0002
def kFileAttributeDirectory : UInt32 := 0x00000010

def kAttributeTypeStandardInformation : UInt32 := 0x10
def kAttributeTypeFileName : UInt32 := 0x30
def kAttributeTypeEnd : UInt32 := 0xFFFFFFFF

def kFileNameNamespaceDos : UInt8 := 2

section Fields

variable (record : List UInt8) (offset : Nat)

def byteAt : UInt8 := ((record.drop offset).take 1).headD 0

/-- The record's bytes in use, no more than there are. -/
def recordExtent : Nat :=
  min (uint32.readAt kOffsetBytesInUse record).toNat record.length

def firstAttributeOffset : Nat := (uint16.readAt kOffsetFirstAttributeOffset record).toNat

/-! The header of the attribute at an offset. -/

def typeCode : UInt32 := uint32.readAt offset record
def recordLength : Nat := (uint32.readAt (offset + 4) record).toNat
def formCode : UInt8 := byteAt record (offset + 8)
def valueLength : Nat := (uint32.readAt (offset + 16) record).toNat
def valueOffset : Nat := (uint16.readAt (offset + 20) record).toNat

/-- A resident standard information or file name. -/
def isAllowed : Bool :=
  formCode record offset == 0 &&
    (typeCode record offset == kAttributeTypeStandardInformation ||
      typeCode record offset == kAttributeTypeFileName)

end Fields

/-! ## The walk -/

/-- What is read of `$STANDARD_INFORMATION`. -/
structure StandardInformation where
  creationTime : UInt64
  lastModifiedTime : UInt64
  lastAccessTime : UInt64
  attributes : UInt32
deriving DecidableEq

/-- What is read of `$FILE_NAME`. -/
structure FileName where
  parentRef : UInt64
  realSize : UInt64
  allocatedSize : UInt64
  nameSpace : UInt8
  name : List UInt16
  one_le_length : 1 ≤ name.length
  length_le : name.length ≤ 255

/-- What was found so far. -/
structure Attributes where
  standardInformation : Option StandardInformation
  fileName : Option FileName

variable (record : List UInt8)

def readStandardInformation (value : Nat) : StandardInformation where
  creationTime := uint64.readAt value record
  lastModifiedTime := uint64.readAt (value + 8) record
  lastAccessTime := uint64.readAt (value + 24) record
  attributes := uint32.readAt (value + 32) record

def nameLengthChars (value : Nat) : Nat := (byteAt record (value + 64)).toNat

def readName (value : Nat) : List UInt16 :=
  (List.range (nameLengthChars record value)).map fun i => uint16.readAt (value + 66 + 2 * i) record

theorem length_readName (value : Nat) :
    (readName record value).length = nameLengthChars record value := by
  rw [readName, List.length_map, List.length_range]

/-- A file name of a value long enough for it. -/
def readFileName (value valueLength : Nat) : Option FileName :=
  if h : 66 ≤ valueLength ∧ 0 < nameLengthChars record value ∧
      66 + 2 * nameLengthChars record value ≤ valueLength then
    some {
      parentRef := uint64.readAt value record
      realSize := uint64.readAt (value + 48) record
      allocatedSize := uint64.readAt (value + 40) record
      nameSpace := byteAt record (value + 65)
      name := readName record value
      one_le_length := by
        rw [length_readName]
        exact h.2.1
      length_le := by
        rw [length_readName]
        exact Nat.le_of_lt_succ (UInt8.toNat_lt _) }
  else none

/-- The first name wins, and one that is not a DOS alias replaces one that is. -/
def preferName (best : Option FileName) (found : FileName) : FileName :=
  match best with
  | none => found
  | some best =>
    if best.nameSpace = kFileNameNamespaceDos ∧ found.nameSpace ≠ kFileNameNamespaceDos then found
    else best

/-- The body of the walk at an attribute whose extent was checked; `none` is a malformed
record.  A file name that is malformed is passed over, a standard information is not. -/
def takeAttribute (offset : Nat) (found : Attributes) : Option Attributes :=
  if isAllowed record offset then
    if recordLength record offset < valueOffset record offset + valueLength record offset then none
    else
      let value := offset + valueOffset record offset
      if typeCode record offset = kAttributeTypeStandardInformation then
        if valueLength record offset < 36 then none
        else some { found with standardInformation := some (readStandardInformation record value) }
      else
        match readFileName record value (valueLength record offset) with
        | none => some found
        | some name => some { found with fileName := some (preferName found.fileName name) }
  else some found

/-- The attributes from an offset on. -/
def walkAttributes (record : List UInt8) (offset : Nat) (found : Attributes) : Option Attributes :=
  if offset + 8 ≤ recordExtent record then
    if typeCode record offset = kAttributeTypeEnd then some found
    else if recordExtent record < offset + 24 then none
    else if bounds : recordLength record offset < 24 ∨
        recordExtent record < offset + recordLength record offset then none
    else
      -- every attribute moves the walk on
      have forward : recordExtent record - (offset + recordLength record offset) <
          recordExtent record - offset := by omega
      match takeAttribute record offset found with
      | none => none
      | some found => walkAttributes record (offset + recordLength record offset) found
  else some found
termination_by recordExtent record - offset

/-- One round of the walk. -/
theorem walkAttributes_eq (offset : Nat) (found : Attributes) :
    walkAttributes record offset found =
      if offset + 8 ≤ recordExtent record then
        if typeCode record offset = kAttributeTypeEnd then some found
        else if recordExtent record < offset + 24 then none
        else if recordLength record offset < 24 ∨
            recordExtent record < offset + recordLength record offset then none
        else (takeAttribute record offset found).bind
          (walkAttributes record (offset + recordLength record offset))
      else some found := by
  rw [walkAttributes]
  split_ifs
  · rfl
  · rfl
  · rfl
  · cases takeAttribute record offset found <;> rfl
  · rfl

/-- The directory flag is the record header's; the standard information never has it. -/
def fileAttributes (information : StandardInformation) : UInt32 :=
  information.attributes |||
    if uint16.readAt kOffsetFlags record &&& kFileRecordDirectoryFlag ≠ 0 then kFileAttributeDirectory
    else 0

def parseMftAttributes : Option ParsedMftRecord :=
  if record.length < kOffsetBytesInUse + 4 then none
  else if recordExtent record ≤ firstAttributeOffset record then none
  else
    match walkAttributes record (firstAttributeOffset record) ⟨none, none⟩ with
    | some ⟨some information, some name⟩ => some {
        parentFileReferenceNumber := name.parentRef
        creationTime := information.creationTime
        lastModifiedTime := information.lastModifiedTime
        lastAccessTime := information.lastAccessTime
        sizeBytes := name.realSize
        allocatedSizeBytes := name.allocatedSize
        fileAttributes := fileAttributes record information
        fileName := name.name
        one_le_length := name.one_le_length
        length_le := name.length_le }
    | _ => none

/-! ## What is visible -/

/-- The offsets at which the walk looks for an attribute. -/
inductive AttributeAt (record : List UInt8) : Nat → Prop where
  | first : AttributeAt record (firstAttributeOffset record)
  | next {offset : Nat} : AttributeAt record offset → typeCode record offset ≠ kAttributeTypeEnd →
      24 ≤ recordLength record offset →
      offset + recordLength record offset ≤ recordExtent record →
      AttributeAt record (offset + recordLength record offset)

/-- Two records have the same bytes in a range. -/
def SameBytes (left right : List UInt8) (start length : Nat) : Prop :=
  (left.drop start).take length = (right.drop start).take length

/-- Two records of one size agree in the header, in the attribute headers, and in the resident
standard information and file names; at an end mark, in the mark. -/
structure SameVisible (left right : List UInt8) : Prop where
  size : left.length = right.length
  header : SameBytes left right 0 28
  mark : ∀ offset, AttributeAt left offset → offset + 8 ≤ recordExtent left →
    SameBytes left right offset 4
  attributeHeader : ∀ offset, AttributeAt left offset → offset + 24 ≤ recordExtent left →
    typeCode left offset ≠ kAttributeTypeEnd → SameBytes left right offset 24
  allowed : ∀ offset, AttributeAt left offset → offset + 24 ≤ recordExtent left →
    isAllowed left offset = true → SameBytes left right offset (recordLength left offset)

/-! ## Readers of a range -/

section Readers

variable {left right : List UInt8} {start length : Nat} {offset : Nat}

theorem SameBytes.sub (same : SameBytes left right start length) {width : Nat}
    (from_start : start ≤ offset) (within : offset + width ≤ start + length) :
    SameBytes left right offset width := by
  have shrink (record : List UInt8) : (record.drop offset).take width =
      ((((record.drop start).take length).drop (offset - start)).take width) := by
    rw [List.drop_take, List.drop_drop, List.take_take, Nat.add_sub_cancel' from_start,
      Nat.min_eq_left (by omega)]
  unfold SameBytes
  rw [shrink left, shrink right, same]

theorem readAt_congr {α : Type*} (codec : Codec α) (same : SameBytes left right start length)
    (from_start : start ≤ offset) (within : offset + codec.width ≤ start + length) :
    codec.readAt offset left = codec.readAt offset right :=
  congrArg codec.decode (same.sub from_start within)

theorem byteAt_congr (same : SameBytes left right start length) (from_start : start ≤ offset)
    (within : offset + 1 ≤ start + length) : byteAt left offset = byteAt right offset :=
  congrArg (fun bytes => bytes.headD 0) (same.sub from_start within)

end Readers

/-! ## Parsing alike -/

section Congr

variable {left right : List UInt8}

section

variable {start length value : Nat} (same : SameBytes left right start length)
  (from_start : start ≤ value)

include same from_start

theorem readStandardInformation_congr (within : value + 36 ≤ start + length) :
    readStandardInformation left value = readStandardInformation right value := by
  have wide (offset : Nat) (low : value ≤ offset) (high : offset + 8 ≤ value + 36) :
      uint64.readAt offset left = uint64.readAt offset right :=
    readAt_congr uint64 same (by omega) (by show offset + 8 ≤ _; omega)
  have narrow : uint32.readAt (value + 32) left = uint32.readAt (value + 32) right :=
    readAt_congr uint32 same (by omega) (by show value + 32 + 4 ≤ _; omega)
  unfold readStandardInformation
  rw [wide value (by omega) (by omega), wide (value + 8) (by omega) (by omega),
    wide (value + 24) (by omega) (by omega), narrow]

theorem readFileName_congr {size : Nat} (within : value + size ≤ start + length) :
    readFileName left value size = readFileName right value size := by
  by_cases long : 66 ≤ size
  · have chars : nameLengthChars left value = nameLengthChars right value :=
      congrArg UInt8.toNat (byteAt_congr same (by omega) (by omega))
    have wide (offset : Nat) (low : value ≤ offset) (high : offset + 8 ≤ value + 66) :
        uint64.readAt offset left = uint64.readAt offset right :=
      readAt_congr uint64 same (by omega) (by show offset + 8 ≤ _; omega)
    have nameSpace : byteAt left (value + 65) = byteAt right (value + 65) :=
      byteAt_congr same (by omega) (by omega)
    have name (fits : 66 + 2 * nameLengthChars left value ≤ size) :
        readName left value = readName right value := by
      unfold readName
      rw [← chars]
      refine List.map_congr_left fun i mem => readAt_congr uint16 same (by omega) ?_
      have := List.mem_range.mp mem
      show value + 66 + 2 * i + 2 ≤ _
      omega
    unfold readFileName
    split_ifs with fits other other
    · simp only [Option.some.injEq, FileName.mk.injEq]
      exact ⟨wide value (by omega) (by omega), wide _ (by omega) (by omega),
        wide _ (by omega) (by omega), nameSpace, name fits.2.2⟩
    · exact absurd (chars ▸ fits) other
    · exact absurd (chars ▸ other) fits
    · rfl
  · unfold readFileName
    rw [dif_neg (fun h => long h.1), dif_neg (fun h => long h.1)]

end

variable {offset : Nat}

/-- The fields of an attribute header. -/
theorem attributeHeader_congr (same : SameBytes left right offset 24) :
    recordLength left offset = recordLength right offset ∧
      isAllowed left offset = isAllowed right offset ∧
      valueLength left offset = valueLength right offset ∧
      valueOffset left offset = valueOffset right offset := by
  have code : typeCode left offset = typeCode right offset :=
    readAt_congr uint32 same le_rfl (by show offset + 4 ≤ _; omega)
  have form : formCode left offset = formCode right offset :=
    byteAt_congr same (by omega) (by omega)
  refine ⟨?_, ?_, ?_, ?_⟩
  · exact congrArg UInt32.toNat (readAt_congr uint32 same (by omega) (by show offset + 4 + 4 ≤ _; omega))
  · rw [isAllowed, isAllowed, code, form]
  · exact congrArg UInt32.toNat (readAt_congr uint32 same (by omega) (by show offset + 16 + 4 ≤ _; omega))
  · exact congrArg UInt16.toNat (readAt_congr uint16 same (by omega) (by show offset + 20 + 2 ≤ _; omega))

/-- The body of the walk reads no attribute but the allowed ones. -/
theorem takeAttribute_congr (code : typeCode left offset = typeCode right offset)
    (header : SameBytes left right offset 24)
    (allowed : isAllowed left offset = true →
      SameBytes left right offset (recordLength left offset)) (found : Attributes) :
    takeAttribute left offset found = takeAttribute right offset found := by
  obtain ⟨length, permitted, size, start⟩ := attributeHeader_congr header
  unfold takeAttribute
  rw [← permitted, ← length, ← size, ← start, ← code]
  by_cases readable : isAllowed left offset = true
  · rw [if_pos readable, if_pos readable]
    have same := allowed readable
    by_cases outside : recordLength left offset < valueOffset left offset + valueLength left offset
    · rw [if_pos outside, if_pos outside]
    · rw [if_neg outside, if_neg outside]
      dsimp only
      rw [readFileName_congr same (by omega) (by omega)]
      split_ifs with information short
      · rfl
      · rw [readStandardInformation_congr same (by omega) (by omega)]
      · rfl
  · rw [if_neg readable, if_neg readable]

theorem walkAttributes_congr (same : SameVisible left right)
    (extent : recordExtent left = recordExtent right) (reached : AttributeAt left offset)
    (found : Attributes) : walkAttributes left offset found = walkAttributes right offset found := by
  -- the walk over `left` leads; `right` follows it attribute by attribute
  have code {offset : Nat} (reached : AttributeAt left offset)
      (room : offset + 8 ≤ recordExtent left) : typeCode left offset = typeCode right offset :=
    readAt_congr uint32 (same.mark offset reached room) le_rfl (by show offset + 4 ≤ _; omega)
  fun_induction walkAttributes left offset found with
  | case1 offset found room ended =>
    rw [walkAttributes_eq, ← extent, if_pos room, ← code reached room, if_pos ended]
  | case2 offset found room going short =>
    rw [walkAttributes_eq, ← extent, if_pos room, ← code reached room, if_neg going, if_pos short]
  | case3 offset found room going long bounds =>
    have header := same.attributeHeader offset reached (by omega) going
    rw [walkAttributes_eq, ← extent, if_pos room, ← code reached room, if_neg going, if_neg long,
      ← (attributeHeader_congr header).1, if_pos bounds]
  | case4 offset found room going long bounds forward malformed =>
    have header := same.attributeHeader offset reached (by omega) going
    have taken := takeAttribute_congr (code reached room) header
      (same.allowed offset reached (by omega)) found
    rw [walkAttributes_eq, ← extent, if_pos room, ← code reached room, if_neg going, if_neg long,
      ← (attributeHeader_congr header).1, if_neg bounds, ← taken, malformed]
    rfl
  | case5 offset found room going long bounds forward next taken_left ih =>
    have header := same.attributeHeader offset reached (by omega) going
    have taken := takeAttribute_congr (code reached room) header
      (same.allowed offset reached (by omega)) found
    rw [walkAttributes_eq right, ← extent, if_pos room, ← code reached room, if_neg going,
      if_neg long, ← (attributeHeader_congr header).1, if_neg bounds, ← taken, taken_left]
    exact ih (.next reached going (by omega) (by omega))
  | case6 offset found no_room =>
    rw [walkAttributes_eq, ← extent, if_neg no_room]

/-- Records that agree in what is visible parse alike. -/
theorem parseMftAttributes_congr (same : SameVisible left right) :
    parseMftAttributes left = parseMftAttributes right := by
  by_cases short : left.length < kOffsetBytesInUse + 4
  · rw [parseMftAttributes, parseMftAttributes, if_pos short, if_pos (same.size ▸ short)]
  · have in_use : uint32.readAt kOffsetBytesInUse left = uint32.readAt kOffsetBytesInUse right :=
      readAt_congr uint32 same.header (Nat.zero_le _) (by decide)
    have flags : uint16.readAt kOffsetFlags left = uint16.readAt kOffsetFlags right :=
      readAt_congr uint16 same.header (Nat.zero_le _) (by decide)
    have start : firstAttributeOffset left = firstAttributeOffset right :=
      congrArg UInt16.toNat (readAt_congr uint16 same.header (Nat.zero_le _) (by decide))
    have extent : recordExtent left = recordExtent right := by
      rw [recordExtent, recordExtent, in_use, same.size]
    have walked := walkAttributes_congr same extent .first ⟨none, none⟩
    rw [start] at walked
    unfold parseMftAttributes fileAttributes
    rw [same.size, extent, start, flags, walked]

end Congr

/-- A record with a standard information, a name, and data of eight bytes. -/
def recordWithData (byte : UInt8) : List UInt8 :=
  (List.replicate 20 0 ++ [32, 0, 1, 0, 224, 0, 0, 0] ++ List.replicate 4 0) ++
    ([0x10, 0, 0, 0, 60, 0, 0, 0] ++ List.replicate 8 0 ++ [36, 0, 0, 0, 24, 0, 0, 0] ++
      List.replicate 36 0) ++
    ([0x30, 0, 0, 0, 92, 0, 0, 0] ++ List.replicate 8 0 ++ [68, 0, 0, 0, 24, 0, 0, 0] ++
      (List.replicate 64 0 ++ [1, 1, 0x61, 0])) ++
    ([0x80, 0, 0, 0, 32, 0, 0, 0] ++ List.replicate 8 0 ++ [8, 0, 0, 0, 24, 0, 0, 0] ++
      List.replicate 8 byte) ++
    [0xff, 0xff, 0xff, 0xff, 0, 0, 0, 0]

theorem attributeAt_recordWithData (reached : AttributeAt (recordWithData 1) offset) :
    offset = 32 ∨ offset = 92 ∨ offset = 184 ∨ offset = 216 := by
  induction reached with
  | first => exact .inl (by decide +kernel)
  | next _ going _ _ ih =>
    obtain rfl | rfl | rfl | rfl := ih
    · exact .inr (.inl (by decide +kernel))
    · exact .inr (.inr (.inl (by decide +kernel)))
    · exact .inr (.inr (.inr (by decide +kernel)))
    · exact absurd (by decide +kernel) going

theorem sameVisible_recordWithData : SameVisible (recordWithData 1) (recordWithData 2) where
  size := by decide +kernel
  header := by
    unfold SameBytes
    decide +kernel
  mark offset reached _ := by
    obtain rfl | rfl | rfl | rfl := attributeAt_recordWithData reached <;> unfold SameBytes <;>
      decide +kernel
  attributeHeader offset reached inside going := by
    obtain rfl | rfl | rfl | rfl := attributeAt_recordWithData reached
    iterate 3
      unfold SameBytes
      decide +kernel
    · exact absurd (by decide +kernel) going
  allowed offset reached inside permitted := by
    obtain rfl | rfl | rfl | rfl := attributeAt_recordWithData reached
    iterate 2
      unfold SameBytes
      decide +kernel
    iterate 2 exact absurd permitted (by decide +kernel)

theorem parseMftAttributes_congr_data :
    recordWithData 1 ≠ recordWithData 2 ∧ (parseMftAttributes (recordWithData 1)).isSome ∧
      parseMftAttributes (recordWithData 1) = parseMftAttributes (recordWithData 2) :=
  ⟨by decide +kernel, by decide +kernel, parseMftAttributes_congr sameVisible_recordWithData⟩

end FastFiles.Service
