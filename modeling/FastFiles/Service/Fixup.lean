import FastFiles.Service.MftParser

/-!
# The fixup of a file record

`ApplyFixupAndValidate` of `MftParser.cpp`.  On disk the last two bytes of every sector of a
record are the update sequence number, and the bytes that belong there are kept in the update
sequence array.  The fixup checks the record and puts them back, in place.

Where the array lies is read from the record, and the code does not check that it lies apart from
the tails of the sectors.  The step is exact, and can be repeated, exactly if no write changes a
value of the array (`fixup_exact_iff`): where nothing is written, where the array lies apart from
the tails, and where a value in a tail happens to be what the array puts there.
-/

namespace FastFiles.Service

open Function

def kOffsetUpdateSeqArrayOffset : Nat := 4
def kOffsetUpdateSeqArraySize : Nat := 6
def kFileRecordInUseFlag : Nat := 0x0001

inductive FixupResult
  | ok
  | notAFileRecord
  | notInUse
  | malformed
deriving DecidableEq

/-- The arguments: the bytes from `record` on, and the two sizes. -/
structure RecordBuffer where
  record : Nat → UInt8
  recordSize : Nat
  bytesPerSector : Nat

namespace RecordBuffer

section Model

variable (r : RecordBuffer)

def readU16 (offset : Nat) : Nat :=
  (r.record offset).toNat + 256 * (r.record (offset + 1)).toNat

/-- `memcpy` of two bytes. -/
def copyU16 (target source : Nat) : RecordBuffer where
  record := update (update r.record target (r.record source)) (target + 1)
    (r.record (source + 1))
  recordSize := r.recordSize
  bytesPerSector := r.bytesPerSector

def usaOffset : Nat := r.readU16 kOffsetUpdateSeqArrayOffset

/-- The entries of the array, the update sequence number among them. -/
def usaSize : Nat := r.readU16 kOffsetUpdateSeqArraySize

def sectorCount : Nat := r.recordSize / r.bytesPerSector

/-- Where the last two bytes of a sector are. -/
def sectorTail (sector : Nat) : Nat := (sector + 1) * r.bytesPerSector - 2

/-- Where the array has the bytes of a sector's tail. -/
def trueValue (sector : Nat) : Nat := r.usaOffset + (sector + 1) * 2

/-- The checks before the tails are read. -/
def rejectHeader : Option FixupResult :=
  if r.bytesPerSector = 0 ∨ r.recordSize < kOffsetBytesInUse + 4 then some .malformed
  else if ¬(r.record 0 = 0x46 ∧ r.record 1 = 0x49 ∧ r.record 2 = 0x4C ∧ r.record 3 = 0x45) then
    some .notAFileRecord
  else if r.readU16 kOffsetFlags &&& kFileRecordInUseFlag = 0 then some .notInUse
  else if r.usaSize = 0 ∨ r.recordSize < r.usaOffset + r.usaSize * 2 then some .malformed
  else if r.sectorCount + 1 ≠ r.usaSize then some .malformed
  else none

def ProtectedOnDisk : Prop :=
  ∀ sector < r.sectorCount, r.readU16 (r.sectorTail sector) = r.readU16 r.usaOffset

def AlreadyRestored : Prop :=
  ∀ sector < r.sectorCount, r.readU16 (r.sectorTail sector) = r.readU16 (r.trueValue sector)

instance : Decidable r.ProtectedOnDisk := inferInstanceAs (Decidable (∀ _ < _, _))

instance : Decidable r.AlreadyRestored := inferInstanceAs (Decidable (∀ _ < _, _))

/-- The buffer after the tails of so many sectors have been written. -/
def restoreTails : Nat → RecordBuffer
  | 0 => r
  | sector + 1 => (restoreTails sector).copyU16 (r.sectorTail sector) (r.trueValue sector)

def applyFixupAndValidate : FixupResult × RecordBuffer :=
  match r.rejectHeader with
  | some reason => (reason, r)
  | none =>
    if ∃ sector < r.sectorCount, r.recordSize < r.sectorTail sector + 2 then (.malformed, r)
    else if ¬r.ProtectedOnDisk ∧ ¬r.AlreadyRestored then (.malformed, r)
    else if r.ProtectedOnDisk then (.ok, r.restoreTails r.sectorCount)
    else (.ok, r)

/-- The record passes the checks, and its tails are protected. -/
def Writes : Prop :=
  r.rejectHeader = none ∧ (∀ sector < r.sectorCount, r.sectorTail sector + 2 ≤ r.recordSize) ∧
    r.ProtectedOnDisk

/-- A byte of the array's values that lies in a tail is the byte that the array puts there. -/
def Harmless : Prop :=
  ∀ sector < r.sectorCount, ∀ other < r.sectorCount, ∀ i < 2, ∀ j < 2,
    r.trueValue other + j = r.sectorTail sector + i →
      r.record (r.sectorTail sector + i) = r.record (r.trueValue sector + i)

/-- The result is the buffer with exactly the tails written that the array says. -/
structure FixupExact (result : FixupResult) (r' : RecordBuffer) : Prop where
  rejected : result ≠ .ok → r' = r
  outside : ∀ offset, (∀ sector < r.sectorCount, ∀ i < 2, offset ≠ r.sectorTail sector + i) →
    r'.record offset = r.record offset
  restored : result = .ok → r.ProtectedOnDisk → ∀ sector < r.sectorCount,
    r'.readU16 (r.sectorTail sector) = r.readU16 (r.trueValue sector)
  kept : ¬r.ProtectedOnDisk → r' = r
  again : result = .ok → r'.applyFixupAndValidate = (.ok, r')

end Model

variable {r r' : RecordBuffer}

theorem readU16_congr {p q : Nat} (low : r'.record p = r.record q)
    (high : r'.record (p + 1) = r.record (q + 1)) : r'.readU16 p = r.readU16 q := by
  rw [readU16, readU16, low, high]

theorem le_sectorTail (large : 256 ≤ r.bytesPerSector) (sector : Nat) :
    254 ≤ r.sectorTail sector := by
  have room : r.bytesPerSector ≤ (sector + 1) * r.bytesPerSector :=
    Nat.le_mul_of_pos_left _ (Nat.succ_pos sector)
  unfold sectorTail
  omega

variable {sector : Nat}

theorem sectorTail_add (large : 256 ≤ r.bytesPerSector) {later : Nat} (h : sector < later) :
    r.sectorTail sector + r.bytesPerSector ≤ r.sectorTail later := by
  have room : (sector + 1) * r.bytesPerSector + r.bytesPerSector ≤
      (later + 1) * r.bytesPerSector := by
    rw [← Nat.succ_mul]
    exact Nat.mul_le_mul_right _ (Nat.succ_le_succ h)
  have least := le_sectorTail large sector
  unfold sectorTail at *
  omega

theorem readU16_eq_iff {p q : Nat} : r'.readU16 p = r.readU16 q ↔
    ∀ i < 2, r'.record (p + i) = r.record (q + i) := by
  constructor
  · intro same i bound
    unfold readU16 at same
    have low := (r'.record p).toNat_lt
    have low' := (r.record q).toNat_lt
    obtain rfl | rfl : i = 0 ∨ i = 1 := by omega
    · rw [Nat.add_zero, Nat.add_zero]
      exact UInt8.toNat_inj.mp (by omega)
    · exact UInt8.toNat_inj.mp (by omega)
  · exact fun same => readU16_congr (same 0 (by decide)) (same 1 (by decide))

/-! ## The loop -/

section Copy

variable {target source : Nat}

theorem copyU16_at {i : Nat} (bound : i < 2) :
    (r.copyU16 target source).record (target + i) = r.record (source + i) := by
  obtain rfl | rfl : i = 0 ∨ i = 1 := by omega
  · show update (update r.record target _) (target + 1) _ target = _
    rw [update_of_ne (by omega), update_self]
    rfl
  · exact update_self ..

theorem copyU16_of_ne {offset : Nat} (away : ∀ i < 2, offset ≠ target + i) :
    (r.copyU16 target source).record offset = r.record offset := by
  show update (update r.record target _) (target + 1) _ offset = _
  have low : offset ≠ target := away 0 (by decide)
  rw [update_of_ne (away 1 (by decide)), update_of_ne low]

/-- Copying what is there already changes nothing. -/
theorem copyU16_eq_self (same : ∀ i < 2, r.record (target + i) = r.record (source + i)) :
    r.copyU16 target source = r := by
  have low : r.record target = r.record source := same 0 (by decide)
  have high : r.record (target + 1) = r.record (source + 1) := same 1 (by decide)
  rw [copyU16, ← low, update_eq_self, ← high, update_eq_self]

end Copy

theorem restoreTails_sizes (count : Nat) :
    (r.restoreTails count).recordSize = r.recordSize ∧
      (r.restoreTails count).bytesPerSector = r.bytesPerSector := by
  induction count with
  | zero => exact ⟨rfl, rfl⟩
  | succ count ih => exact ih

variable {count i : Nat}

theorem restoreTails_outside {offset : Nat}
    (away : ∀ sector < count, ∀ i < 2, offset ≠ r.sectorTail sector + i) :
    (r.restoreTails count).record offset = r.record offset := by
  induction count with
  | zero => rfl
  | succ count ih =>
    rw [restoreTails, copyU16_of_ne (away count (Nat.lt_succ_self count))]
    exact ih fun sector h => away sector (Nat.lt_succ_of_lt h)

/-- A tail holds what its sector's value was when the loop came to it: later writes are a whole
sector away. -/
theorem restoreTails_sectorTail (large : 256 ≤ r.bytesPerSector) (h : sector < count) (bound : i < 2) :
    (r.restoreTails count).record (r.sectorTail sector + i) =
      (r.restoreTails sector).record (r.trueValue sector + i) := by
  induction count with
  | zero => exact absurd h (Nat.not_lt_zero _)
  | succ count ih =>
    rw [restoreTails]
    rcases Nat.lt_succ_iff_lt_or_eq.mp h with earlier | rfl
    · have := sectorTail_add large earlier
      rw [copyU16_of_ne fun j _ => by omega]
      exact ih earlier
    · exact copyU16_at bound

/-- If values in tails are harmless, no write of the loop changes a value. -/
theorem restoreTails_trueValue (harmless : r.Harmless) (le : count ≤ r.sectorCount)
    (h : sector < r.sectorCount) (bound : i < 2) :
    (r.restoreTails count).record (r.trueValue sector + i) = r.record (r.trueValue sector + i) := by
  induction count generalizing sector i with
  | zero => rfl
  | succ count ih =>
    have past := Nat.le_of_succ_le le
    rw [restoreTails]
    by_cases inside : ∃ j < 2, r.trueValue sector + i = r.sectorTail count + j
    · obtain ⟨j, j_bound, same⟩ := inside
      rw [same, copyU16_at j_bound, ih past (Nat.lt_of_succ_le le) j_bound]
      exact (harmless count (Nat.lt_of_succ_le le) sector h j j_bound i bound same).symm
    · rw [copyU16_of_ne fun j j_bound same => inside ⟨j, j_bound, same⟩]
      exact ih past h bound

/-- The loop changes nothing exactly if every tail holds its value. -/
theorem restoreTails_eq_self_iff (large : 256 ≤ r.bytesPerSector) : r.restoreTails count = r ↔
    ∀ sector < count, ∀ i < 2,
      r.record (r.sectorTail sector + i) = r.record (r.trueValue sector + i) := by
  constructor
  · intro unchanged
    -- the first write that changed something would still be seen at the end
    have stays : ∀ sector ≤ count, r.restoreTails sector = r := by
      intro sector le
      induction sector with
      | zero => rfl
      | succ sector ih =>
        have before := ih (Nat.le_of_succ_le le)
        rw [restoreTails, before]
        refine copyU16_eq_self fun i bound => ?_
        have tail := restoreTails_sectorTail large (Nat.lt_of_succ_le le) bound
        rwa [unchanged, before] at tail
    intro sector h i bound
    have tail := restoreTails_sectorTail large h bound
    rwa [unchanged, stays sector h.le] at tail
  · intro same
    induction count with
    | zero => rfl
    | succ count ih =>
      rw [restoreTails, ih fun sector h => same sector (Nat.lt_succ_of_lt h)]
      exact copyU16_eq_self (same count (Nat.lt_succ_self count))

/-! ## The checks -/

theorem ok_of_rejectHeader (header : r.rejectHeader = some .ok) : False := by
  unfold rejectHeader at header
  split_ifs at header <;> cases header

/-- The checks read the first bytes of the record only. -/
theorem rejectHeader_congr (size : r'.recordSize = r.recordSize)
    (sector : r'.bytesPerSector = r.bytesPerSector)
    (same : ∀ offset < kOffsetBytesInUse, r'.record offset = r.record offset) :
    r'.rejectHeader = r.rejectHeader := by
  have words : ∀ offset < 23, r'.readU16 offset = r.readU16 offset := fun offset h =>
    readU16_congr (same offset (Nat.lt_succ_of_lt h)) (same _ (Nat.succ_lt_succ h))
  unfold rejectHeader usaOffset usaSize sectorCount
  rw [words _ (by decide), words _ (by decide), words _ (by decide), same 0 (by decide),
    same 1 (by decide), same 2 (by decide), same 3 (by decide), size, sector]

/-- The loop leaves the checks and the places of tails and values as they are. -/
theorem restoreTails_frame (large : 256 ≤ r.bytesPerSector) (count : Nat) :
    (r.restoreTails count).rejectHeader = r.rejectHeader ∧
      (r.restoreTails count).sectorCount = r.sectorCount ∧
      (∀ sector, (r.restoreTails count).sectorTail sector = r.sectorTail sector) ∧
      ∀ sector, (r.restoreTails count).trueValue sector = r.trueValue sector := by
  obtain ⟨size, sector⟩ := r.restoreTails_sizes count
  have front : ∀ offset < kOffsetBytesInUse,
      (r.restoreTails count).record offset = r.record offset := by
    intro offset h
    refine restoreTails_outside fun s _ i _ => ?_
    have := le_sectorTail large s
    have : offset < 24 := h
    omega
  refine ⟨rejectHeader_congr size sector front, ?_, fun s => ?_, fun s => ?_⟩
  · rw [sectorCount, size, sector, sectorCount]
  · rw [sectorTail, sector, sectorTail]
  · rw [trueValue, usaOffset, readU16_congr (front _ (by decide)) (front _ (by decide)),
      trueValue, usaOffset]

/-- A record that passes the checks and is left as it is has its values in its tails. -/
theorem again_iff (large : 256 ≤ r.bytesPerSector) (header : r.rejectHeader = none)
    (whole : ∀ sector < r.sectorCount, r.sectorTail sector + 2 ≤ r.recordSize) :
    r.applyFixupAndValidate = (.ok, r) ↔ r.AlreadyRestored := by
  have restored : r.AlreadyRestored ↔ r.restoreTails r.sectorCount = r := by
    rw [restoreTails_eq_self_iff large]
    exact forall₂_congr fun _ _ => readU16_eq_iff
  have fits : ¬∃ sector < r.sectorCount, r.recordSize < r.sectorTail sector + 2 := by
    rintro ⟨sector, h, short⟩
    exact absurd (whole sector h) (by omega)
  rw [applyFixupAndValidate, header]
  simp only [if_neg fits]
  by_cases done : r.AlreadyRestored
  · rw [if_neg fun torn => torn.2 done, restored.mp done]
    simp [done]
  · by_cases known : r.ProtectedOnDisk
    · simp [known, restored]
    · simp [known, done]

/-! ## The fixup -/

section Fixup

variable (large : 256 ≤ r.bytesPerSector)

theorem applyFixupAndValidate_writes (writes : r.Writes) :
    r.applyFixupAndValidate = (.ok, r.restoreTails r.sectorCount) := by
  obtain ⟨header, whole, known⟩ := writes
  have fits : ¬∃ sector < r.sectorCount, r.recordSize < r.sectorTail sector + 2 := by
    rintro ⟨sector, h, short⟩
    exact absurd (whole sector h) (by omega)
  rw [applyFixupAndValidate, header]
  simp [fits, known]

/-- Where nothing is written the record stays as it is, accepted or not. -/
theorem applyFixupAndValidate_keeps (idle : ¬r.Writes) :
    r.applyFixupAndValidate.2 = r ∧
      (r.applyFixupAndValidate.1 = .ok → ¬r.ProtectedOnDisk) := by
  cases header : r.rejectHeader with
  | some reason =>
    rw [applyFixupAndValidate, header]
    exact ⟨rfl, fun ok => (ok_of_rejectHeader (header.trans (congrArg some ok))).elim⟩
  | none =>
    rw [applyFixupAndValidate, header]
    dsimp only
    split_ifs with short torn known
    · exact ⟨rfl, by simp⟩
    · exact ⟨rfl, by simp⟩
    · refine absurd ⟨header, fun sector h => ?_, known⟩ idle
      by_contra beyond
      exact short ⟨sector, h, by omega⟩
    · exact ⟨rfl, fun _ => known⟩

include large

/-- What was written holds the values of the input, and is accepted and left as it is. -/
theorem restoreTails_exact (writes : r.Writes) (harmless : r.Harmless) :
    r.FixupExact .ok (r.restoreTails r.sectorCount) := by
  obtain ⟨header, count, tails, values⟩ := restoreTails_frame large r.sectorCount
  obtain ⟨size, sectors⟩ := r.restoreTails_sizes r.sectorCount
  have written {sector i : Nat} (h : sector < r.sectorCount) (bound : i < 2) :
      (r.restoreTails r.sectorCount).record (r.sectorTail sector + i) =
        r.record (r.trueValue sector + i) :=
    (restoreTails_sectorTail large h bound).trans (restoreTails_trueValue harmless h.le h bound)
  refine ⟨fun rejected => absurd rfl rejected, fun offset away => ?_, fun _ _ sector h => ?_,
    fun plain => absurd writes.2.2 plain, fun _ => ?_⟩
  · exact restoreTails_outside away
  · exact readU16_eq_iff.mpr fun i bound => written h bound
  · rw [again_iff (sectors ▸ large) (header.trans writes.1)]
    · intro sector h
      rw [count] at h
      rw [tails, values]
      refine readU16_eq_iff.mpr fun i bound => ?_
      rw [written h bound, restoreTails_trueValue harmless le_rfl h bound]
    · intro sector h
      rw [tails, size]
      exact writes.2.1 sector (count ▸ h)

/-- An exact result leaves the values of the array as they were. -/
theorem harmless_of_exact (writes : r.Writes)
    (exact : r.FixupExact .ok (r.restoreTails r.sectorCount)) : r.Harmless := by
  obtain ⟨header, count, tails, values⟩ := restoreTails_frame large r.sectorCount
  obtain ⟨size, sectors⟩ := r.restoreTails_sizes r.sectorCount
  have again : (r.restoreTails r.sectorCount).AlreadyRestored := by
    refine (again_iff (sectors ▸ large) (header.trans writes.1) fun sector h => ?_).mp
      (exact.again rfl)
    rw [tails, size]
    exact writes.2.1 sector (count ▸ h)
  have restored {sector i : Nat} (h : sector < r.sectorCount) (bound : i < 2) :
      (r.restoreTails r.sectorCount).record (r.sectorTail sector + i) =
        r.record (r.trueValue sector + i) :=
    readU16_eq_iff.mp (exact.restored rfl writes.2.2 sector h) i bound
  intro sector h other other_h i i_bound j j_bound same
  have value := readU16_eq_iff.mp (again other (count.symm ▸ other_h)) j j_bound
  rw [tails, values, restored other_h j_bound, same, restored h i_bound] at value
  exact value

end Fixup

/-- **The fixup is exact exactly if it writes nothing or its writes change no value of the
array.** -/
theorem fixup_exact_iff (r : RecordBuffer) (large : 256 ≤ r.bytesPerSector) :
    r.FixupExact r.applyFixupAndValidate.1 r.applyFixupAndValidate.2 ↔ (r.Writes → r.Harmless) := by
  by_cases writes : r.Writes
  · rw [applyFixupAndValidate_writes writes]
    exact ⟨fun exact _ => harmless_of_exact large writes exact,
      fun harmless => restoreTails_exact large writes (harmless writes)⟩
  · obtain ⟨kept, plain⟩ := applyFixupAndValidate_keeps writes
    refine ⟨fun _ writes' => absurd writes' writes, fun _ => ?_⟩
    rw [kept]
    exact {
      rejected := fun _ => rfl
      outside := fun _ _ => rfl
      restored := fun ok known => absurd known (plain ok)
      kept := fun _ => rfl
      again := fun ok => Prod.ext ok kept }

/-- Two protected sectors of 256 bytes, with the array at `usa`. -/
def twoSectors (usa : UInt8) : RecordBuffer where
  recordSize := 512
  bytesPerSector := 256
  record
    | 0 => 0x46
    | 1 => 0x49
    | 2 => 0x4C
    | 3 => 0x45
    | 4 => usa
    | 6 => 3
    | 22 => 1
    | 254 | 510 => 1
    | offset =>
      if offset = usa.toNat then 1
      else if offset = usa.toNat + 2 then 2
      else if offset = usa.toNat + 4 then 3
      else 0

/-- The number of the array lies in the first tail, where it is written over, and the values lie
behind it. -/
theorem fixup_exact_iff_behind : (twoSectors 254).applyFixupAndValidate.1 = .ok ∧
    (twoSectors 254).FixupExact (twoSectors 254).applyFixupAndValidate.1
      (twoSectors 254).applyFixupAndValidate.2 :=
  ⟨by decide, (fixup_exact_iff _ (by decide)).mpr fun _ => by unfold Harmless; decide⟩

/-- The second sector's bytes are kept in the first one's tail, and are overwritten before they
are copied. -/
theorem overlapping_array_accepted :
    ¬(twoSectors 250).FixupExact (twoSectors 250).applyFixupAndValidate.1
      (twoSectors 250).applyFixupAndValidate.2 := by
  intro exact
  have restored := exact.restored (by decide) (by decide) 1 (by decide)
  exact absurd restored (by decide)

end RecordBuffer

end FastFiles.Service
