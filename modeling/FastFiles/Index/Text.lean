import FastFiles.Index.Entry

/-!
# Names on disk

`Utf16ToUtf8` and `Utf8ToUtf16` of `Store.cpp`.  The store keeps names as UTF-8; unpaired
surrogates are encoded like any other unit, so every name comes back as it was.

The shifts and masks are written as quotients and remainders; the bits they join are
disjoint.  Names and bytes that are all ASCII take a shortcut past the loops; it gives what the
loops give (`utf16ToUtf8_eq`, `utf8ToUtf16_eq`), so the round trip is shown for the loops.
-/

namespace FastFiles.Index

/-! ## Encoding -/

/-- A byte that continues a sequence, with six bits of the code point. -/
def continuation (bits : Nat) : UInt8 := .ofNat (0x80 + bits)

/-- The bytes of one code point. -/
def utf8Bytes (codepoint : Nat) : List UInt8 :=
  if codepoint ≤ 0x7F then [.ofNat codepoint]
  else if codepoint ≤ 0x7FF then
    [.ofNat (0xC0 + codepoint / 64), continuation (codepoint % 64)]
  else if codepoint ≤ 0xFFFF then
    [.ofNat (0xE0 + codepoint / 4096), continuation (codepoint / 64 % 64),
      continuation (codepoint % 64)]
  else
    [.ofNat (0xF0 + codepoint / 262144), continuation (codepoint / 4096 % 64),
      continuation (codepoint / 64 % 64), continuation (codepoint % 64)]

/-- The code point of a surrogate pair. -/
def pairCodepoint (high low : UInt16) : Nat :=
  0x10000 + (high.toNat - 0xD800) * 1024 + (low.toNat - 0xDC00)

/-- The loop of `Utf16ToUtf8`. -/
def encodeUnits : Text → List UInt8
  | [] => []
  | [unit] => utf8Bytes unit.toNat
  | high :: low :: rest =>
    if isHighSurrogate high && isLowSurrogate low then
      utf8Bytes (pairCodepoint high low) ++ encodeUnits rest
    else utf8Bytes high.toNat ++ encodeUnits (low :: rest)

def utf16ToUtf8 (name : Text) : List UInt8 :=
  if name.all (·.toNat ≤ 0x7F) then name.map (·.toUInt8) else encodeUnits name

/-! ## Decoding -/

/-- The payload of a leading byte and how many bytes follow it. -/
def leadingByte (byte : UInt8) : Option (Nat × Nat) :=
  if byte.toNat < 0x80 then some (byte.toNat, 0)
  else if byte.toNat / 32 = 6 then some (byte.toNat % 32, 1)
  else if byte.toNat / 16 = 14 then some (byte.toNat % 16, 2)
  else if byte.toNat / 8 = 30 then some (byte.toNat % 8, 3)
  else none

def isContinuation (byte : UInt8) : Bool := byte.toNat / 64 == 2

def utf16Units (codepoint : Nat) : Text :=
  if codepoint ≤ 0xFFFF then [.ofNat codepoint]
  else [.ofNat (0xD800 + (codepoint - 0x10000) / 1024), .ofNat (0xDC00 + (codepoint - 0x10000) % 1024)]

/-- The loop of `Utf8ToUtf16`.  A byte that leads nothing is skipped, a sequence with a bad
continuation is dropped, and a truncated one ends the text. -/
def decodeBytes : List UInt8 → Text
  | [] => []
  | byte :: rest =>
    match leadingByte byte with
    | none => decodeBytes rest
    | some (bits, extra) =>
      if rest.length < extra then []
      else if (rest.take extra).all isContinuation then
        utf16Units ((rest.take extra).foldl (fun codepoint b => codepoint * 64 + b.toNat % 64) bits) ++
          decodeBytes (rest.drop extra)
      else decodeBytes (rest.drop extra)
termination_by bytes => bytes.length
decreasing_by all_goals simp only [List.length_drop, List.length_cons]; omega

def utf8ToUtf16 (bytes : List UInt8) : Text :=
  if bytes.all (·.toNat < 0x80) then bytes.map (·.toUInt16) else decodeBytes bytes

/-! ## The shortcuts -/

/-- The loop makes one byte of each ASCII unit. -/
theorem encodeUnits_ascii {name : Text} (ascii : ∀ unit ∈ name, unit.toNat ≤ 0x7F) :
    encodeUnits name = name.map (·.toUInt8) := by
  have byte (unit : UInt16) (small : unit.toNat ≤ 0x7F) :
      utf8Bytes unit.toNat = [unit.toUInt8] := by
    rw [utf8Bytes, if_pos small]
    rfl
  fun_induction encodeUnits name with
  | case1 => rfl
  | case2 unit => exact byte unit (ascii unit (.head _))
  | case3 high low rest pair _ =>
    have small := ascii high (.head _)
    rw [Bool.and_eq_true, isHighSurrogate, decide_eq_true_eq] at pair
    omega
  | case4 high low rest _ ih =>
    rw [byte high (ascii high (.head _)), ih fun unit member => ascii unit (.tail _ member)]
    rfl

/-- The loop makes one unit of each ASCII byte. -/
theorem decodeBytes_ascii {bytes : List UInt8} (ascii : ∀ byte ∈ bytes, byte.toNat < 0x80) :
    decodeBytes bytes = bytes.map (·.toUInt16) := by
  induction bytes with
  | nil => simp [decodeBytes]
  | cons byte bytes ih =>
    have small := ascii byte (.head _)
    have leads : leadingByte byte = some (byte.toNat, 0) := if_pos small
    have unit : utf16Units byte.toNat = [byte.toUInt16] := by
      rw [utf16Units, if_pos (by omega), UInt16.ofNat_uInt8ToNat]
    rw [decodeBytes, leads]
    simp [unit, ih fun other member => ascii other (.tail _ member)]

theorem utf16ToUtf8_eq (name : Text) : utf16ToUtf8 name = encodeUnits name := by
  unfold utf16ToUtf8
  split_ifs with ascii
  · exact (encodeUnits_ascii (by simpa using ascii)).symm
  · rfl

theorem utf8ToUtf16_eq (bytes : List UInt8) : utf8ToUtf16 bytes = decodeBytes bytes := by
  unfold utf8ToUtf16
  split_ifs with ascii
  · exact (decodeBytes_ascii (by simpa using ascii)).symm
  · rfl

/-! ## Round trip -/

theorem toNat_ofNat_byte {n : Nat} (small : n < 256) : (UInt8.ofNat n).toNat = n := by
  simpa using Nat.mod_eq_of_lt small

theorem leadingByte_ofNat {n bits extra : Nat} (small : n < 256)
    (leads : (n < 0x80 ∧ bits = n ∧ extra = 0) ∨
      (n / 32 = 6 ∧ bits = n % 32 ∧ extra = 1) ∨
      (n / 16 = 14 ∧ bits = n % 16 ∧ extra = 2) ∨ (n / 8 = 30 ∧ bits = n % 8 ∧ extra = 3)) :
    leadingByte (.ofNat n) = some (bits, extra) := by
  unfold leadingByte
  rw [toNat_ofNat_byte small]
  rcases leads with ⟨range, rfl, rfl⟩ | ⟨range, rfl, rfl⟩ | ⟨range, rfl, rfl⟩ | ⟨range, rfl, rfl⟩
  · rw [if_pos range]
  · rw [if_neg (by omega), if_pos range]
  · rw [if_neg (by omega), if_neg (by omega), if_pos range]
  · rw [if_neg (by omega), if_neg (by omega), if_neg (by omega), if_pos range]

theorem isContinuation_continuation {bits : Nat} (small : bits < 64) :
    isContinuation (continuation bits) = true := by
  rw [isContinuation, continuation, toNat_ofNat_byte (by omega), beq_iff_eq]
  omega

theorem foldl_continuation {digits : List Nat} (small : ∀ digit ∈ digits, digit < 64) (bits : Nat) :
    (digits.map continuation).foldl (fun codepoint b => codepoint * 64 + b.toNat % 64) bits =
      digits.foldl (fun codepoint digit => codepoint * 64 + digit) bits := by
  induction digits generalizing bits with
  | nil => rfl
  | cons digit digits ih =>
    have first : digit < 64 := small digit (.head _)
    have payload : (continuation digit).toNat % 64 = digit := by
      rw [continuation, toNat_ofNat_byte (by omega)]
      omega
    rw [List.map_cons, List.foldl_cons, payload,
      ih fun other mem => small other (List.mem_cons_of_mem _ mem), List.foldl_cons]

/-- One complete sequence is decoded, whatever follows it. -/
theorem decodeBytes_sequence {byte : UInt8} (bits : Nat) (digits : List Nat)
    (leads : leadingByte byte = some (bits, digits.length))
    (small : ∀ digit ∈ digits, digit < 64) (rest : List UInt8) :
    decodeBytes (byte :: digits.map continuation ++ rest) =
      utf16Units (digits.foldl (fun codepoint digit => codepoint * 64 + digit) bits) ++
        decodeBytes rest := by
  have length : (digits.map continuation).length = digits.length := List.length_map _
  have tail : (digits.map continuation ++ rest).take digits.length = digits.map continuation :=
    List.take_left' length
  have left : (digits.map continuation ++ rest).drop digits.length = rest := List.drop_left' length
  have all : (digits.map continuation).all isContinuation = true := by
    rw [List.all_map, List.all_eq_true]
    exact fun digit mem => isContinuation_continuation (small digit mem)
  rw [List.cons_append, decodeBytes, leads]
  simp only [tail, left, all, if_true]
  rw [if_neg (by simp), foldl_continuation small]

/-- One encoded code point is decoded. -/
theorem decodeBytes_utf8Bytes {codepoint : Nat} (valid : codepoint < 0x110000) (rest : List UInt8) :
    decodeBytes (utf8Bytes codepoint ++ rest) = utf16Units codepoint ++ decodeBytes rest := by
  unfold utf8Bytes
  split_ifs with one two three
  · have leads := leadingByte_ofNat (n := codepoint) (by omega) (.inl ⟨by omega, rfl, rfl⟩)
    exact decodeBytes_sequence codepoint [] leads (by simp) rest
  · have leads := leadingByte_ofNat (n := 192 + codepoint / 64) (by omega)
      (.inr (.inl ⟨by omega, rfl, rfl⟩))
    have sum : (192 + codepoint / 64) % 32 * 64 + codepoint % 64 = codepoint := by omega
    refine (decodeBytes_sequence _ [codepoint % 64] leads ?_ rest).trans ?_
    · simp only [List.mem_singleton, forall_eq]
      omega
    · rw [List.foldl_cons, List.foldl_nil, sum]
  · have leads := leadingByte_ofNat (n := 224 + codepoint / 4096) (by omega)
      (.inr (.inr (.inl ⟨by omega, rfl, rfl⟩)))
    have sum : ((224 + codepoint / 4096) % 16 * 64 + codepoint / 64 % 64) * 64 + codepoint % 64 =
        codepoint := by omega
    refine (decodeBytes_sequence _ [codepoint / 64 % 64, codepoint % 64] leads ?_ rest).trans ?_
    · simp only [List.mem_cons, List.not_mem_nil, or_false, forall_eq_or_imp, forall_eq]
      omega
    · rw [List.foldl_cons, List.foldl_cons, List.foldl_nil, sum]
  · have leads := leadingByte_ofNat (n := 240 + codepoint / 262144) (by omega)
      (.inr (.inr (.inr ⟨by omega, rfl, rfl⟩)))
    have sum : (((240 + codepoint / 262144) % 8 * 64 + codepoint / 4096 % 64) * 64 +
        codepoint / 64 % 64) * 64 + codepoint % 64 = codepoint := by omega
    refine (decodeBytes_sequence _ [codepoint / 4096 % 64, codepoint / 64 % 64, codepoint % 64]
      leads ?_ rest).trans ?_
    · simp only [List.mem_cons, List.not_mem_nil, or_false, forall_eq_or_imp, forall_eq]
      omega
    · rw [List.foldl_cons, List.foldl_cons, List.foldl_cons, List.foldl_nil, sum]

theorem utf16Units_toNat (unit : UInt16) : utf16Units unit.toNat = [unit] := by
  have bound := unit.toNat_lt
  rw [utf16Units, if_pos (by omega)]
  simp

theorem utf16Units_pairCodepoint {high low : UInt16} (isHigh : isHighSurrogate high = true)
    (isLow : isLowSurrogate low = true) : utf16Units (pairCodepoint high low) = [high, low] := by
  rw [isHighSurrogate, decide_eq_true_eq] at isHigh
  rw [isLowSurrogate, decide_eq_true_eq] at isLow
  have highBits : 0xD800 + (pairCodepoint high low - 0x10000) / 1024 = high.toNat := by
    unfold pairCodepoint
    omega
  have lowBits : 0xDC00 + (pairCodepoint high low - 0x10000) % 1024 = low.toNat := by
    unfold pairCodepoint
    omega
  rw [utf16Units, if_neg (by unfold pairCodepoint; omega), highBits, lowBits]
  simp

/-- What the one loop writes the other reads back. -/
theorem decodeBytes_encodeUnits (name : Text) : decodeBytes (encodeUnits name) = name := by
  have units : ∀ unit : UInt16, unit.toNat < 0x110000 := fun unit =>
    Nat.lt_trans unit.toNat_lt (by decide)
  fun_induction encodeUnits name with
  | case1 => simp [decodeBytes]
  | case2 unit =>
    have single := decodeBytes_utf8Bytes (units unit) []
    rwa [List.append_nil, utf16Units_toNat, decodeBytes, List.append_nil] at single
  | case3 high low rest pair ih =>
    rw [Bool.and_eq_true] at pair
    have valid : pairCodepoint high low < 0x110000 := by
      have isHigh := pair.1
      have isLow := pair.2
      rw [isHighSurrogate, decide_eq_true_eq] at isHigh
      rw [isLowSurrogate, decide_eq_true_eq] at isLow
      unfold pairCodepoint
      omega
    rw [decodeBytes_utf8Bytes valid, utf16Units_pairCodepoint pair.1 pair.2, ih]
    rfl
  | case4 high low rest _ ih =>
    rw [decodeBytes_utf8Bytes (units high), utf16Units_toNat, ih]
    rfl

/-- **A stored name is read back.** -/
theorem utf8ToUtf16_utf16ToUtf8 (name : Text) : utf8ToUtf16 (utf16ToUtf8 name) = name := by
  rw [utf16ToUtf8_eq, utf8ToUtf16_eq, decodeBytes_encodeUnits]

/-- **Names survive the encoding**, and no two names have the same bytes. -/
theorem stored_names_exact (name : Text) :
    utf8ToUtf16 (utf16ToUtf8 name) = name ∧
      ∀ other, utf16ToUtf8 name = utf16ToUtf8 other → name = other := by
  refine ⟨utf8ToUtf16_utf16ToUtf8 name, fun other same => ?_⟩
  rw [← utf8ToUtf16_utf16ToUtf8 name, same, utf8ToUtf16_utf16ToUtf8]

end FastFiles.Index
