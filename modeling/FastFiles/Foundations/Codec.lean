import Mathlib

/-!
# Fixed-width binary codecs

A `Codec α` writes every value of `α` as the same number of bytes and reads it back.
Its laws are fields, so a layout cannot be built that loses a field or leaves a byte
unused.

* `Codec.uint64`, `Codec.uint32` and `Codec.uint16` are the little-endian machine words.
* `Codec.pair` places one layout after another without padding, and `Codec.map`
  carries a layout along a bijection; a packed record is a `map` of iterated `pair`s.
* `Codec.encodeAll` and `Codec.decodeMany` are runs of values of one layout.
-/

namespace FastFiles

universe u v

/-! ## Little-endian digits -/

/-- The `width` low bytes of a number, least significant first. -/
def leBytes : Nat → Nat → List UInt8
  | 0, _ => []
  | width + 1, n => UInt8.ofNat n :: leBytes width (n / 256)

/-- The number written by a list of bytes, least significant first. -/
def leNat : List UInt8 → Nat
  | [] => 0
  | byte :: bytes => byte.toNat + 256 * leNat bytes

@[simp] theorem length_leBytes (width n : Nat) : (leBytes width n).length = width := by
  induction width generalizing n with
  | zero => rfl
  | succ width ih => simp [leBytes, ih]

theorem leNat_leBytes (width n : Nat) : leNat (leBytes width n) = n % 256 ^ width := by
  induction width generalizing n with
  | zero => simp [leBytes, leNat, Nat.mod_one]
  | succ width ih =>
    have low : (UInt8.ofNat n).toNat = n % 256 := by simp
    rw [leBytes, leNat, ih, low, Nat.pow_succ, Nat.mul_comm (256 ^ width) 256, Nat.mod_mul]

theorem leNat_lt (bytes : List UInt8) : leNat bytes < 256 ^ bytes.length := by
  induction bytes with
  | nil => simp [leNat]
  | cons byte bytes ih =>
    have small : byte.toNat < 256 := byte.toNat_lt
    rw [leNat, List.length_cons, Nat.pow_succ]
    omega

theorem leBytes_leNat (bytes : List UInt8) : leBytes bytes.length (leNat bytes) = bytes := by
  induction bytes with
  | nil => rfl
  | cons byte bytes ih =>
    have small : byte.toNat < 256 := byte.toNat_lt
    have high : (byte.toNat + 256 * leNat bytes) / 256 = leNat bytes := by omega
    have low : UInt8.ofNat (byte.toNat + 256 * leNat bytes) = byte := by
      apply UInt8.toNat.inj
      rw [UInt8.toNat_ofNat']
      omega
    rw [leNat, List.length_cons, leBytes, high, low, ih]

/-! ## Codecs -/

/-- A layout of fixed width. -/
structure Codec (α : Type u) where
  width : Nat
  encode : α → List UInt8
  decode : List UInt8 → α
  length_encode : ∀ value, (encode value).length = width
  decode_encode : ∀ value, decode (encode value) = value
  encode_decode : ∀ bytes, bytes.length = width → encode (decode bytes) = bytes

namespace Codec

variable {α : Type u} {β : Type v}

attribute [simp] length_encode decode_encode

/-- The little-endian layout of a type of `width`-byte words. -/
def word (width : Nat) (toNat : α → Nat) (ofNat : Nat → α)
    (small : ∀ value, toNat value < 256 ^ width) (ofNat_toNat : ∀ value, ofNat (toNat value) = value)
    (toNat_ofNat : ∀ n, n < 256 ^ width → toNat (ofNat n) = n) : Codec α where
  width := width
  encode value := leBytes width (toNat value)
  decode bytes := ofNat (leNat bytes)
  length_encode _ := length_leBytes width _
  decode_encode value := by
    rw [leNat_leBytes, Nat.mod_eq_of_lt (small value), ofNat_toNat]
  encode_decode bytes total := by
    have bound : leNat bytes < 256 ^ width := by
      rw [← total]
      exact leNat_lt bytes
    rw [toNat_ofNat _ bound, ← total, leBytes_leNat]

/-- Read the first part of what was written. -/
theorem decode_take_append (codec : Codec α) (value : α) (rest : List UInt8) :
    codec.decode ((codec.encode value ++ rest).take codec.width) = value := by
  rw [List.take_left' (codec.length_encode value), decode_encode]

theorem drop_append (codec : Codec α) (value : α) (rest : List UInt8) :
    (codec.encode value ++ rest).drop codec.width = rest :=
  List.drop_left' (codec.length_encode value)

/-- Read a value at an offset. -/
def readAt (codec : Codec α) (offset : Nat) (bytes : List UInt8) : α :=
  codec.decode ((bytes.drop offset).take codec.width)

/-- A 64-bit word. -/
def uint64 : Codec UInt64 :=
  word 8 UInt64.toNat UInt64.ofNat UInt64.toNat_lt (fun _ => UInt64.ofNat_toNat)
    fun _ => UInt64.toNat_ofNat_of_lt'

/-- A 32-bit word. -/
def uint32 : Codec UInt32 :=
  word 4 UInt32.toNat UInt32.ofNat UInt32.toNat_lt (fun _ => UInt32.ofNat_toNat)
    fun _ => UInt32.toNat_ofNat_of_lt'

/-- A 16-bit word. -/
def uint16 : Codec UInt16 :=
  word 2 UInt16.toNat UInt16.ofNat UInt16.toNat_lt (fun _ => UInt16.ofNat_toNat)
    fun _ => UInt16.toNat_ofNat_of_lt'

/-- One layout directly after another. -/
def pair (first : Codec α) (second : Codec β) : Codec (α × β) where
  width := first.width + second.width
  encode value := first.encode value.1 ++ second.encode value.2
  decode bytes := (first.decode (bytes.take first.width), second.decode (bytes.drop first.width))
  length_encode value := by simp
  decode_encode value := by
    rw [decode_take_append, drop_append, decode_encode]
  encode_decode bytes total := by
    have left : (bytes.take first.width).length = first.width := by
      rw [List.length_take]; omega
    have right : (bytes.drop first.width).length = second.width := by
      rw [List.length_drop]; omega
    rw [first.encode_decode _ left, second.encode_decode _ right, List.take_append_drop]

/-- The same bytes, read as another type. -/
def map (codec : Codec α) (same : α ≃ β) : Codec β where
  width := codec.width
  encode value := codec.encode (same.symm value)
  decode bytes := same (codec.decode bytes)
  length_encode _ := codec.length_encode _
  decode_encode value := by rw [decode_encode, Equiv.apply_symm_apply]
  encode_decode bytes total := by rw [Equiv.symm_apply_apply, codec.encode_decode bytes total]

/-! ### Runs of values -/

/-- The values one after another. -/
def encodeAll (codec : Codec α) (values : List α) : List UInt8 :=
  values.flatMap codec.encode

/-- Read `count` values from the front. -/
def decodeMany (codec : Codec α) : Nat → List UInt8 → List α
  | 0, _ => []
  | count + 1, bytes =>
    codec.decode (bytes.take codec.width) :: decodeMany codec count (bytes.drop codec.width)

@[simp] theorem length_encodeAll (codec : Codec α) (values : List α) :
    (codec.encodeAll values).length = values.length * codec.width := by
  induction values with
  | nil => simp [encodeAll]
  | cons value values ih =>
    rw [encodeAll, List.flatMap_cons, List.length_append, length_encode, ← encodeAll, ih,
      List.length_cons]
    ring

@[simp] theorem length_decodeMany (codec : Codec α) (count : Nat) (bytes : List UInt8) :
    (codec.decodeMany count bytes).length = count := by
  induction count generalizing bytes with
  | zero => rfl
  | succ count ih => simp [decodeMany, ih]

theorem decodeMany_encodeAll (codec : Codec α) (values : List α) (rest : List UInt8) :
    codec.decodeMany values.length (codec.encodeAll values ++ rest) = values := by
  induction values with
  | nil => rfl
  | cons value values ih =>
    rw [List.length_cons, decodeMany, encodeAll, List.flatMap_cons, List.append_assoc,
      decode_take_append, drop_append, ← encodeAll, ih]

theorem encodeAll_decodeMany (codec : Codec α) (count : Nat) {bytes : List UInt8}
    (enough : count * codec.width ≤ bytes.length) :
    codec.encodeAll (codec.decodeMany count bytes) = bytes.take (count * codec.width) := by
  induction count generalizing bytes with
  | zero => simp [decodeMany, encodeAll]
  | succ count ih =>
    rw [Nat.succ_mul] at enough ⊢
    have first : (bytes.take codec.width).length = codec.width := by
      rw [List.length_take]
      omega
    have later : count * codec.width ≤ (bytes.drop codec.width).length := by
      rw [List.length_drop]
      omega
    rw [decodeMany, encodeAll, List.flatMap_cons, ← encodeAll, ih later,
      codec.encode_decode _ first, Nat.add_comm, List.take_add]

end Codec

end FastFiles
