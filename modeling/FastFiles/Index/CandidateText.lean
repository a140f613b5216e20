import FastFiles.Foundations.Wildcard
import FastFiles.Index.FilenameIndex
import FastFiles.Index.Text

/-!
# Names as the database compares them

The two filters of `ForEachEntryWithAsciiNameUntil`: the phrase query on the trigrams of the folded
name, and `LIKE` with `GLOB` on the name itself.  SQLite reads a text as code points (`codepoints`) and,
in `LIKE` and `GLOB`, only up to the first zero byte (`cString`).

An ASCII run of a name is the same run of bytes and of code points, so a match that goes through ASCII
units only is found by either filter (`phraseMatches_of_contains`, `streamAdmits_of_contains`).
-/

namespace FastFiles.Index

open Search (isAscii foldAsciiChar foldAscii16)
open FilenameIndex (CaseFold Contains fold_window_eq isAscii_foldAscii16)

/-! ## Code points -/

/-- The payload of a byte from `0xC0` on. -/
def leadPayload (byte : UInt8) : Nat :=
  if byte.toNat < 0xE0 then byte.toNat % 32
  else if byte.toNat < 0xF0 then byte.toNat % 16
  else if byte.toNat < 0xF8 then byte.toNat % 8
  else if byte.toNat < 0xFC then byte.toNat % 4
  else if byte.toNat < 0xFE then byte.toNat % 2
  else 0

variable (codepoint : Nat) (text : List UInt8)

/-- Overlong ASCII, surrogates and non-characters are replaced. -/
def checkedCodepoint : Nat :=
  if codepoint < 0x80 ∨ codepoint / 0x800 = 0x1B ∨ codepoint / 2 = 0x7FFF then 0xFFFD else codepoint

/-- `READ_UTF8` over a text: `pending` is the sequence that is being read. -/
def readUtf8 : Option Nat → List UInt8 → List Nat
  | none, [] => []
  | some codepoint, [] => [checkedCodepoint codepoint]
  | none, byte :: rest =>
    if 0xC0 ≤ byte.toNat then readUtf8 (some (leadPayload byte)) rest
    else byte.toNat :: readUtf8 none rest
  | some codepoint, byte :: rest =>
    if isContinuation byte then
      readUtf8 (some ((codepoint * 64 + byte.toNat % 64) % 2 ^ 32)) rest
    else if 0xC0 ≤ byte.toNat then
      checkedCodepoint codepoint :: readUtf8 (some (leadPayload byte)) rest
    else checkedCodepoint codepoint :: byte.toNat :: readUtf8 none rest

def codepoints (bytes : List UInt8) : List Nat := readUtf8 none bytes

theorem le_checkedCodepoint : 0x80 ≤ checkedCodepoint codepoint := by
  unfold checkedCodepoint
  split_ifs with replaced
  · decide
  · omega

variable {byte : UInt8}

/-- An ASCII byte ends the sequence before it and is a code point. -/
theorem readUtf8_ascii (pending : Option Nat) (ascii : byte.toNat < 0x80) (rest : List UInt8) :
    readUtf8 pending (byte :: rest) = readUtf8 pending [] ++ byte.toNat :: codepoints rest := by
  have single : ¬ 0xC0 ≤ byte.toNat := by omega
  have starts : isContinuation byte = false := by
    rw [isContinuation, beq_eq_false_iff_ne]
    omega
  cases pending with
  | none => simp [readUtf8, codepoints, single]
  | some codepoint => simp [readUtf8, codepoints, single, starts]

/-- What stands before an ASCII byte is read on its own. -/
theorem codepoints_append_ascii (front : List UInt8) (ascii : byte.toNat < 0x80)
    (rest : List UInt8) :
    codepoints (front ++ byte :: rest) = codepoints front ++ byte.toNat :: codepoints rest := by
  have split (pending : Option Nat) :
      readUtf8 pending (front ++ byte :: rest) =
        readUtf8 pending front ++ byte.toNat :: codepoints rest := by
    induction front generalizing pending with
    | nil => exact readUtf8_ascii pending ascii rest
    | cons first front ih =>
      cases pending with
      | none | some _ =>
        rw [List.cons_append, readUtf8, readUtf8]
        split_ifs <;> simp [ih]
  exact split none

theorem codepoints_ascii {run : List UInt8} (ascii : ∀ byte ∈ run, byte.toNat < 0x80)
    (rest : List UInt8) : codepoints (run ++ rest) = run.map (·.toNat) ++ codepoints rest := by
  induction run with
  | nil => rfl
  | cons byte run ih =>
    rw [List.forall_mem_cons] at ascii
    show readUtf8 none (byte :: (run ++ rest)) = _
    rw [readUtf8_ascii none ascii.1, ih ascii.2]
    rfl

variable {bytes : List UInt8}

/-- **An ASCII run of the bytes is a run of the code points.** -/
theorem infix_codepoints {run : List UInt8} (ascii : ∀ byte ∈ run, byte.toNat < 0x80)
    (part : run <:+: bytes) : run.map (·.toNat) <:+: codepoints bytes := by
  obtain ⟨front, rest, rfl⟩ := part
  cases run with
  | nil => exact List.nil_infix
  | cons byte run =>
    rw [List.forall_mem_cons] at ascii
    rw [List.append_assoc, List.cons_append, codepoints_append_ascii front ascii.1,
      codepoints_ascii ascii.2]
    exact ⟨codepoints front, codepoints rest, by simp⟩

/-- A sequence that is being read becomes a code point outside ASCII. -/
theorem exists_wide_of_pending (bytes : List UInt8) :
    ∃ wide ∈ readUtf8 (some codepoint) bytes, 0x80 ≤ wide := by
  induction bytes generalizing codepoint with
  | nil => exact ⟨_, List.mem_singleton_self _, le_checkedCodepoint _⟩
  | cons byte rest ih =>
    rw [readUtf8]
    split_ifs
    · exact ih _
    iterate 2 exact ⟨_, .head _, le_checkedCodepoint _⟩

/-- Code points that are all ASCII are the bytes. -/
theorem codepoints_eq_of_ascii (ascii : ∀ codepoint ∈ codepoints bytes, codepoint < 0x80) :
    codepoints bytes = bytes.map (·.toNat) := by
  induction bytes with
  | nil => rfl
  | cons byte rest ih =>
    by_cases leads : 0xC0 ≤ byte.toNat
    · obtain ⟨wide, mem, large⟩ := exists_wide_of_pending (leadPayload byte) rest
      have here : wide ∈ codepoints (byte :: rest) := by
        rw [codepoints, readUtf8, if_pos leads]
        exact mem
      exact absurd (ascii wide here) (by omega)
    · have step : codepoints (byte :: rest) = byte.toNat :: codepoints rest := by
        rw [codepoints, readUtf8, if_neg leads]
        rfl
      rw [step, List.forall_mem_cons] at ascii
      rw [step, ih ascii.2, List.map_cons]

/-! ## ASCII runs of a name -/

def byteOf (unit : UInt16) : UInt8 := .ofNat unit.toNat

variable {unit : UInt16}

theorem toNat_byteOf (ascii : unit.toNat ≤ 0x7f) : (byteOf unit).toNat = unit.toNat :=
  toNat_ofNat_byte (by omega)

theorem not_surrogate_of_ascii (ascii : unit.toNat ≤ 0x7f) :
    isHighSurrogate unit = false ∧ isLowSurrogate unit = false := by
  rw [isHighSurrogate, isLowSurrogate, decide_eq_false_iff_not, decide_eq_false_iff_not]
  omega

theorem encodeUnits_ascii_cons (ascii : unit.toNat ≤ 0x7f) (rest : Text) :
    encodeUnits (unit :: rest) = byteOf unit :: encodeUnits rest := by
  have byte : utf8Bytes unit.toNat = [byteOf unit] := by rw [utf8Bytes, if_pos ascii, byteOf]
  cases rest with
  | nil => simp [encodeUnits, byte]
  | cons next rest => simp [encodeUnits, byte, not_surrogate_of_ascii ascii]

variable {run : Text}

theorem encodeUnits_append_of_ascii (ascii : isAscii run = true) (rest : Text) :
    encodeUnits (run ++ rest) = run.map byteOf ++ encodeUnits rest := by
  induction run with
  | nil => rfl
  | cons unit run ih =>
    rw [isAscii, List.all_cons, Bool.and_eq_true, decide_eq_true_eq] at ascii
    rw [List.cons_append, encodeUnits_ascii_cons ascii.1, ih ascii.2]
    rfl

/-- An ASCII unit completes no pair. -/
theorem encodeUnits_append_ascii (front : Text) (ascii : unit.toNat ≤ 0x7f) (rest : Text) :
    encodeUnits (front ++ unit :: rest) = encodeUnits front ++ encodeUnits (unit :: rest) := by
  fun_induction encodeUnits front with
  | case1 => rfl
  | case2 single =>
    show encodeUnits (single :: unit :: rest) = _
    rw [encodeUnits, (not_surrogate_of_ascii ascii).2, Bool.and_false, if_neg Bool.false_ne_true]
  | case3 high low front pair ih =>
    show encodeUnits (high :: low :: (front ++ unit :: rest)) = _
    rw [encodeUnits, if_pos pair, ih, List.append_assoc]
  | case4 high low front pair ih =>
    show encodeUnits (high :: low :: (front ++ unit :: rest)) = _
    rw [encodeUnits, if_neg pair, List.append_assoc, ← ih]
    rfl

variable {name : Text} {needle : List UInt8}

/-- **An ASCII run of a name is a run of its bytes.** -/
theorem infix_utf16ToUtf8 {run : Text} (ascii : isAscii run = true) (part : run <:+: name) :
    run.map byteOf <:+: utf16ToUtf8 name := by
  obtain ⟨front, rest, rfl⟩ := part
  rw [utf16ToUtf8_eq]
  cases run with
  | nil => exact List.nil_infix
  | cons unit run =>
    have first : unit.toNat ≤ 0x7f := by
      rw [isAscii, List.all_cons, Bool.and_eq_true, decide_eq_true_eq] at ascii
      exact ascii.1
    rw [List.append_assoc, List.cons_append, encodeUnits_append_ascii front first,
      ← List.cons_append, encodeUnits_append_of_ascii ascii]
    exact ⟨encodeUnits front, encodeUnits rest, by simp⟩

/-- A name whose bytes are ASCII is ASCII. -/
theorem isAscii_of_bytes (ascii : ∀ byte ∈ utf16ToUtf8 name, byte.toNat < 0x80) :
    isAscii name = true := by
  have leads {codepoint : Nat} (wide : 0x7F < codepoint) (valid : codepoint < 0x110000) :
      ∃ byte ∈ utf8Bytes codepoint, 0x80 ≤ byte.toNat := by
    unfold utf8Bytes
    rw [if_neg (by omega)]
    split_ifs
    all_goals
      refine ⟨_, .head _, ?_⟩
      rw [toNat_ofNat_byte (by omega)]
      omega
  have small {unit : UInt16} (part : ∀ byte ∈ utf8Bytes unit.toNat, byte.toNat < 0x80) :
      unit.toNat ≤ 0x7f := by
    by_contra wide
    have bound := unit.toNat_lt
    obtain ⟨byte, mem, large⟩ := leads (Nat.lt_of_not_le wide) (by omega)
    exact absurd (part byte mem) (by omega)
  rw [utf16ToUtf8_eq] at ascii
  fun_induction encodeUnits name with
  | case1 => rfl
  | case2 unit => simpa [isAscii] using small ascii
  | case3 high low rest pair ih =>
    -- A pair has a leading byte outside ASCII.
    rw [Bool.and_eq_true, isHighSurrogate, isLowSurrogate, decide_eq_true_eq,
      decide_eq_true_eq] at pair
    obtain ⟨byte, mem, large⟩ := leads
      (show 0x7F < pairCodepoint high low by unfold pairCodepoint; omega)
      (by unfold pairCodepoint; omega)
    exact absurd (ascii byte (List.mem_append_left _ mem)) (by omega)
  | case4 high low rest _ ih =>
    have first := small fun byte mem => ascii byte (List.mem_append_left _ mem)
    have others := ih fun byte mem => ascii byte (List.mem_append_right _ mem)
    rw [isAscii, List.all_cons, Bool.and_eq_true, decide_eq_true_eq]
    exact ⟨first, others⟩

theorem zero_notMem_utf8Bytes {codepoint : Nat} (valid : codepoint < 0x110000)
    (positive : 0 < codepoint) : (0 : UInt8) ∉ utf8Bytes codepoint := by
  have nonzero {n : Nat} (large : 0 < n) (small : n < 256) : (0 : UInt8) ≠ .ofNat n := by
    intro same
    have value := congrArg UInt8.toNat same
    rw [toNat_ofNat_byte small] at value
    exact absurd value (Nat.ne_of_lt large)
  have follows {bits : Nat} (small : bits < 64) : (0 : UInt8) ≠ continuation bits :=
    nonzero (by omega) (by omega)
  unfold utf8Bytes
  split_ifs <;> simp only [List.mem_cons, List.not_mem_nil, or_false, not_or]
  · exact nonzero positive (by omega)
  · exact ⟨nonzero (by omega) (by omega), follows (by omega)⟩
  · exact ⟨nonzero (by omega) (by omega), follows (by omega), follows (by omega)⟩
  · exact ⟨nonzero (by omega) (by omega), follows (by omega), follows (by omega), follows (by omega)⟩

theorem zero_notMem_utf16ToUtf8 (clean : (0 : UInt16) ∉ name) : (0 : UInt8) ∉ utf16ToUtf8 name := by
  have unit_bytes {unit : UInt16} (nonzero : (0 : UInt16) ≠ unit) :
      (0 : UInt8) ∉ utf8Bytes unit.toNat := by
    have bound := unit.toNat_lt
    refine zero_notMem_utf8Bytes (by omega) (Nat.pos_of_ne_zero fun zero => nonzero ?_)
    exact UInt16.toNat_inj.mp zero.symm
  rw [utf16ToUtf8_eq]
  fun_induction encodeUnits name with
  | case1 => exact List.not_mem_nil
  | case2 unit => exact unit_bytes (List.ne_of_not_mem_cons clean)
  | case3 high low rest pair ih =>
    rw [List.mem_cons, List.mem_cons, not_or, not_or] at clean
    rw [Bool.and_eq_true, isHighSurrogate, isLowSurrogate, decide_eq_true_eq,
      decide_eq_true_eq] at pair
    rw [List.mem_append, not_or]
    refine ⟨zero_notMem_utf8Bytes ?_ ?_, ih clean.2.2⟩ <;> unfold pairCodepoint <;> omega
  | case4 high low rest _ ih =>
    rw [List.mem_cons, not_or] at clean
    rw [List.mem_append, not_or]
    exact ⟨unit_bytes clean.1, ih clean.2⟩

/-! ## The folded terms -/

def foldAsciiByte (byte : UInt8) : UInt8 :=
  if 0x41 ≤ byte.toNat ∧ byte.toNat ≤ 0x5A then .ofNat (byte.toNat + 0x20) else byte

/-- `FoldAsciiUtf8`. -/
def foldAsciiUtf8 (utf8 : List UInt8) : List UInt8 := utf8.map foldAsciiByte

/-- The tokens of a text: its windows of three code points. -/
def trigramTokens : List Nat → List (Nat × Nat × Nat)
  | first :: second :: third :: rest => (first, second, third) :: trigramTokens (second :: third :: rest)
  | _ => []

/-- The tokenizer passes over zeros. -/
def termTokens : List (Nat × Nat × Nat) :=
  trigramTokens ((codepoints text).filter (· ≠ 0))

/-- `MATCH` with a quoted phrase: its tokens stand in the text one after the other. -/
def phraseMatches (phrase text : List UInt8) : Bool :=
  decide (termTokens phrase ≠ []) && decide (termTokens phrase <:+: termTokens text)

theorem infix_trigramTokens {part text : List Nat} (inside : part <:+: text) :
    trigramTokens part <:+: trigramTokens text := by
  obtain ⟨front, rest, rfl⟩ := inside
  have starts : trigramTokens part <+: trigramTokens (part ++ rest) := by
    fun_induction trigramTokens part with
    | case1 first second third part ih =>
      exact (List.prefix_cons_inj _).mpr ih
    | case2 => exact List.nil_prefix
  rw [List.append_assoc]
  induction front with
  | nil => exact starts.isInfix
  | cons first front ih =>
    refine ih.trans (List.IsSuffix.isInfix ?_)
    rw [List.cons_append]
    match front ++ (part ++ rest) with
    | [] => exact List.nil_suffix
    | [_] => exact List.nil_suffix
    | _ :: _ :: _ => exact List.suffix_cons _ _

/-! ## `LIKE` and `GLOB` -/

/-- A text up to its terminator. -/
def cString (bytes : List UInt8) : List UInt8 := bytes.takeWhile (· ≠ 0)

theorem cString_of_notMem (clean : (0 : UInt8) ∉ bytes) : cString bytes = bytes := by
  rw [cString, List.takeWhile_eq_self_iff]
  intro byte mem
  exact decide_eq_true fun zero => clean (zero ▸ mem)

/-- The metacharacters of `LIKE` are escaped. -/
def escapeLike (byte : UInt8) : List UInt8 :=
  if byte = 0x5C ∨ byte = 0x25 ∨ byte = 0x5F then [0x5C, byte] else [byte]

def likePatternForLiteralNeedle (needle : List UInt8) : List UInt8 :=
  0x25 :: needle.flatMap escapeLike ++ [0x25]

/-- A pattern with `\` as the escape; an escape at the end matches nothing. -/
def likeItems : List Nat → List (Wildcard.Item Nat)
  | [] => []
  | [0x5C] => [.literal 0]
  | 0x5C :: next :: rest => .literal next :: likeItems rest
  | 0x25 :: rest => .star :: likeItems rest
  | 0x5F :: rest => .one :: likeItems rest
  | codepoint :: rest => .literal codepoint :: likeItems rest

def lowerCodepoint : Nat :=
  if 0x41 ≤ codepoint ∧ codepoint ≤ 0x5A then codepoint + 0x20 else codepoint

/-- `LIKE` folds the case of ASCII. -/
def likeSame (symbol letter : Nat) : Bool :=
  decide (symbol = letter) ||
    decide (symbol < 0x80 ∧ letter < 0x80 ∧ lowerCodepoint symbol = lowerCodepoint letter)

def like (pattern text : List UInt8) : Bool :=
  Wildcard.scan likeSame (codepoints (cString text)) (likeItems (codepoints (cString pattern))) none

/-- `GLOB '*[^ -~]*'`. -/
def globUnprintable : Bool :=
  (codepoints (cString text)).any fun codepoint => decide (codepoint < 0x20 ∨ 0x7E < codepoint)

/-- The condition of the canonical stream. -/
def streamAdmits (needle name : List UInt8) : Bool :=
  like (likePatternForLiteralNeedle needle) name || globUnprintable name

theorem likeItems_escapeLike (rest : List Nat) :
    likeItems ((escapeLike byte).map (·.toNat) ++ rest) = .literal byte.toNat :: likeItems rest := by
  unfold escapeLike
  split_ifs with meta_
  · rcases meta_ with rfl | rfl | rfl <;> rfl
  · rw [not_or, not_or] at meta_
    have other (code : UInt8) (differs : byte ≠ code) : byte.toNat ≠ code.toNat :=
      fun same => differs (UInt8.toNat_inj.mp same)
    have escape := other 0x5C meta_.1
    have any := other 0x25 meta_.2.1
    have one := other 0x5F meta_.2.2
    show likeItems (byte.toNat :: rest) = _
    generalize byte.toNat = code at escape any one
    rw [likeItems]
    all_goals simp_all

theorem mem_likePattern (mem : byte ∈ likePatternForLiteralNeedle needle) :
    byte = 0x25 ∨ byte = 0x5C ∨ byte ∈ needle := by
  simp only [likePatternForLiteralNeedle, List.cons_append, List.mem_cons, List.mem_append,
    List.mem_flatMap, List.not_mem_nil, or_false] at mem
  rcases mem with rfl | ⟨other, here, written⟩ | rfl
  · exact .inl rfl
  · unfold escapeLike at written
    split_ifs at written
    · rcases List.mem_cons.mp written with rfl | same
      · exact .inr (.inl rfl)
      · exact .inr (.inr (List.mem_singleton.mp same ▸ here))
    · exact .inr (.inr (List.mem_singleton.mp written ▸ here))
  · exact .inl rfl

/-- The pattern of a needle is the needle between two stars. -/
theorem likeItems_pattern (ascii : ∀ byte ∈ needle, byte.toNat < 0x80)
    (clean : (0 : UInt8) ∉ needle) :
    likeItems (codepoints (cString (likePatternForLiteralNeedle needle))) =
      .star :: ((needle.map fun byte => .literal byte.toNat) ++ [.star]) := by
  have whole : cString (likePatternForLiteralNeedle needle) = likePatternForLiteralNeedle needle := by
    refine cString_of_notMem fun zero => ?_
    rcases mem_likePattern zero with same | same | here
    iterate 2 exact absurd same (by decide)
    · exact clean here
  have plain : ∀ byte ∈ likePatternForLiteralNeedle needle, byte.toNat < 0x80 := by
    intro byte mem
    rcases mem_likePattern mem with rfl | rfl | here
    · decide
    · decide
    · exact ascii byte here
  have read := codepoints_ascii plain []
  rw [List.append_nil, show codepoints [] = [] from rfl, List.append_nil] at read
  rw [whole, read]
  show Wildcard.Item.star :: likeItems ((needle.flatMap escapeLike ++ [0x25]).map UInt8.toNat) = _
  congr 1
  clear whole plain read ascii clean
  induction needle with
  | nil => rfl
  | cons byte needle ih =>
    rw [List.flatMap_cons, List.append_assoc, List.map_append, likeItems_escapeLike, ih]
    rfl

/-- A run that agrees with the literals, symbol by symbol, matches between two stars. -/
theorem matches_between_stars {same : Nat → Nat → Bool} {run letters : List Nat}
    (front rest : List Nat)
    (agree : List.Forall₂ (fun symbol letter => same symbol letter = true) run letters) :
    Wildcard.Matches same (.star :: (letters.map .literal ++ [.star])) (front ++ (run ++ rest)) := by
  refine .star front ?_
  induction agree with
  | nil =>
    have tail : Wildcard.Matches same [.star] (rest ++ []) := .star rest .nil
    rwa [List.append_nil] at tail
  | cons equal _ ih => exact .literal equal ih

/-! ## No match is missed -/

def unitsOf (needle : List UInt8) : Text := needle.map (·.toUInt16)

section Matches

variable {probe : UInt16 → UInt16 → Bool} {same : UInt16 → UInt16 → Prop} {needle : List UInt8}
  {name : Text}

theorem isAscii_unitsOf (ascii : ∀ byte ∈ needle, byte.toNat < 0x80) : isAscii (unitsOf needle) = true := by
  rw [isAscii, unitsOf, List.all_map, List.all_eq_true]
  intro byte mem
  have small := ascii byte mem
  simp only [Function.comp_apply, UInt8.toNat_toUInt16, decide_eq_true_eq]
  omega

theorem foldAsciiByte_byteOf (ascii : unit.toNat ≤ 0x7f) :
    foldAsciiByte (byteOf unit) = byteOf (foldAsciiChar unit) := by
  unfold foldAsciiByte foldAsciiChar asciiLower
  rw [toNat_byteOf ascii]
  split_ifs with upper
  · rw [byteOf, UInt16.toNat_ofNat_of_lt' (by have : UInt16.size = 65536 := rfl; omega)]
  · rfl

theorem foldAsciiUtf8_map_byteOf (ascii : isAscii run = true) :
    foldAsciiUtf8 (run.map byteOf) = (foldAscii16 run).map byteOf := by
  rw [foldAsciiUtf8, foldAscii16, List.map_map, List.map_map, List.map_inj_left]
  rw [isAscii, List.all_eq_true] at ascii
  intro unit mem
  exact foldAsciiByte_byteOf (of_decide_eq_true (ascii unit mem))

theorem map_byteOf_unitsOf : (unitsOf needle).map byteOf = needle := by
  rw [unitsOf, List.map_map]
  refine (List.map_congr_left fun byte _ => ?_).trans (List.map_id needle)
  show UInt8.ofNat byte.toUInt16.toNat = byte
  simp

/-- A run that folds to ASCII is ASCII. -/
theorem isAscii_of_foldAscii16 (folded : isAscii (foldAscii16 run) = true) :
    isAscii run = true := by
  rw [isAscii, foldAscii16, List.all_map, List.all_eq_true] at folded
  rw [isAscii, List.all_eq_true]
  intro unit mem
  have small := of_decide_eq_true (folded unit mem)
  refine decide_eq_true ?_
  unfold foldAsciiChar asciiLower at small
  split_ifs at small with upper
  · omega
  · exact small

/-- Units that fold alike are the same for `LIKE`. -/
theorem likeSame_of_fold (ascii : unit.toNat ≤ 0x7f)
    (small : byte.toNat < 0x80) (equal : foldAsciiChar unit = foldAsciiChar byte.toUInt16) :
    likeSame unit.toNat byte.toNat = true := by
  have lower {code : UInt16} (bound : code.toNat ≤ 0x7f) :
      (foldAsciiChar code).toNat = lowerCodepoint code.toNat := by
    unfold foldAsciiChar asciiLower lowerCodepoint
    split_ifs with upper
    · exact UInt16.toNat_ofNat_of_lt' (by have : UInt16.size = 65536 := rfl; omega)
    · rfl
  have value : byte.toUInt16.toNat = byte.toNat := UInt8.toNat_toUInt16 byte
  have same_lower := congrArg UInt16.toNat equal
  rw [lower ascii, lower (by omega), value] at same_lower
  rw [likeSame, Bool.or_eq_true]
  exact .inr (decide_eq_true ⟨by omega, small, same_lower⟩)

theorem likeSame_run (asciiRun : isAscii run = true) (ascii : ∀ byte ∈ needle, byte.toNat < 0x80)
    (equal : foldAscii16 run = foldAscii16 (unitsOf needle)) :
    List.Forall₂ (fun symbol letter => likeSame symbol letter = true) (run.map (·.toNat))
      (needle.map (·.toNat)) := by
  rw [foldAscii16, foldAscii16, unitsOf, List.map_map, ← List.forall₂_eq_eq_eq,
    List.forall₂_map_left_iff, List.forall₂_map_right_iff] at equal
  rw [List.forall₂_map_left_iff, List.forall₂_map_right_iff]
  induction equal with
  | nil => exact .nil
  | cons first _ ih =>
    rw [isAscii, List.all_cons, Bool.and_eq_true, decide_eq_true_eq] at asciiRun
    rw [List.forall_mem_cons] at ascii
    exact .cons (likeSame_of_fold asciiRun.1 ascii.1 first) (ih asciiRun.2 ascii.2)

/-- A run without zeros folds like a needle without zeros. -/
theorem zero_notMem_of_fold (clean : (0 : UInt16) ∉ run)
    (equal : foldAscii16 run = foldAscii16 (unitsOf needle)) : (0 : UInt8) ∉ needle := by
  intro zero
  have folded : (0 : UInt16) ∈ foldAscii16 (unitsOf needle) :=
    List.mem_map.mpr ⟨0, List.mem_map.mpr ⟨0, zero, rfl⟩, rfl⟩
  rw [← equal] at folded
  obtain ⟨unit, mem, source⟩ := List.mem_map.mp folded
  unfold foldAsciiChar asciiLower at source
  split_ifs at source with upper
  · have value := congrArg UInt16.toNat source
    rw [UInt16.toNat_ofNat_of_lt' (by have : UInt16.size = 65536 := rfl; omega)] at value
    exact absurd value (by simp)
  · exact clean (source ▸ mem)

section Contains

variable (folds : CaseFold probe same) (ascii : ∀ byte ∈ needle, byte.toNat < 0x80)
  (contains : Contains same (unitsOf needle) name)

include folds ascii contains

/-- Without exceptional units, a match is an ASCII run of the name that folds like the needle. -/
theorem exists_run_of_contains (plain : nameNeedsExceptionalFallback probe name = false) :
    ∃ run, run <:+: name ∧ isAscii run = true ∧ foldAscii16 run = foldAscii16 (unitsOf needle) := by
  obtain ⟨run, part, matches_⟩ := contains
  have plain_run : nameNeedsExceptionalFallback probe run = false := by
    rw [nameNeedsExceptionalFallback, List.any_eq_false] at plain ⊢
    exact fun unit member => plain unit (part.subset member)
  have equal := fold_window_eq folds matches_ (isAscii_unitsOf ascii) plain_run
  refine ⟨run, part, isAscii_of_foldAscii16 ?_, equal⟩
  rw [equal]
  exact isAscii_foldAscii16 (isAscii_unitsOf ascii)

/-- **The phrase query finds every match through ASCII units.** -/
theorem phraseMatches_of_contains (clean : (0 : UInt8) ∉ needle) (long : 3 ≤ needle.length)
    (plain : nameNeedsExceptionalFallback probe name = false) :
    phraseMatches (foldAsciiUtf8 needle) (foldAsciiUtf8 (utf16ToUtf8 name)) = true := by
  obtain ⟨run, part, asciiRun, equal⟩ := exists_run_of_contains folds ascii contains plain
  have spelled : foldAsciiUtf8 (run.map byteOf) = foldAsciiUtf8 needle := by
    rw [foldAsciiUtf8_map_byteOf asciiRun, equal, ← foldAsciiUtf8_map_byteOf (isAscii_unitsOf ascii),
      map_byteOf_unitsOf]
  have bytes : foldAsciiUtf8 needle <:+: foldAsciiUtf8 (utf16ToUtf8 name) := by
    rw [← spelled]
    exact (infix_utf16ToUtf8 asciiRun part).map foldAsciiByte
  have folded : ∀ byte ∈ foldAsciiUtf8 needle, byte.toNat < 0x80 ∧ byte ≠ 0 := by
    intro byte mem
    obtain ⟨source, here, rfl⟩ := List.mem_map.mp mem
    have small := ascii source here
    unfold foldAsciiByte
    split_ifs with upper
    · refine ⟨by rw [toNat_ofNat_byte (by omega)]; omega, fun zero => ?_⟩
      have value := congrArg UInt8.toNat zero
      rw [toNat_ofNat_byte (by omega)] at value
      exact absurd value (by simp)
    · exact ⟨small, fun zero => clean (zero ▸ here)⟩
  have read : codepoints (foldAsciiUtf8 needle) = (foldAsciiUtf8 needle).map (·.toNat) := by
    have run_only := codepoints_ascii (fun byte mem => (folded byte mem).1) []
    rwa [List.append_nil, show codepoints [] = [] from rfl, List.append_nil] at run_only
  have nonzero : (codepoints (foldAsciiUtf8 needle)).filter (· ≠ 0) =
      (foldAsciiUtf8 needle).map (·.toNat) := by
    rw [read, List.filter_eq_self]
    intro codepoint mem
    obtain ⟨byte, here, rfl⟩ := List.mem_map.mp mem
    exact decide_eq_true fun zero => (folded byte here).2 (UInt8.toNat_inj.mp zero)
  have inside := infix_codepoints (fun byte mem => (folded byte mem).1) bytes
  rw [← read] at inside
  have tokens := infix_trigramTokens (inside.filter (· ≠ 0))
  have some_token : termTokens (foldAsciiUtf8 needle) ≠ [] := by
    rw [termTokens, nonzero]
    match needle, long with
    | first :: second :: third :: rest, _ => exact List.cons_ne_nil _ _
  rw [phraseMatches, Bool.and_eq_true]
  exact ⟨decide_eq_true some_token, decide_eq_true tokens⟩

/-- **The canonical stream admits every match in a name without zeros.** -/
theorem streamAdmits_of_contains (clean : (0 : UInt16) ∉ name) :
    streamAdmits needle (utf16ToUtf8 name) = true := by
  rw [streamAdmits, Bool.or_eq_true]
  by_cases outside : globUnprintable (utf16ToUtf8 name) = true
  · exact .inr outside
  refine .inl ?_
  have whole := cString_of_notMem (zero_notMem_utf16ToUtf8 clean)
  rw [globUnprintable, whole, Bool.not_eq_true, List.any_eq_false] at outside
  have printable : ∀ codepoint ∈ codepoints (utf16ToUtf8 name), codepoint < 0x80 := by
    intro codepoint mem
    have inside := mt decide_eq_true (outside codepoint mem)
    omega
  have read := codepoints_eq_of_ascii printable
  have asciiName : isAscii name = true := by
    refine isAscii_of_bytes fun byte mem => printable byte.toNat ?_
    rw [read]
    exact List.mem_map_of_mem mem
  have plain : nameNeedsExceptionalFallback probe name = false := by
    rw [isAscii, List.all_eq_true] at asciiName
    rw [nameNeedsExceptionalFallback, List.any_eq_false]
    intro unit mem
    have small := of_decide_eq_true (asciiName unit mem)
    simp [Nat.not_lt.mpr small]
  obtain ⟨run, part, asciiRun, equal⟩ := exists_run_of_contains folds ascii contains plain
  have cleanNeedle := zero_notMem_of_fold (fun zero => clean (part.subset zero)) equal
  obtain ⟨front, rest, split⟩ := infix_utf16ToUtf8 asciiRun part
  have text : codepoints (utf16ToUtf8 name) =
      front.map (·.toNat) ++ (run.map (·.toNat) ++ rest.map (·.toNat)) := by
    rw [read, ← split, List.map_append, List.map_append, List.append_assoc, List.map_map]
    rw [isAscii, List.all_eq_true] at asciiRun
    congr 2
    exact List.map_congr_left fun unit mem => toNat_byteOf (of_decide_eq_true (asciiRun unit mem))
  have found := matches_between_stars (front.map (·.toNat)) (rest.map (·.toNat))
    (likeSame_run asciiRun ascii equal)
  rw [List.map_map] at found
  rw [like, whole, likeItems_pattern ascii cleanNeedle, text, Wildcard.scan_none_iff]
  exact found

end Contains

end Matches

end FastFiles.Index
