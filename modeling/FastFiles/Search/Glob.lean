import FastFiles.Foundations.Wildcard
import FastFiles.Search.Literal

/-!
# Glob matching

`GlobMatches` over an owned name and `GlobMatches16` over a borrowed one.  The two differ in how
they spell the width of a pattern character; the loop is one definition with that width as a
parameter.

The loop works on positions.  `codePoints` cuts a text as the loop steps through it, a surrogate
pair being one code point, and `globItems` cuts a pattern; on these lists the loop is the matcher
of `Foundations.Wildcard` (`globLoop_eq_scan`), so it decides whether the text can be split among
the items of the pattern (`glob_exact`).
-/

namespace FastFiles.Search

open Wildcard

open Index (Text isHighSurrogate isLowSurrogate)
open Wildcard (Item)

/-! ## The loop -/

/-- How many units the character at an offset has. -/
def width (value : Text) (offset : Nat) : Nat :=
  if offset + 1 < value.length && isHighSurrogate (value.getD offset 0) &&
      isLowSurrogate (value.getD (offset + 1) 0) then 2
  else 1

theorem width_pos (value : Text) (offset : Nat) : 0 < width value offset := by
  unfold width
  split_ifs <;> decide

variable (ordinal : Ordinal) (text pattern : Text)

/-- The width of a pattern character in `GlobMatches16`. -/
def patternWidth16 (patternIndex : Nat) : Nat :=
  if 0xD800 ≤ (pattern.getD patternIndex 0).toNat && (pattern.getD patternIndex 0).toNat ≤ 0xDBFF &&
      patternIndex + 1 < pattern.length && 0xDC00 ≤ (pattern.getD (patternIndex + 1) 0).toNat &&
      (pattern.getD (patternIndex + 1) 0).toNat ≤ 0xDFFF then 2
  else 1

def questionMark : UInt16 := 0x3F

def asterisk : UInt16 := 0x2A

/-- `substr`. -/
def slice (value : Text) (offset count : Nat) : Text := (value.drop offset).take count

/-- A character of the text against one of the pattern: as many units, and equal with case
ignored. -/
def sameCharacter (textUnits patternUnits : Text) : Bool :=
  textUnits.length == patternUnits.length && ordinal textUnits patternUnits == .eq

/-- The loop; `star` is the position of the last star and `saved` the position in the text from
which it is tried. -/
def globLoop (ordinal : Ordinal) (patternWidth : Text → Nat → Nat) (text pattern : Text)
    (textIndex patternIndex : Nat) (star : Option Nat) (saved : Nat) : Bool :=
  if textIndex < text.length then
    if patternIndex < pattern.length ∧ pattern.getD patternIndex 0 = questionMark then
      globLoop ordinal patternWidth text pattern (textIndex + width text textIndex)
        (patternIndex + 1) star saved
    else if patternIndex < pattern.length ∧ pattern.getD patternIndex 0 ≠ asterisk then
      if width text textIndex = patternWidth pattern patternIndex ∧
          ordinal (slice text textIndex (width text textIndex))
            (slice pattern patternIndex (patternWidth pattern patternIndex)) = .eq then
        globLoop ordinal patternWidth text pattern (textIndex + width text textIndex)
          (patternIndex + patternWidth pattern patternIndex) star saved
      else
        match star with
        | some position =>
          globLoop ordinal patternWidth text pattern (saved + width text saved) (position + 1)
            (some position) (saved + width text saved)
        | none => false
    else if patternIndex < pattern.length ∧ pattern.getD patternIndex 0 = asterisk then
      globLoop ordinal patternWidth text pattern textIndex (patternIndex + 1) (some patternIndex)
        textIndex
    else
      match star with
      | some position =>
        globLoop ordinal patternWidth text pattern (saved + width text saved) (position + 1)
          (some position) (saved + width text saved)
      | none => false
  else ((pattern.drop patternIndex).dropWhile (· == asterisk)).isEmpty
termination_by (text.length - min textIndex saved, pattern.length - patternIndex)
decreasing_by
  all_goals
    have textForward := width_pos text textIndex
    have savedForward := width_pos text saved
  iterate 2 apply Prod.Lex.right' <;> omega
  · apply Prod.Lex.left
    omega
  · apply Prod.Lex.right' <;> omega
  · apply Prod.Lex.left
    omega

def globMatches : Bool :=
  globLoop ordinal width text pattern 0 0 none 0

def globMatches16 : Bool :=
  globLoop ordinal patternWidth16 text pattern 0 0 none 0

/-! ## Code points -/

/-- The characters of a text: a surrogate pair is one, every other unit is one by itself. -/
def codePoints : Text → List Text
  | [] => []
  | [unit] => [[unit]]
  | first :: second :: rest =>
    if isHighSurrogate first && isLowSurrogate second then [first, second] :: codePoints rest
    else [first] :: codePoints (second :: rest)

/-- The items of a pattern. -/
def globItems : Text → List (Item Text)
  | [] => []
  | [unit] =>
    if unit = questionMark then [.one] else if unit = asterisk then [.star] else [.literal [unit]]
  | first :: second :: rest =>
    if first = questionMark then .one :: globItems (second :: rest)
    else if first = asterisk then .star :: globItems (second :: rest)
    else if isHighSurrogate first && isLowSurrogate second then
      .literal [first, second] :: globItems rest
    else .literal [first] :: globItems (second :: rest)

/-- The characters of a text are all of it. -/
theorem flatten_codePoints : (codePoints text).flatten = text := by
  fun_induction codePoints text with
  | case1 => rfl
  | case2 unit => rfl
  | case3 _ _ _ _ ih | case4 _ _ _ _ ih => rw [List.flatten_cons, ih]; rfl

theorem width_drop (index : Nat) : width text index = width (text.drop index) 0 := by
  simp only [width, List.getD_eq_getElem?_getD, List.getElem?_drop, List.length_drop, Nat.zero_add,
    Nat.add_zero]
  have bound : index + 1 < text.length ↔ 1 < text.length - index := by omega
  simp [bound]

theorem codePoints_cons {text : Text} (nonempty : text ≠ []) :
    codePoints text = text.take (width text 0) :: codePoints (text.drop (width text 0)) := by
  match text with
  | [] => exact absurd rfl nonempty
  | [unit] => rfl
  | first :: second :: rest =>
    simp only [codePoints, width, List.getD_cons_zero, List.getD_cons_succ, List.length_cons]
    by_cases pair : (isHighSurrogate first && isLowSurrogate second) = true
    · simp [pair]
    · simp [pair]

variable {index : Nat}

/-- The first character of what is left of a text. -/
theorem codePoints_drop {text : Text} (inside : index < text.length) :
    codePoints (text.drop index) =
      slice text index (width text index) :: codePoints (text.drop (index + width text index)) := by
  have nonempty : text.drop index ≠ [] := by
    rw [Ne, List.drop_eq_nil_iff]
    omega
  rw [codePoints_cons nonempty, ← width_drop, List.drop_drop, slice]

theorem globItems_cons (unit : UInt16) (rest : Text) :
    globItems (unit :: rest) =
      if unit = questionMark then .one :: globItems rest
      else if unit = asterisk then .star :: globItems rest
      else .literal ((unit :: rest).take (width (unit :: rest) 0)) ::
        globItems ((unit :: rest).drop (width (unit :: rest) 0)) := by
  cases rest with
  | nil => rfl
  | cons second rest =>
    simp only [globItems, width, List.getD_cons_zero, List.getD_cons_succ, List.length_cons]
    by_cases pair : (isHighSurrogate unit && isLowSurrogate second) = true
    · simp [pair]
    · simp [pair]

/-- The first item of what is left of a pattern. -/
theorem globItems_drop {pattern : Text} (inside : index < pattern.length) :
    globItems (pattern.drop index) =
      if pattern.getD index 0 = questionMark then .one :: globItems (pattern.drop (index + 1))
      else if pattern.getD index 0 = asterisk then .star :: globItems (pattern.drop (index + 1))
      else .literal (slice pattern index (width pattern index)) ::
        globItems (pattern.drop (index + width pattern index)) := by
  have head : pattern.drop index = pattern.getD index 0 :: pattern.drop (index + 1) := by
    rw [List.drop_eq_getElem_cons inside, List.getD_eq_getElem?_getD, List.getElem?_eq_getElem inside,
      Option.getD_some]
  have cut := globItems_cons (pattern.getD index 0) (pattern.drop (index + 1))
  rwa [← head, ← width_drop, List.drop_drop] at cut

/-! ## The loop is the matcher -/

theorem patternWidth16_eq : patternWidth16 = width := by
  funext pattern index
  simp only [patternWidth16, width, isHighSurrogate, isLowSurrogate, Bool.and_eq_true,
    decide_eq_true_eq]
  congr 1
  exact propext ⟨fun ⟨⟨⟨⟨a, b⟩, c⟩, d⟩, e⟩ => ⟨⟨c, a, b⟩, d, e⟩,
    fun ⟨⟨c, a, b⟩, d, e⟩ => ⟨⟨⟨⟨a, b⟩, c⟩, d⟩, e⟩⟩

theorem length_slice_width {value : Text} (inside : index < value.length) :
    (slice value index (width value index)).length = width value index := by
  rw [slice, List.length_take, List.length_drop, Nat.min_eq_left]
  unfold width
  split_ifs with pair
  · simp only [Bool.and_eq_true, decide_eq_true_eq] at pair
    omega
  · omega

/-- The comparison of the loop. -/
theorem sameCharacter_slice_iff {ordinal : Ordinal} {text pattern : Text} {textIndex patternIndex : Nat}
    (inText : textIndex < text.length) (inPattern : patternIndex < pattern.length) :
    sameCharacter ordinal (slice text textIndex (width text textIndex))
        (slice pattern patternIndex (width pattern patternIndex)) = true ↔
      width text textIndex = width pattern patternIndex ∧
        ordinal (slice text textIndex (width text textIndex))
          (slice pattern patternIndex (width pattern patternIndex)) = .eq := by
  rw [sameCharacter, length_slice_width inText, length_slice_width inPattern, Bool.and_eq_true,
    beq_iff_eq, beq_iff_eq]

/-- The remaining pattern consists of asterisks. -/
theorem dropWhile_isEmpty :
    (pattern.dropWhile (· == asterisk)).isEmpty = (globItems pattern).all Item.isStar := by
  induction pattern with
  | nil => rfl
  | cons unit rest ih =>
    rw [globItems_cons, List.dropWhile_cons]
    by_cases star : unit = asterisk
    · subst star
      rw [if_pos (by decide), if_neg (by decide), if_pos rfl, ih]
      rfl
    · rw [if_neg (by simpa using star), if_neg star]
      split_ifs <;> rfl

/-- The fallback of the loop, on lists. -/
def fallback (star : Option Nat) (saved : Nat) : Option (List (Item Text) × List Text) :=
  star.map fun position => (globItems (pattern.drop (position + 1)), codePoints (text.drop saved))

theorem tail_codePoints_drop (saved : Nat) :
    (codePoints (text.drop saved)).tail = codePoints (text.drop (saved + width text saved)) := by
  by_cases inside : saved < text.length
  · rw [codePoints_drop inside, List.tail_cons]
  · have forward := width_pos text saved
    rw [List.drop_eq_nil_of_le (by omega), List.drop_eq_nil_of_le (by omega)]
    rfl

/-- On the characters that are left the loop is the matcher with one backtrack point. -/
theorem globLoop_eq_scan (textIndex patternIndex : Nat) (star : Option Nat) (saved : Nat) :
    globLoop ordinal width text pattern textIndex patternIndex star saved =
      scan (sameCharacter ordinal) (codePoints (text.drop textIndex))
        (globItems (pattern.drop patternIndex)) (fallback text pattern star saved) := by
  fun_induction globLoop ordinal width text pattern textIndex patternIndex star saved with
  | case1 textIndex patternIndex star saved inside here ih =>
    rw [ih, codePoints_drop inside, globItems_drop here.1, if_pos here.2]
    simp [scan]
  | case2 textIndex patternIndex star saved inside notQuestion here agree ih =>
    have same := (sameCharacter_slice_iff inside here.1).mpr agree
    rw [ih, codePoints_drop inside, globItems_drop here.1, if_neg (not_and.mp notQuestion here.1),
      if_neg here.2, scan_literal same]
  | case3 textIndex patternIndex saved inside notQuestion here differs position ih =>
    have other := mt (sameCharacter_slice_iff inside here.1).mp differs
    rw [ih, codePoints_drop inside, globItems_drop here.1, if_neg (not_and.mp notQuestion here.1),
      if_neg here.2]
    simp [fallback, scan, if_neg other, tail_codePoints_drop]
  | case4 textIndex patternIndex saved inside notQuestion here differs =>
    have other := mt (sameCharacter_slice_iff inside here.1).mp differs
    rw [codePoints_drop inside, globItems_drop here.1, if_neg (not_and.mp notQuestion here.1),
      if_neg here.2]
    simp [fallback, scan, if_neg other]
  | case5 textIndex patternIndex star saved inside notQuestion notLiteral here ih =>
    rw [ih, globItems_drop here.1, if_neg (not_and.mp notQuestion here.1), if_pos here.2,
      codePoints_drop inside]
    simp [fallback, scan, codePoints_drop inside]
  | case6 textIndex patternIndex saved inside notQuestion notLiteral notStar position ih =>
    have ended : pattern.length ≤ patternIndex := not_lt.mp fun before =>
      notLiteral ⟨before, fun same => notStar ⟨before, same⟩⟩
    rw [ih, codePoints_drop inside, List.drop_eq_nil_of_le ended]
    simp [fallback, globItems, scan, tail_codePoints_drop]
  | case7 textIndex patternIndex saved inside notQuestion notLiteral notStar =>
    have ended : pattern.length ≤ patternIndex := not_lt.mp fun before =>
      notLiteral ⟨before, fun same => notStar ⟨before, same⟩⟩
    rw [codePoints_drop inside, List.drop_eq_nil_of_le ended]
    simp [fallback, globItems, scan]
  | case8 textIndex patternIndex star saved outside =>
    have ended : text.drop textIndex = [] := List.drop_eq_nil_of_le (by omega)
    rw [ended, dropWhile_isEmpty]
    simp [codePoints, scan]

/-- **Glob matching is exact.**  The loop ends, and it answers whether the characters of the text can
be split among the items of the pattern; the two spellings agree. -/
theorem glob_exact (ordinal : Ordinal) (text pattern : Text) : (codePoints text).flatten = text ∧
    (globMatches ordinal text pattern = true ↔
      Matches (sameCharacter ordinal) (globItems pattern) (codePoints text)) ∧
    globMatches16 ordinal text pattern = globMatches ordinal text pattern := by
  refine ⟨flatten_codePoints text, ?_, ?_⟩
  · rw [globMatches, globLoop_eq_scan]
    exact scan_none_iff
  · rw [globMatches16, patternWidth16_eq, globMatches]

end FastFiles.Search
