import FastFiles.Search.Query

/-!
# Substring search

The entry points of `Query.cpp` that look for a literal: the Horspool scan and the anchor scan
with their narrow and wide spellings, `AsciiFoldContains` over an owned name and
`OrdinalContains16Prepared` over a borrowed one.

What they are to find is stated without positions.  Under a folding of units a needle occurs in a
haystack if the folded needle is an infix of the folded haystack (`Occurs`).  `CompareStringOrdinal`
is taken to compare unit by unit under some folding (`UnitWise`); then both loops over all
alignments decide `Occurs` for that folding, and the scans decide it for the folding of ASCII
letters, whatever the length of the needle (`substring_search_exact`).
-/

namespace FastFiles.Search

open Index (Text)

/-! ## Occurrence -/

/-- The needle stands somewhere in the haystack, up to a folding of units. -/
def Occurs (fold : UInt16 → UInt16) (needle haystack : Text) : Prop :=
  needle.map fold <:+: haystack.map fold

instance (fold : UInt16 → UInt16) (needle haystack : Text) : Decidable (Occurs fold needle haystack) :=
  inferInstanceAs (Decidable (_ <:+: _))

/-- `CompareStringOrdinal` compares unit by unit, under a folding. -/
structure UnitWise (ordinal : Ordinal) (fold : UInt16 → UInt16) : Prop where
  eq_iff : ∀ left right, ordinal left right = .eq ↔ left.map fold = right.map fold

variable {fold : UInt16 → UInt16} {needle haystack : Text} {ordinal : Ordinal}

/-- An occurrence is a place where the needle stands. -/
theorem occurs_iff :
    Occurs fold needle haystack ↔ ∃ start, start + needle.length ≤ haystack.length ∧
      ((haystack.drop start).take needle.length).map fold = needle.map fold := by
  constructor
  · rintro ⟨front, back, whole⟩
    have size := congrArg List.length whole
    simp only [List.length_append, List.length_map] at size
    refine ⟨front.length, by omega, ?_⟩
    rw [List.map_take, List.map_drop, ← whole, List.append_assoc, List.drop_left,
      ← List.length_map fold, List.take_left]
  · rintro ⟨start, -, here⟩
    rw [Occurs, ← here]
    exact ((List.take_prefix _ _).isInfix.trans (List.drop_suffix _ _).isInfix).map fold

/-- In a haystack that is too short nothing occurs. -/
theorem not_occurs_of_short (short : haystack.length < needle.length) :
    ¬ Occurs fold needle haystack := by
  rw [occurs_iff]
  rintro ⟨start, fits, -⟩
  omega

/-- The places of the folded needle are those of an occurrence. -/
theorem exists_window_iff (nonempty : needle ≠ []) :
    (∃ start, Window haystack (foldAscii16 needle) start) ↔ Occurs foldAsciiChar needle haystack := by
  rw [occurs_iff]
  refine exists_congr fun start => ⟨fun window => ⟨?_, ?_⟩, fun inside => ?_⟩
  · exact length_foldAscii16 needle ▸ window.fits (foldAscii16_ne_nil nonempty)
  · rw [Window, length_foldAscii16] at window
    exact window
  · rw [Window, length_foldAscii16]
    exact inside.2

/-! ## The scans -/

def anchorContainsFold (haystack folded : Text) (anchor : UInt16) (anchorIndex : Nat) : Bool :=
  if folded.isEmpty then true
  else if haystack.length < folded.length then false
  else anchorScan haystack folded anchor anchorIndex anchorIndex

def boyerMooreHorspoolContains (haystack needle : Text) (shifts : Shifts) : Bool :=
  if needle.isEmpty then true
  else if haystack.length < needle.length then false
  else horspoolScan haystack needle shifts haystack.length (needle.length - 1)

def anchorContainsFoldWide (haystack : Text) (needle : AsciiFoldNeedle) : Bool :=
  anchorScan haystack needle.folded needle.anchor needle.anchorIndex needle.anchorIndex

def boyerMooreHorspoolContainsWide (haystack : Text) (needle : AsciiFoldNeedle) : Bool :=
  horspoolScan haystack needle.folded needle.shifts haystack.length (needle.folded.length - 1)

/-- The term of a query that is a single literal, prepared by `ParseQuery`. -/
def prepareSimpleLiteral (term : Text) : SimpleLiteral :=
  let folded := if isAscii term then foldAscii16 term else []
  { term, folded, anchor := folded.getD (chooseAsciiAnchor folded) 0
    anchorIndex := chooseAsciiAnchor folded, shifts := buildAsciiShifts folded }

@[simp] theorem prepareSimpleLiteral_term (term : Text) : (prepareSimpleLiteral term).term = term := rfl

/-! ## The loops over all alignments -/

/-- Comparing at every alignment finds the occurrences under the folding of the comparison. -/
theorem any_ordinal_iff (unitWise : UnitWise ordinal fold) (haystack needle : Text) :
    ((alignments haystack needle.length).any fun start =>
      ordinal ((haystack.drop start).take needle.length) needle == .eq) = true ↔
      Occurs fold needle haystack := by
  simp only [List.any_eq_true, alignments, List.mem_range, beq_iff_eq, unitWise.eq_iff]
  rw [occurs_iff]
  exact exists_congr fun start => and_congr_left fun _ => by omega

theorem ordinalContains_iff (unitWise : UnitWise ordinal fold) (haystack : Text)
    (nonempty : needle ≠ []) :
    ordinalContains ordinal haystack needle = true ↔ Occurs fold needle haystack := by
  rw [ordinalContains, Bool.or_eq_true, List.isEmpty_iff, or_iff_right nonempty]
  exact any_ordinal_iff unitWise haystack needle

/-! ## The entry points -/

section EntryPoints

variable {ordinal : Ordinal} {fold : UInt16 → UInt16} {needle : Text}

theorem asciiFoldContains_of_ascii (ordinal : Ordinal) (ascii : isAscii needle)
    (nonempty : needle ≠ []) (haystack : Text) :
    asciiFoldContains ordinal haystack (prepareAsciiFoldNeedle needle) = true ↔
      Occurs foldAsciiChar needle haystack :=
  (asciiFoldContains_iff ordinal haystack ascii nonempty).trans (exists_window_iff nonempty)

theorem asciiFoldContains_of_not_ascii (unitWise : UnitWise ordinal fold)
    (wide : isAscii needle = false) (nonempty : needle ≠ []) (haystack : Text) :
    asciiFoldContains ordinal haystack (prepareAsciiFoldNeedle needle) = true ↔
      Occurs fold needle haystack := by
  rw [asciiFoldContains, prepareAsciiFoldNeedle, if_neg (Bool.eq_false_iff.mp wide)]
  exact ordinalContains_iff unitWise haystack nonempty

/-- An ASCII term is searched in an ASCII name by a scan. -/
theorem ordinalContains16Prepared_of_ascii (ordinal : Ordinal) (ascii : isAscii needle)
    (nonempty : needle ≠ []) (haystack : Text) :
    ordinalContains16Prepared ordinal haystack (prepareSimpleLiteral needle) true = true ↔
      Occurs foldAsciiChar needle haystack := by
  have occurs := @exists_window_iff needle haystack nonempty
  simp only [ordinalContains16Prepared, prepareSimpleLiteral, if_pos ascii, List.isEmpty_iff]
  rw [if_neg nonempty]
  split_ifs with short indexed long shorter shorter
  · exact iff_of_false id (not_occurs_of_short short)
  · exact absurd (length_foldAscii16 needle ▸ shorter) short
  · exact (horspoolScan_window ascii nonempty haystack).trans occurs
  · exact absurd (length_foldAscii16 needle ▸ shorter) short
  · exact (anchorScan_window nonempty haystack).trans occurs
  · simp [foldAscii16_ne_nil nonempty] at indexed

/-- Every other pair is compared at every alignment. -/
theorem ordinalContains16Prepared_of_ordinal (unitWise : UnitWise ordinal fold)
    {nameIsAscii : Bool} (wide : (isAscii needle && nameIsAscii) = false) (nonempty : needle ≠ [])
    (haystack : Text) :
    ordinalContains16Prepared ordinal haystack (prepareSimpleLiteral needle) nameIsAscii = true ↔
      Occurs fold needle haystack := by
  have not_indexed : ¬ (!(prepareSimpleLiteral needle).folded.isEmpty && nameIsAscii) = true := by
    rw [prepareSimpleLiteral]
    cases ascii : isAscii needle <;> simp_all
  rw [ordinalContains16Prepared, prepareSimpleLiteral_term, if_neg (mt List.isEmpty_iff.mp nonempty),
    if_neg not_indexed]
  by_cases short : haystack.length < needle.length
  · rw [if_pos short]
    exact iff_of_false Bool.false_ne_true (not_occurs_of_short short)
  · rw [if_neg short]
    exact any_ordinal_iff unitWise haystack needle

/-- **Substring search is exact.**  For a needle of any length, each scan and each entry point
answers whether the needle occurs: under the folding of ASCII letters where it folds, and under
the folding of the ordinal comparison where it compares. -/
theorem substring_search_exact (unitWise : UnitWise ordinal fold) (haystack : Text)
    (nonempty : needle ≠ []) :
    (isAscii needle →
      (boyerMooreHorspoolContains haystack (foldAscii16 needle)
          (buildAsciiShifts (foldAscii16 needle)) = true ↔ Occurs foldAsciiChar needle haystack) ∧
      (boyerMooreHorspoolContainsWide haystack (prepareAsciiFoldNeedle needle) = true ↔
        Occurs foldAsciiChar needle haystack) ∧
      (anchorContainsFold haystack (foldAscii16 needle)
          ((foldAscii16 needle).getD (chooseAsciiAnchor (foldAscii16 needle)) 0)
          (chooseAsciiAnchor (foldAscii16 needle)) = true ↔ Occurs foldAsciiChar needle haystack) ∧
      (anchorContainsFoldWide haystack (prepareAsciiFoldNeedle needle) = true ↔
        Occurs foldAsciiChar needle haystack)) ∧
    (asciiFoldContains ordinal haystack (prepareAsciiFoldNeedle needle) = true ↔
      Occurs (if isAscii needle then foldAsciiChar else fold) needle haystack) ∧
    ∀ nameIsAscii,
      (ordinalContains16Prepared ordinal haystack (prepareSimpleLiteral needle) nameIsAscii = true ↔
        Occurs (if isAscii needle && nameIsAscii then foldAsciiChar else fold) needle haystack) := by
  have folded_nonempty : (foldAscii16 needle).isEmpty = false := by simpa [foldAscii16] using nonempty
  have occurs := @exists_window_iff needle haystack nonempty
  refine ⟨fun ascii => ⟨?_, ?_, ?_, ?_⟩, ?_, fun nameIsAscii => ?_⟩
  · rw [boyerMooreHorspoolContains, folded_nonempty, if_neg Bool.false_ne_true]
    split_ifs with short
    · rw [length_foldAscii16] at short
      exact iff_of_false id (not_occurs_of_short short)
    · exact (horspoolScan_window ascii nonempty haystack).trans occurs
  · rw [boyerMooreHorspoolContainsWide, prepareAsciiFoldNeedle, if_pos ascii]
    exact (horspoolScan_window ascii nonempty haystack).trans occurs
  · rw [anchorContainsFold, folded_nonempty, if_neg Bool.false_ne_true]
    split_ifs with short
    · rw [length_foldAscii16] at short
      exact iff_of_false id (not_occurs_of_short short)
    · exact (anchorScan_window nonempty haystack).trans occurs
  · rw [anchorContainsFoldWide, prepareAsciiFoldNeedle, if_pos ascii]
    exact (anchorScan_window nonempty haystack).trans occurs
  · split_ifs with ascii
    · exact asciiFoldContains_of_ascii ordinal ascii nonempty haystack
    · exact asciiFoldContains_of_not_ascii unitWise (Bool.eq_false_iff.mpr ascii) nonempty haystack
  · split_ifs with scanned
    · obtain ⟨ascii, rfl⟩ := Bool.and_eq_true_iff.mp scanned
      exact ordinalContains16Prepared_of_ascii ordinal ascii nonempty haystack
    · exact ordinalContains16Prepared_of_ordinal unitWise (Bool.eq_false_iff.mpr scanned) nonempty
        haystack

/-- The comparison under a folding. -/
def foldedOrdinal (fold : UInt16 → UInt16) : Ordinal := compareOn (List.map fold)

theorem unitWise_foldedOrdinal (fold : UInt16 → UInt16) : UnitWise (foldedOrdinal fold) fold where
  eq_iff left right := by
    show compare (left.map fold) (right.map fold) = .eq ↔ _
    exact Std.LawfulEqOrd.compare_eq_iff_eq

theorem substring_search_exact_readme :
    asciiFoldContains (foldedOrdinal foldAsciiChar) [0x52, 0x45, 0x41, 0x44, 0x4d, 0x45]
      (prepareAsciiFoldNeedle [0x61, 0x64, 0x6d]) = true :=
  (substring_search_exact (unitWise_foldedOrdinal foldAsciiChar) [0x52, 0x45, 0x41, 0x44, 0x4d, 0x45]
    (List.cons_ne_nil 0x61 [0x64, 0x6d])).2.1.mpr (by decide)

end EntryPoints

end FastFiles.Search
