import Mathlib

/-!
# Finding a text in a text

`find needle text` is the first place of `text` at which `needle` stands, `findFrom` the first
one from a given place on.  A place is counted in elements.

A search in a text made of several pieces is taken apart one piece at a time: `find_append` steps
over a piece that *clashes* with the needle, one in which the needle neither stands nor starts at
its end.  A piece is shown to clash by evaluation, by `clashes_append` when it is made of such
pieces, and by `clashes_concat` when it lacks the needle and ends in an element that the needle
lacks.
-/

namespace FastFiles.Finding

variable {α : Type*} [DecidableEq α]

/-- The first place at which `needle` stands. -/
def find (needle : List α) : List α → Option Nat
  | [] => if needle.isEmpty then some 0 else none
  | a :: text =>
    if needle.isPrefixOf (a :: text) then some 0 else (find needle text).map (· + 1)

/-- The first place from `start` on at which `needle` stands. -/
def findFrom (needle text : List α) (start : Nat) : Option Nat :=
  (find needle (text.drop start)).map (start + ·)

/-- The first place from `start` on whose element meets `wanted`. -/
def findIf (wanted : α → Bool) (text : List α) (start : Nat) : Option Nat :=
  ((text.drop start).findIdx? wanted).map (start + ·)

/-! ## Stepping over a piece -/

/-- At no place of the piece does the needle stand, whatever follows the piece. -/
def clashes (needle : List α) : List α → Bool
  | [] => true
  | a :: piece =>
    !needle.isPrefixOf (a :: piece) && !(a :: piece).isPrefixOf needle && clashes needle piece

variable {needle piece text : List α} {last : α}

/-- Of two texts that are both at the start of a third one, one is at the start of the other. -/
theorem isPrefixOf_append_of_clash (text : List α) (absent : needle.isPrefixOf piece = false)
    (open_ : piece.isPrefixOf needle = false) : needle.isPrefixOf (piece ++ text) = false := by
  rw [Bool.eq_false_iff, ne_eq, List.isPrefixOf_iff_prefix] at *
  intro stands
  rcases List.prefix_or_prefix_of_prefix stands (List.prefix_append piece text) with inside | beyond
  · exact absent inside
  · exact open_ beyond

/-- **Stepping over a piece.** -/
theorem find_append (clash : clashes needle piece = true) (text : List α) :
    find needle (piece ++ text) = (find needle text).map (piece.length + ·) := by
  induction piece with
  | nil => simp
  | cons a piece ih =>
    simp only [clashes, Bool.and_eq_true, Bool.not_eq_true'] at clash
    have not := isPrefixOf_append_of_clash text clash.1.1 clash.1.2
    rw [List.cons_append] at not
    rw [List.cons_append, find, not, if_neg Bool.false_ne_true, ih clash.2, Option.map_map]
    congr 1
    funext place
    simp only [Function.comp_apply, List.length_cons]
    omega

/-- A needle at the very start is the first one. -/
theorem find_self (text : List α) : find needle (needle ++ text) = some 0 := by
  have stands : needle.isPrefixOf (needle ++ text) = true :=
    List.isPrefixOf_iff_prefix.mpr (List.prefix_append _ _)
  cases whole : needle ++ text with
  | nil => simp [find, (List.append_eq_nil_iff.mp whole).1]
  | cons a rest =>
    rw [whole] at stands
    rw [find, if_pos stands]

/-- Pieces that clash can be joined. -/
theorem clashes_append {rest : List α} (first : clashes needle piece = true)
    (second : clashes needle rest = true) : clashes needle (piece ++ rest) = true := by
  induction piece with
  | nil => exact second
  | cons a piece ih =>
    simp only [clashes, Bool.and_eq_true, Bool.not_eq_true'] at first
    have stands := isPrefixOf_append_of_clash rest first.1.1 first.1.2
    have starts : (a :: piece ++ rest).isPrefixOf needle = false := by
      rw [Bool.eq_false_iff, ne_eq, List.isPrefixOf_iff_prefix]
      intro inside
      have short := (List.prefix_append (a :: piece) rest).trans inside
      exact Bool.false_ne_true (first.1.2.symm.trans (List.isPrefixOf_iff_prefix.mpr short))
    rw [List.cons_append] at stands starts ⊢
    rw [clashes, stands, starts, ih first.2]
    rfl

theorem clashes_of_forall
    (apart : ∀ rest, rest <:+ piece → rest ≠ [] → ¬ needle <+: rest ∧ ¬ rest <+: needle) :
    clashes needle piece = true := by
  induction piece with
  | nil => rfl
  | cons a piece ih =>
    have here := apart (a :: piece) List.suffix_rfl (List.cons_ne_nil _ _)
    have later := ih fun rest suffix => apart rest (suffix.trans (List.suffix_cons _ _))
    simpa only [clashes, Bool.and_eq_true, Bool.not_eq_true', Bool.eq_false_iff, ne_eq,
      List.isPrefixOf_iff_prefix] using ⟨here, later⟩

/-- A piece that lacks the needle and ends in an element that the needle lacks. -/
theorem clashes_concat (absent : ¬ needle <:+: piece) (notMem : last ∉ needle) :
    clashes needle (piece ++ [last]) = true := by
  refine clashes_of_forall fun rest suffix nonempty => ?_
  obtain ⟨inner, rfl, within⟩ := (List.suffix_concat_iff.mp suffix).resolve_left nonempty
  have ends : last ∈ inner ++ [last] := List.mem_append_right _ (List.mem_singleton_self _)
  constructor
  · intro stands
    rcases List.prefix_concat_iff.mp stands with whole | inside
    · exact notMem (whole ▸ ends)
    · exact absent (inside.isInfix.trans within.isInfix)
  · intro stands
    exact notMem (stands.subset ends)

end FastFiles.Finding
