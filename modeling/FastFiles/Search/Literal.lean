import FastFiles.Index.Entry

/-!
# Matching a name against a literal

The literal matchers of `Query.cpp` and the two classifiers of a match, `ClassifyMatch` over
a candidate and `ClassifyMatchView` over a borrowed name.

`CompareStringOrdinal` with case ignored is a parameter `ordinal`.  Terms that are all ASCII
are folded and searched with an anchor scan or a Horspool scan; both find exactly the places
where the folded term stands in the folded name (`asciiFoldContains_iff`), so the two
classifiers give the same tier (`classifyMatchView_eq`).
-/

namespace FastFiles.Search

open Function

open Index (Text asciiLower)

/-- `CompareStringOrdinal` with case ignored. -/
abbrev Ordinal := Text → Text → Ordering

/-! ## Ordinal comparison -/

section Ordinal

variable (ordinal : Ordinal)

def ordinalEqual (left right : Text) : Bool :=
  left.length == right.length && ordinal left right == .eq

def ordinalStartsWith (value start : Text) : Bool :=
  decide (start.length ≤ value.length) && ordinal (value.take start.length) start == .eq

/-- The places where a text of a given length fits. -/
def alignments (haystack : Text) (width : Nat) : List Nat := List.range (haystack.length + 1 - width)

def ordinalContains (haystack needle : Text) : Bool :=
  needle.isEmpty || (alignments haystack needle.length).any fun start =>
    ordinal ((haystack.drop start).take needle.length) needle == .eq

end Ordinal

/-! ## ASCII folding -/

variable (value needle : Text)

def isAscii : Bool := value.all fun unit => decide (unit.toNat ≤ 0x7f)

/-- `FoldAscii16Char` and `FoldAsciiWideChar`; both units have sixteen bits. -/
def foldAsciiChar (unit : UInt16) : UInt16 := asciiLower unit

def foldAscii16 : Text := value.map foldAsciiChar

/-- Lower is rarer. -/
def asciiFrequency (unit : UInt16) : Nat :=
  match unit.toNat with
  | 0x65 => 255 | 0x74 => 245 | 0x61 => 235 | 0x6f => 230 | 0x69 => 225 | 0x6e => 220
  | 0x73 => 210 | 0x68 => 205 | 0x72 => 200 | 0x64 => 185 | 0x6c => 180 | 0x63 => 165
  | 0x75 => 155 | 0x6d => 150 | 0x77 => 145 | 0x66 => 140 | 0x67 => 135 | 0x79 => 130
  | 0x70 => 110 | 0x62 => 100 | 0x76 => 90 | 0x6b => 80 | 0x6a => 60 | 0x78 => 50
  | 0x71 => 30 | 0x7a => 20 | 0x5f => 40
  | _ => 70

def chooseAsciiAnchor : Nat :=
  (List.range' 1 (needle.length - 1)).foldl
    (fun anchor index =>
      if asciiFrequency (needle.getD index 0) < asciiFrequency (needle.getD anchor 0) then index
      else anchor) 0

/-- The skips of the Horspool scan, by raw unit below 128. -/
abbrev Shifts := Nat → Nat

/-- One index of the needle sets the skip of its unit and of the upper-case spelling. -/
def setShift (shifts : Shifts) (index : Nat) : Shifts :=
  let unit := (needle.getD index 0).toNat
  let shift := needle.length - 1 - index
  let shifts := update shifts unit shift
  if 0x61 ≤ unit ∧ unit ≤ 0x7a then update shifts (unit - 0x20) shift else shifts

def buildAsciiShifts : Shifts :=
  (List.range (needle.length - 1)).foldl (setShift needle) fun _ => needle.length

/-- `FoldedWindowEquals16` and `FoldedWindowEqualsWide`. -/
def foldedWindowEquals (haystack : Text) (start : Nat) (folded : Text) : Bool :=
  foldAscii16 ((haystack.drop start).take folded.length) == folded

/-- The loop of `AnchorContainsFold` and `AnchorContainsFoldWide`. -/
def anchorScan (haystack folded : Text) (anchor : UInt16) (anchorIndex position : Nat) : Bool :=
  if h : position < haystack.length then
    if foldAsciiChar haystack[position] ≠ anchor then
      anchorScan haystack folded anchor anchorIndex (position + 1)
    else if haystack.length < position - anchorIndex + folded.length then false
    else if foldedWindowEquals haystack (position - anchorIndex) folded then true
    else anchorScan haystack folded anchor anchorIndex (position + 1)
  else false
termination_by haystack.length - position

/-- The skip after a failed window whose last unit is `raw`. -/
def skip (folded : Text) (shifts : Shifts) (raw : UInt16) : Nat :=
  if raw.toNat < 128 then shifts raw.toNat else folded.length

/-- The loop of `BoyerMooreHorspoolContains` and `BoyerMooreHorspoolContainsWide`; every round
moves on, so the length of the haystack is fuel enough. -/
def horspoolScan (haystack folded : Text) (shifts : Shifts) : Nat → Nat → Bool
  | 0, _ => false
  | fuel + 1, position =>
    if h : position < haystack.length then
      let rawTail := haystack[position]
      if folded.getLast? == some (foldAsciiChar rawTail) &&
          foldedWindowEquals haystack (position - (folded.length - 1)) folded then true
      else horspoolScan haystack folded shifts fuel (position + skip folded shifts rawTail)
    else false

structure AsciiFoldNeedle where
  ascii : Bool
  value : Text
  folded : Text
  anchor : UInt16
  anchorIndex : Nat
  shifts : Shifts

def prepareAsciiFoldNeedle : AsciiFoldNeedle :=
  if isAscii value then
    let folded := foldAscii16 value
    { ascii := true, value, folded, anchor := folded.getD (chooseAsciiAnchor folded) 0
      anchorIndex := chooseAsciiAnchor folded, shifts := buildAsciiShifts folded }
  else { ascii := false, value, folded := [], anchor := 0, anchorIndex := 0, shifts := fun _ => 0 }

/-- Needles of four units and more use the Horspool scan. -/
def asciiFoldContains (ordinal : Ordinal) (haystack : Text) (needle : AsciiFoldNeedle) : Bool :=
  if !needle.ascii || needle.folded.isEmpty then ordinalContains ordinal haystack needle.value
  else if haystack.length < needle.folded.length then false
  else if 4 ≤ needle.folded.length then
    horspoolScan haystack needle.folded needle.shifts haystack.length (needle.folded.length - 1)
  else anchorScan haystack needle.folded needle.anchor needle.anchorIndex needle.anchorIndex

def asciiFoldEquals (left right : Text) : Bool := foldAscii16 left == foldAscii16 right

def asciiFoldStartsWith (start : Text) : Bool :=
  if value.length < start.length then false
  else asciiFoldEquals (value.take start.length) start

/-! ## Tiers -/

inductive MatchTier where
  | exact | startsWith | substring | pathOnly
deriving DecidableEq

/-- The position of a tier in its enumeration. -/
def MatchTier.rank : MatchTier → Nat
  | .exact => 0
  | .startsWith => 1
  | .substring => 2
  | .pathOnly => 3

/-- A name up to its last dot, or all of it. -/
def stem (name : Text) : Text :=
  if 0x2e ∈ name then (name.reverse.dropWhile (· != 0x2e)).tail.reverse else name

section Classify

variable (ordinal : Ordinal)

def classifyMatch (name term : Text) : MatchTier :=
  if term.isEmpty then .substring
  else
    let needle := prepareAsciiFoldNeedle term
    let equals (value : Text) : Bool :=
      if needle.ascii then asciiFoldEquals value term else ordinalEqual ordinal value term
    let startsWith (value : Text) : Bool :=
      if needle.ascii then asciiFoldStartsWith value term else ordinalStartsWith ordinal value term
    if equals (stem name) || equals name then .exact
    else if startsWith name then .startsWith
    else if (if needle.ascii then asciiFoldContains ordinal name needle
        else ordinalContains ordinal name term) then .substring
    else .pathOnly

def foldedEquals16 (name term : Text) : Bool :=
  if name.length ≠ term.length then false
  else if isAscii term then foldAscii16 name == foldAscii16 term
  else ordinal name term == .eq

def foldedStartsWith16 (name term : Text) : Bool :=
  if name.length < term.length then false
  else if isAscii term then foldAscii16 (name.take term.length) == foldAscii16 term
  else ordinal (name.take term.length) term == .eq

def foldedContains16 (name term : Text) : Bool :=
  if term.isEmpty then true
  else if name.length < term.length then false
  else if isAscii term then
    (alignments name term.length).any fun start =>
      foldAscii16 ((name.drop start).take term.length) == foldAscii16 term
  else (alignments name term.length).any fun start =>
    ordinal ((name.drop start).take term.length) term == .eq

def classifyMatchView (name term : Text) : MatchTier :=
  if term.isEmpty then .substring
  else if foldedEquals16 ordinal (stem name) term || foldedEquals16 ordinal name term then .exact
  else if foldedStartsWith16 ordinal name term then .startsWith
  else if foldedContains16 ordinal name term then .substring
  else .pathOnly

end Classify

/-! ## Windows -/

section Windows

variable {haystack folded : Text} {start : Nat}

/-- The folded needle stands at `start`. -/
abbrev Window (haystack folded : Text) (start : Nat) : Prop :=
  foldAscii16 ((haystack.drop start).take folded.length) = folded

theorem Window.fits (window : Window haystack folded start) (nonempty : folded ≠ []) :
    start + folded.length ≤ haystack.length := by
  have size := congrArg List.length window
  have positive := List.length_pos_of_ne_nil nonempty
  simp only [foldAscii16, List.length_map, List.length_take, List.length_drop] at size
  omega

/-- A unit of the haystack inside a window. -/
theorem Window.unit (window : Window haystack folded start) (index : Nat)
    (bound : start + index < haystack.length) (inside : index < folded.length) :
    foldAsciiChar haystack[start + index] = folded[index] := by
  have units := congrArg (fun text : Text => text[index]?) window
  simpa [foldAscii16, List.getElem?_take, inside, bound] using units

theorem foldedWindowEquals_iff : foldedWindowEquals haystack start folded = true ↔
    Window haystack folded start := by
  simp [foldedWindowEquals]

/-- The loop over all places finds a window if there is one. -/
theorem any_alignments (haystack : Text) (nonempty : folded ≠ []) :
    ((alignments haystack folded.length).any fun start =>
      foldAscii16 ((haystack.drop start).take folded.length) == folded) = true ↔
      ∃ start, Window haystack folded start := by
  rw [List.any_eq_true]
  constructor
  · rintro ⟨start, -, here⟩
    exact ⟨start, by simpa using here⟩
  · rintro ⟨start, window⟩
    have fits := window.fits nonempty
    refine ⟨start, List.mem_range.mpr (by omega), by simpa using window⟩

end Windows

/-! ## The anchor scan -/

variable {needle : Text}

theorem chooseAsciiAnchor_lt (nonempty : needle ≠ []) :
    chooseAsciiAnchor needle < needle.length := by
  have positive := List.length_pos_of_ne_nil nonempty
  have inside (indices : List Nat) (valid : ∀ index ∈ indices, index < needle.length)
      (anchor : Nat) (start : anchor < needle.length) :
      indices.foldl (fun anchor index =>
        if asciiFrequency (needle.getD index 0) < asciiFrequency (needle.getD anchor 0) then index
        else anchor) anchor < needle.length := by
    induction indices generalizing anchor with
    | nil => exact start
    | cons index rest ih =>
      rw [List.foldl_cons]
      refine ih (fun i mem => valid i (.tail _ mem)) _ ?_
      split_ifs
      · exact valid index (.head _)
      · exact start
  refine inside _ (fun index mem => ?_) 0 positive
  have := (List.mem_range'_1.mp mem).2
  omega

variable {haystack folded : Text}

/-- A window that does not end at this position ends behind it. -/
theorem exists_window_step {offset position : Nat} (reached : offset ≤ position)
    (elsewhere : ¬ Window haystack folded (position - offset)) :
    (∃ start, position ≤ start + offset ∧ Window haystack folded start) ↔
      ∃ start, position + 1 ≤ start + offset ∧ Window haystack folded start := by
  refine exists_congr fun start => ⟨?_, fun ⟨behind, window⟩ => ⟨by omega, window⟩⟩
  rintro ⟨behind, window⟩
  have differs : start ≠ position - offset := by
    rintro rfl
    exact elsewhere window
  exact ⟨by omega, window⟩

/-- The anchor scan finds the windows whose anchor is at the position or behind it. -/
theorem anchorScan_iff {anchor : UInt16} {anchorIndex : Nat} (inside : anchorIndex < folded.length)
    (anchored : folded[anchorIndex] = anchor) (position : Nat) (reached : anchorIndex ≤ position) :
    anchorScan haystack folded anchor anchorIndex position = true ↔
      ∃ start, position ≤ start + anchorIndex ∧ Window haystack folded start := by
  have nonempty : folded ≠ [] := List.ne_nil_of_length_pos (by omega)
  fun_induction anchorScan haystack folded anchor anchorIndex position with
  | case1 position bound differs ih =>
    refine (ih (by omega)).trans (exists_window_step reached ?_).symm
    intro window
    apply differs
    have unit := window.unit anchorIndex (by omega) inside
    simpa [Nat.sub_add_cancel reached, anchored] using unit
  | case2 position bound same short =>
    -- no later window fits either
    refine iff_of_false (by simp) ?_
    rintro ⟨start, behind, window⟩
    have fits := window.fits nonempty
    omega
  | case3 position bound same fits here =>
    exact iff_of_true rfl ⟨position - anchorIndex, by omega, foldedWindowEquals_iff.mp here⟩
  | case4 position bound same fits elsewhere ih =>
    refine (ih (by omega)).trans (exists_window_step reached ?_).symm
    exact fun window => elsewhere (foldedWindowEquals_iff.mpr window)
  | case5 position outside =>
    refine iff_of_false (by simp) ?_
    rintro ⟨start, behind, window⟩
    have fits := window.fits nonempty
    omega

/-! ## The Horspool scan -/

/-- A skip never passes a place where the unit under the window's end stands in the needle. -/
structure SkipSound (folded : Text) (shifts : Shifts) : Prop where
  positive : ∀ raw, 0 < skip folded shifts raw
  bounded : ∀ raw, skip folded shifts raw ≤ folded.length
  occurrence : ∀ raw index, index + 1 < folded.length →
    folded[index]? = some (foldAsciiChar raw) → skip folded shifts raw ≤ folded.length - 1 - index

variable {shifts : Shifts}

/-- No window ends strictly between a position and the position after its skip. -/
theorem SkipSound.no_window (sound : SkipSound folded shifts) {position start : Nat}
    (bound : position < haystack.length) (behind : position < start + (folded.length - 1))
    (before : start + (folded.length - 1) < position + skip folded shifts haystack[position]) :
    ¬ Window haystack folded start := by
  intro window
  have limit := sound.bounded haystack[position]
  have within : start + (position - start) = position := by omega
  have unit := window.unit (position - start) (by omega) (by omega)
  have occurs : folded[position - start]? = some (foldAsciiChar haystack[position]) := by
    rw [List.getElem?_eq_getElem (by omega), ← unit]
    simp [within]
  have := sound.occurrence _ _ (by omega) occurs
  omega

/-- The Horspool scan finds the windows that end at the position or behind it. -/
theorem horspoolScan_iff (nonempty : folded ≠ []) (sound : SkipSound folded shifts)
    (fuel position : Nat) (enough : haystack.length ≤ position + fuel)
    (reached : folded.length - 1 ≤ position) :
    horspoolScan haystack folded shifts fuel position = true ↔
      ∃ start, position ≤ start + (folded.length - 1) ∧ Window haystack folded start := by
  have positive := List.length_pos_of_ne_nil nonempty
  have none_outside (position : Nat) (outside : haystack.length ≤ position) :
      ¬ ∃ start, position ≤ start + (folded.length - 1) ∧ Window haystack folded start := by
    rintro ⟨start, behind, window⟩
    have fits := window.fits nonempty
    omega
  induction fuel generalizing position with
  | zero => exact iff_of_false (by simp [horspoolScan]) (none_outside position (by omega))
  | succ fuel ih =>
    unfold horspoolScan
    split_ifs with bound
    · dsimp only
      split_ifs with found
      · rw [Bool.and_eq_true] at found
        exact iff_of_true rfl ⟨_, by omega, foldedWindowEquals_iff.mp found.2⟩
      · have forward := sound.positive haystack[position]
        refine (ih _ (by omega) (by omega)).trans (exists_congr fun start => ?_)
        refine and_congr_left fun window => ⟨fun behind => by omega, fun behind => ?_⟩
        -- it does not end here, and it ends at no place that is skipped
        have not_here : start ≠ position - (folded.length - 1) := by
          rintro rfl
          apply found
          have unit := window.unit (folded.length - 1) (by omega) (by omega)
          rw [Bool.and_eq_true, foldedWindowEquals_iff]
          refine ⟨?_, window⟩
          simp only [Nat.sub_add_cancel reached] at unit
          rw [unit, List.getLast?_eq_getElem?, List.getElem?_eq_getElem (by omega)]
          simp
        by_contra skipped
        exact sound.no_window bound (by omega) (by omega) window
    · exact iff_of_false (by simp) (none_outside position (by omega))

/-- The skips after the first `count` indices of a needle were entered. -/
structure ShiftsUpTo (needle : Text) (count : Nat) (shifts : Shifts) : Prop where
  positive : ∀ raw, 0 < shifts raw
  bounded : ∀ raw, shifts raw ≤ needle.length
  occurrence : ∀ (raw : UInt16) index, index < count →
    needle[index]? = some (foldAsciiChar raw) → shifts raw.toNat ≤ needle.length - 1 - index

/-- A unit folds to itself or is the upper-case spelling of a letter. -/
theorem foldAsciiChar_cases (raw : UInt16) :
    raw.toNat = (foldAsciiChar raw).toNat ∨
      (0x61 ≤ (foldAsciiChar raw).toNat ∧ (foldAsciiChar raw).toNat ≤ 0x7a ∧
        raw.toNat = (foldAsciiChar raw).toNat - 0x20) := by
  unfold foldAsciiChar asciiLower
  split_ifs with upper
  · right
    have small : raw.toNat + 0x20 < 2 ^ 16 := by omega
    rw [UInt16.toNat_ofNat_of_lt' small]
    omega
  · exact .inl rfl

theorem setShift_apply (needle : Text) (shifts : Shifts) (index raw : Nat) :
    setShift needle shifts index raw = needle.length - 1 - index ∨
      setShift needle shifts index raw = shifts raw := by
  unfold setShift
  split_ifs <;> simp only [update_apply] <;> split_ifs <;> simp

theorem setShift_of_fold {index : Nat} {raw : UInt16}
    (occurs : needle[index]? = some (foldAsciiChar raw)) :
    setShift needle shifts index raw.toNat = needle.length - 1 - index := by
  have unit : needle.getD index 0 = foldAsciiChar raw := by
    rw [List.getD_eq_getElem?_getD, occurs, Option.getD_some]
  unfold setShift
  simp only [unit]
  obtain same | ⟨low, high, upper⟩ := foldAsciiChar_cases raw
  · rw [← same]
    split_ifs with letter
    · rw [update_of_ne (by omega), update_self]
    · rw [update_self]
  · rw [if_pos ⟨low, high⟩, upper, update_self]

theorem ShiftsUpTo.step {count : Nat}
    (entered : ShiftsUpTo needle count shifts) (more : count + 1 < needle.length) :
    ShiftsUpTo needle (count + 1) (setShift needle shifts count) where
  positive raw := by
    obtain h | h := setShift_apply needle shifts count raw
    · omega
    · rw [h]
      exact entered.positive raw
  bounded raw := by
    obtain h | h := setShift_apply needle shifts count raw
    · omega
    · rw [h]
      exact entered.bounded raw
  occurrence raw index bound occurs := by
    obtain h | h := setShift_apply needle shifts count raw.toNat
    · -- entered last, with the smallest skip so far
      omega
    · by_cases last : index = count
      · subst last
        exact (setShift_of_fold occurs).le
      · rw [h]
        exact entered.occurrence raw index (by omega) occurs

theorem skipSound_buildAsciiShifts (nonempty : needle ≠ []) (ascii : isAscii needle) :
    SkipSound needle (buildAsciiShifts needle) := by
  have positive := List.length_pos_of_ne_nil nonempty
  have entered (count : Nat) (bound : count + 1 ≤ needle.length) :
      ShiftsUpTo needle count
        ((List.range count).foldl (setShift needle) fun _ => needle.length) := by
    induction count with
    | zero => exact ⟨fun _ => positive, fun _ => le_rfl, fun _ _ h => absurd h (Nat.not_lt_zero _)⟩
    | succ count ih =>
      rw [List.range_succ, List.foldl_concat]
      exact (ih (by omega)).step (by omega)
  have all := entered (needle.length - 1) (by omega)
  refine ⟨fun raw => ?_, fun raw => ?_, fun raw index bound occurs => ?_⟩
  · unfold skip
    split_ifs
    · exact all.positive _
    · exact positive
  · unfold skip
    split_ifs
    · exact all.bounded _
    · exact le_rfl
  · unfold skip
    split_ifs with narrow
    · exact all.occurrence raw index (by omega) occurs
    · -- a unit above the table folds to itself, and the needle has none
      have small : (foldAsciiChar raw).toNat ≤ 0x7f := by
        simpa using List.all_eq_true.mp ascii _ (List.mem_of_getElem? occurs)
      obtain same | ⟨-, high, upper⟩ := foldAsciiChar_cases raw <;> omega

/-! ## The two classifiers -/

variable {value : Text}

theorem isAscii_foldAscii16 (ascii : isAscii value) : isAscii (foldAscii16 value) := by
  refine List.all_eq_true.mpr fun unit mem => ?_
  obtain ⟨raw, raw_mem, rfl⟩ := List.mem_map.mp mem
  have small : raw.toNat ≤ 0x7f := by simpa using List.all_eq_true.mp ascii raw raw_mem
  have folded := foldAsciiChar_cases raw
  exact decide_eq_true (by omega)

theorem length_foldAscii16 (value : Text) : (foldAscii16 value).length = value.length :=
  List.length_map _

theorem foldAscii16_ne_nil (nonempty : value ≠ []) : foldAscii16 value ≠ [] := by
  simpa [foldAscii16] using nonempty

/-- The scans find exactly the places where the folded needle stands. -/
theorem horspoolScan_window (ascii : isAscii value) (nonempty : value ≠ []) (haystack : Text) :
    horspoolScan haystack (foldAscii16 value) (buildAsciiShifts (foldAscii16 value))
      haystack.length ((foldAscii16 value).length - 1) = true ↔
      ∃ start, Window haystack (foldAscii16 value) start := by
  have folded := foldAscii16_ne_nil nonempty
  rw [horspoolScan_iff folded (skipSound_buildAsciiShifts folded (isAscii_foldAscii16 ascii)) _ _
    (by omega) le_rfl]
  exact exists_congr fun start => and_iff_right (by omega)

theorem anchorScan_window (nonempty : value ≠ []) (haystack : Text) :
    anchorScan haystack (foldAscii16 value)
      ((foldAscii16 value).getD (chooseAsciiAnchor (foldAscii16 value)) 0)
      (chooseAsciiAnchor (foldAscii16 value)) (chooseAsciiAnchor (foldAscii16 value)) = true ↔
      ∃ start, Window haystack (foldAscii16 value) start := by
  have inside := chooseAsciiAnchor_lt (foldAscii16_ne_nil nonempty)
  rw [anchorScan_iff inside (by simp [inside]) _ le_rfl]
  exact exists_congr fun start => and_iff_right (by omega)

/-- So does the prepared search. -/
theorem asciiFoldContains_iff (ordinal : Ordinal) (haystack : Text) (ascii : isAscii value)
    (nonempty : value ≠ []) :
    asciiFoldContains ordinal haystack (prepareAsciiFoldNeedle value) = true ↔
      ∃ start, Window haystack (foldAscii16 value) start := by
  have folded_nonempty := foldAscii16_ne_nil nonempty
  unfold asciiFoldContains prepareAsciiFoldNeedle
  rw [if_pos ascii]
  simp only [Bool.not_true, Bool.false_or, List.isEmpty_iff]
  rw [if_neg folded_nonempty]
  split_ifs with short long
  · refine iff_of_false (by simp) ?_
    rintro ⟨start, window⟩
    have fits := window.fits folded_nonempty
    omega
  · exact horspoolScan_window ascii nonempty haystack
  · exact anchorScan_window nonempty haystack

theorem prepareAsciiFoldNeedle_ascii (value : Text) :
    (prepareAsciiFoldNeedle value).ascii = isAscii value := by
  unfold prepareAsciiFoldNeedle
  split_ifs with ascii
  · exact ascii.symm
  · exact (Bool.eq_false_iff.mpr ascii).symm

section

variable (ordinal : Ordinal) (name : Text)

theorem foldedEquals16_eq (term : Text) :
    foldedEquals16 ordinal name term =
      if isAscii term then asciiFoldEquals name term else ordinalEqual ordinal name term := by
  unfold foldedEquals16 asciiFoldEquals ordinalEqual
  by_cases same : name.length = term.length
  · simp [same]
  · have differs : foldAscii16 name ≠ foldAscii16 term := by
      intro equal
      exact same (by simpa [length_foldAscii16] using congrArg List.length equal)
    simp [same, differs]

theorem foldedStartsWith16_eq (term : Text) :
    foldedStartsWith16 ordinal name term =
      if isAscii term then asciiFoldStartsWith name term
      else ordinalStartsWith ordinal name term := by
  unfold foldedStartsWith16 asciiFoldStartsWith asciiFoldEquals ordinalStartsWith
  by_cases short : name.length < term.length
  · simp [short]
  · simp [short, Nat.le_of_not_lt short]

theorem foldedContains16_eq {term : Text} (nonempty : term ≠ []) :
    foldedContains16 ordinal name term =
      if isAscii term then asciiFoldContains ordinal name (prepareAsciiFoldNeedle term)
      else ordinalContains ordinal name term := by
  have no_room (short : name.length < term.length) : alignments name term.length = [] := by
    rw [alignments, show name.length + 1 - term.length = 0 by omega, List.range_zero]
  unfold foldedContains16
  rw [if_neg (by simpa using nonempty)]
  split_ifs with short ascii ascii
  · refine (Bool.eq_false_iff.mpr fun found => ?_).symm
    obtain ⟨start, window⟩ := (asciiFoldContains_iff ordinal name ascii nonempty).mp found
    have fits := window.fits (foldAscii16_ne_nil nonempty)
    rw [length_foldAscii16] at fits
    omega
  · simp [ordinalContains, nonempty, no_room short]
  · rw [Bool.eq_iff_iff, asciiFoldContains_iff ordinal name ascii nonempty]
    simpa [length_foldAscii16] using any_alignments name (foldAscii16_ne_nil nonempty)
  · simp [ordinalContains, nonempty]

/-- A borrowed name is classified as the candidate is. -/
theorem classifyMatchView_eq (term : Text) :
    classifyMatchView ordinal name term = classifyMatch ordinal name term := by
  unfold classifyMatchView classifyMatch
  by_cases empty : term.isEmpty
  · rw [if_pos empty, if_pos empty]
  · have nonempty : term ≠ [] := by simpa using empty
    rw [if_neg empty, if_neg empty]
    simp [prepareAsciiFoldNeedle_ascii, ← foldedEquals16_eq, ← foldedStartsWith16_eq,
      ← foldedContains16_eq ordinal name nonempty]

end

end FastFiles.Search
