import FastFiles.Foundations.SortedList
import FastFiles.Search.Literal

/-!
# The filename accelerator

The trigram index of `Projection.cpp`: for each trigram of the folded names a posting list of slots,
and a list of the slots whose names the host may match through a unit outside ASCII.

`Tracks` says that the lists are those of the names that the slots hold, and increasing; adding and
removing an entry changes it at one slot (`Tracks.add`, `Tracks.remove`), and a rebuild makes it true
(`tracks_rebuild`).  An index that tracks the names gives every slot whose name contains an ASCII needle
(`mem_candidates`): either no unit of the name folds onto ASCII, and then the match spells the needle's
trigrams, or the slot is exceptional.
-/

namespace FastFiles.Index

open Function

open Search (isAscii foldAsciiChar foldAscii16)

/-! ## Classified units -/

section Classify

-- What the comparison of a unit with an ASCII unit says: equal, or failed.
variable (probe : UInt16 → UInt16 → Bool)

def unitMayFoldToAscii (unit : UInt16) : Bool :=
  if unit.toNat ≤ 0x7f then false
  else if 0xd800 ≤ unit.toNat ∧ unit.toNat ≤ 0xdfff then true
  else (List.range 0x80).any fun ascii => probe unit (.ofNat ascii)

def nameNeedsExceptionalFallback (name : Text) : Bool :=
  name.any fun unit => decide (0x7f < unit.toNat) && unitMayFoldToAscii probe unit

end Classify

/-! ## Trigrams -/

/-- Three units in one number of 64 bits. -/
def packTrigram (first second third : UInt16) : Nat :=
  first.toNat ||| (second.toNat <<< 16) ||| (third.toNat <<< 32)

/-- The trigrams from left to right. -/
def trigrams : Text → List Nat
  | first :: second :: third :: rest => packTrigram first second third :: trigrams (second :: third :: rest)
  | _ => []

def uniqueTrigrams (value : Text) : List Nat := sortUnique (trigrams value)

theorem mem_uniqueTrigrams {value : Text} {trigram : Nat} :
    trigram ∈ uniqueTrigrams value ↔ trigram ∈ trigrams value :=
  mem_sortUnique

theorem nodup_uniqueTrigrams (value : Text) : (uniqueTrigrams value).Nodup :=
  (increasing_sortUnique _).imp ne_of_lt

theorem trigrams_cons_subset (unit : UInt16) (value : Text) :
    trigrams value ⊆ trigrams (unit :: value) := by
  match value with
  | [] => exact List.nil_subset _
  | [_] => exact List.nil_subset _
  | _ :: _ :: _ => exact List.subset_cons_self _ _

/-- A part has no trigram of its own. -/
theorem trigrams_subset_of_infix {part value : Text} (infix_ : part <:+: value) :
    trigrams part ⊆ trigrams value := by
  obtain ⟨before, after, rfl⟩ := infix_
  have front : trigrams part ⊆ trigrams (part ++ after) := by
    fun_induction trigrams part with
    | case1 first second third rest ih =>
      exact List.cons_subset_cons _ ih
    | case2 => exact List.nil_subset _
  rw [List.append_assoc]
  refine List.Subset.trans front ?_
  induction before with
  | nil => exact List.Subset.refl _
  | cons unit before ih => exact List.Subset.trans ih (trigrams_cons_subset unit _)

/-! ## The index -/

structure FilenameIndex where
  valid : Bool
  /-- No list of an absent trigram is kept. -/
  postings : Nat → Option (List Nat)
  exceptional : List Nat

namespace FilenameIndex

/-- What `InvalidateFilenameIndex` leaves. -/
def invalidated : FilenameIndex where
  valid := false
  postings := fun _ => none
  exceptional := []

section Operations

variable (probe : UInt16 → UInt16 → Bool)

/-- A slot goes to its place, or to the end while the lists are being built. -/
def enter (building : Bool) (slot : Nat) (slots : List Nat) : List Nat :=
  if building then slots ++ [slot] else insertSorted slot slots

/-- `AddFilenameIndexEntry`. -/
def addEntry (index : FilenameIndex) (building : Bool) (slot : Nat) (name : Text) : FilenameIndex :=
  if !index.valid then index
  else
    { index with
      exceptional :=
        if nameNeedsExceptionalFallback probe name then enter building slot index.exceptional
        else index.exceptional
      postings := (uniqueTrigrams (foldAscii16 name)).foldl
        (fun postings trigram => update postings trigram
          (some (enter building slot ((postings trigram).getD []))))
        index.postings }

/-- Erase a slot from a posting list, and an empty list from the index. -/
def erasePosting (slot : Nat) (posting : Option (List Nat)) : Option (List Nat) :=
  posting.bind fun slots =>
    if (eraseSorted slot slots).isEmpty then none else some (eraseSorted slot slots)

/-- `RemoveFilenameIndexEntry`. -/
def removeEntry (index : FilenameIndex) (slot : Nat) (name : Text) : FilenameIndex :=
  if !index.valid then index
  else
    { index with
      exceptional :=
        if nameNeedsExceptionalFallback probe name then eraseSorted slot index.exceptional
        else index.exceptional
      postings := (uniqueTrigrams (foldAscii16 name)).foldl
        (fun postings trigram => update postings trigram
          (erasePosting slot (postings trigram)))
        index.postings }

/-- `RebuildFilenameIndex`, over the slots in the order of iteration with their names. -/
def rebuild (rows : List (Nat × Text)) : FilenameIndex :=
  let built := rows.foldl (fun index row => addEntry probe index true row.1 row.2)
    { invalidated with valid := true }
  { built with
    postings := fun trigram => (built.postings trigram).map sortUnique
    exceptional := sortUnique built.exceptional }

end Operations

/-! ## Candidates -/

/-- The posting lists of all trigrams, unless one is missing. -/
def gather (index : FilenameIndex) : List Nat → Option (List (List Nat))
  | [] => some []
  | trigram :: trigrams =>
    match index.postings trigram with
    | none => none
    | some posting => (gather index trigrams).map (posting :: ·)

/-- Whether a number of candidates is too large; no limit is zero. -/
def exceeds (maximumCandidates count : Nat) : Bool :=
  maximumCandidates != 0 && decide (maximumCandidates < count)

/-- The intersection of the lists; `none` when a result on the way is too large. -/
def intersect (maximumCandidates : Nat) : List Nat → List (List Nat) → Option (List Nat)
  | result, [] => some result
  | result, posting :: postings =>
    if result.isEmpty then some result
    else if exceeds maximumCandidates (sortedInter result posting).length then none
    else intersect maximumCandidates (sortedInter result posting) postings

/-- The slots whose folded names have all trigrams. -/
def intersection (index : FilenameIndex) (maximumCandidates : Nat) (trigrams : List Nat) :
    Option (List Nat) :=
  match index.gather trigrams with
  | none => some []
  | some postings =>
    match postings.mergeSort fun left right => left.length ≤ right.length with
    | [] => some []
    | shortest :: others =>
      if exceeds maximumCandidates shortest.length then none
      else intersect maximumCandidates shortest others

/-- `FilenameCandidateIndices`. -/
def candidates (index : FilenameIndex) (foldedNeedle : Text) (maximumCandidates : Nat) :
    Option (List Nat) :=
  if !index.valid || decide (foldedNeedle.length < 3) || !isAscii foldedNeedle then none
  else
    match index.intersection maximumCandidates (uniqueTrigrams foldedNeedle) with
    | none => none
    | some result =>
      if exceeds maximumCandidates result.length then none
      else if index.exceptional.isEmpty then some result
      else if exceeds maximumCandidates (sortedUnion result index.exceptional).length then none
      else some (sortedUnion result index.exceptional)

/-! ## What the lists say -/

/-- The lists are those of the names that the slots hold. -/
structure Tracks (probe : UInt16 → UInt16 → Bool) (index : FilenameIndex) (names : Nat → Option Text) :
    Prop where
  mem_posting : ∀ trigram slot, slot ∈ (index.postings trigram).getD [] ↔
    ∃ name, names slot = some name ∧ trigram ∈ trigrams (foldAscii16 name)
  increasing_posting : ∀ trigram, Increasing ((index.postings trigram).getD [])
  mem_exceptional : ∀ slot, slot ∈ index.exceptional ↔
    ∃ name, names slot = some name ∧ nameNeedsExceptionalFallback probe name = true
  increasing_exceptional : Increasing index.exceptional

variable {keys : List Nat}

/-- Updating different places one after the other. -/
theorem foldl_update {β : Type*} (change : β → β) (nodup : keys.Nodup)
    (values : Nat → β) (key : Nat) :
    keys.foldl (fun values key => update values key (change (values key))) values key =
      if key ∈ keys then change (values key) else values key := by
  induction keys generalizing values with
  | nil => rfl
  | cons first keys ih =>
    obtain ⟨fresh, rest⟩ := List.nodup_cons.mp nodup
    rw [List.foldl_cons, ih rest]
    by_cases same : key = first
    · subst same
      rw [if_neg fresh, if_pos List.mem_cons_self, update_self]
    · rw [update_of_ne same]
      simp [same]

section Entries

variable {probe : UInt16 → UInt16 → Bool} {index : FilenameIndex} {names : Nat → Option Text}
  {other : Nat}

section

variable (valid : index.valid = true)

include valid

theorem postings_addEntry (building : Bool) (slot : Nat) (name : Text) (trigram : Nat) :
    (addEntry probe index building slot name).postings trigram =
      if trigram ∈ trigrams (foldAscii16 name) then
        some (enter building slot ((index.postings trigram).getD []))
      else index.postings trigram := by
  rw [addEntry, if_neg (by simp [valid])]
  simp only [← mem_uniqueTrigrams]
  exact foldl_update (fun posting => some (enter building slot (posting.getD [])))
    (nodup_uniqueTrigrams _) index.postings trigram

theorem postings_removeEntry (slot : Nat) (name : Text) (trigram : Nat) :
    (removeEntry probe index slot name).postings trigram =
      if trigram ∈ trigrams (foldAscii16 name) then erasePosting slot (index.postings trigram)
      else index.postings trigram := by
  rw [removeEntry, if_neg (by simp [valid])]
  simp only [← mem_uniqueTrigrams]
  exact foldl_update (erasePosting slot) (nodup_uniqueTrigrams _) index.postings trigram

theorem exceptional_addEntry (building : Bool) (slot : Nat) (name : Text) :
    (addEntry probe index building slot name).exceptional =
      if nameNeedsExceptionalFallback probe name then enter building slot index.exceptional
      else index.exceptional := by
  rw [addEntry, if_neg (by simp [valid])]

theorem exceptional_removeEntry (slot : Nat) (name : Text) :
    (removeEntry probe index slot name).exceptional =
      if nameNeedsExceptionalFallback probe name then eraseSorted slot index.exceptional
      else index.exceptional := by
  rw [removeEntry, if_neg (by simp [valid])]

end

@[simp] theorem valid_addEntry (index : FilenameIndex) (building : Bool) (slot : Nat) (name : Text) :
    (addEntry probe index building slot name).valid = index.valid := by
  unfold addEntry
  split_ifs <;> rfl

@[simp] theorem valid_removeEntry (index : FilenameIndex) (slot : Nat) (name : Text) :
    (removeEntry probe index slot name).valid = index.valid := by
  unfold removeEntry
  split_ifs <;> rfl

theorem mem_enter {building : Bool} {slot : Nat} {slots : List Nat} :
    other ∈ enter building slot slots ↔ other = slot ∨ other ∈ slots := by
  unfold enter
  split_ifs
  · rw [List.mem_append, List.mem_singleton, or_comm]
  · exact mem_insertSorted

theorem erasePosting_getD (slot : Nat) (posting : Option (List Nat)) :
    (erasePosting slot posting).getD [] = eraseSorted slot (posting.getD []) := by
  cases posting with
  | none => rfl
  | some slots =>
    rw [erasePosting, Option.bind_some, Option.getD_some]
    split_ifs with empty
    · exact (List.isEmpty_iff.mp empty).symm
    · rfl

variable {slot : Nat}

/-- One list of an index: the slots whose names have a property. -/
theorem mem_update_some {names : Nat → Option Text} (free : names slot = none)
    (name : Text) (property : Text → Prop) (other : Nat) :
    (∃ held, update names slot (some name) other = some held ∧ property held) ↔
      other = slot ∧ property name ∨ ∃ held, names other = some held ∧ property held := by
  by_cases same : other = slot
  · subst same
    simp [free]
  · simp [same]

theorem mem_update_none {names : Nat → Option Text} (property : Text → Prop) (other : Nat) :
    (∃ held, update names slot none other = some held ∧ property held) ↔
      other ≠ slot ∧ ∃ held, names other = some held ∧ property held := by
  by_cases same : other = slot
  · subst same
    simp
  · simp [same]

/-- **Adding the name of a free slot.** -/
theorem Tracks.add (tracks : index.Tracks probe names) (valid : index.valid = true)
    (free : names slot = none) (name : Text) :
    (addEntry probe index false slot name).Tracks probe (update names slot (some name)) where
  mem_posting trigram other := by
    rw [mem_update_some free name (fun held => trigram ∈ trigrams (foldAscii16 held)) other,
      postings_addEntry valid, ← tracks.mem_posting]
    split_ifs with here
    · rw [Option.getD_some, mem_enter, and_iff_left here]
    · rw [or_iff_right fun both => here both.2]
  increasing_posting trigram := by
    rw [postings_addEntry valid]
    split_ifs
    · exact (tracks.increasing_posting trigram).insertSorted slot
    · exact tracks.increasing_posting trigram
  mem_exceptional other := by
    rw [mem_update_some free name (fun held => nameNeedsExceptionalFallback probe held = true) other,
      exceptional_addEntry valid, ← tracks.mem_exceptional]
    split_ifs with here
    · rw [mem_enter, and_iff_left here]
    · rw [or_iff_right fun both => here both.2]
  increasing_exceptional := by
    rw [exceptional_addEntry valid]
    split_ifs
    · exact tracks.increasing_exceptional.insertSorted slot
    · exact tracks.increasing_exceptional

variable {name : Text}

/-- **Removing the name that a slot holds.** -/
theorem Tracks.remove (tracks : index.Tracks probe names) (valid : index.valid = true)
    (held : names slot = some name) :
    (removeEntry probe index slot name).Tracks probe (update names slot none) where
  mem_posting trigram other := by
    rw [mem_update_none (fun held => trigram ∈ trigrams (foldAscii16 held)) other,
      postings_removeEntry valid, ← tracks.mem_posting]
    split_ifs with here
    · rw [erasePosting_getD]
      exact mem_eraseSorted (tracks.increasing_posting trigram)
    · -- The slot is not in this list: its name lacks the trigram.
      refine (and_iff_right_of_imp fun member => ?_).symm
      rintro rfl
      obtain ⟨own, is, has⟩ := (tracks.mem_posting trigram other).mp member
      rw [held, Option.some.injEq] at is
      exact here (is ▸ has)
  increasing_posting trigram := by
    rw [postings_removeEntry valid]
    split_ifs
    · rw [erasePosting_getD]
      exact (tracks.increasing_posting trigram).eraseSorted slot
    · exact tracks.increasing_posting trigram
  mem_exceptional other := by
    rw [mem_update_none (fun held => nameNeedsExceptionalFallback probe held = true) other,
      exceptional_removeEntry valid, ← tracks.mem_exceptional]
    split_ifs with here
    · exact mem_eraseSorted tracks.increasing_exceptional
    · refine (and_iff_right_of_imp fun member => ?_).symm
      rintro rfl
      obtain ⟨own, is, needs⟩ := (tracks.mem_exceptional other).mp member
      rw [held, Option.some.injEq] at is
      exact here (is ▸ needs)
  increasing_exceptional := by
    rw [exceptional_removeEntry valid]
    split_ifs
    · exact tracks.increasing_exceptional.eraseSorted slot
    · exact tracks.increasing_exceptional

/-- While the lists are built, a slot stands in them for each row it came with. -/
structure Lists (probe : UInt16 → UInt16 → Bool) (index : FilenameIndex) (rows : List (Nat × Text)) :
    Prop where
  valid : index.valid = true
  mem_posting : ∀ trigram slot, slot ∈ (index.postings trigram).getD [] ↔
    ∃ name, (slot, name) ∈ rows ∧ trigram ∈ trigrams (foldAscii16 name)
  mem_exceptional : ∀ slot, slot ∈ index.exceptional ↔
    ∃ name, (slot, name) ∈ rows ∧ nameNeedsExceptionalFallback probe name = true

variable {rows : List (Nat × Text)}

theorem exists_mem_append_singleton {slot : Nat} (property : Text → Prop) :
    (∃ held, (other, held) ∈ rows ++ [(slot, name)] ∧ property held) ↔
      other = slot ∧ property name ∨ ∃ held, (other, held) ∈ rows ∧ property held := by
  simp only [List.mem_append, List.mem_singleton, Prod.mk.injEq]
  constructor
  · rintro ⟨held, old | ⟨rfl, rfl⟩, has⟩
    · exact .inr ⟨held, old, has⟩
    · exact .inl ⟨rfl, has⟩
  · rintro (⟨rfl, has⟩ | ⟨held, old, has⟩)
    · exact ⟨name, .inr ⟨rfl, rfl⟩, has⟩
    · exact ⟨held, .inl old, has⟩

theorem Lists.addEntry (lists : index.Lists probe rows) (slot : Nat)
    (name : Text) : (addEntry probe index true slot name).Lists probe (rows ++ [(slot, name)]) where
  valid := by rw [valid_addEntry, lists.valid]
  mem_posting trigram other := by
    rw [exists_mem_append_singleton fun held => trigram ∈ trigrams (foldAscii16 held),
      postings_addEntry lists.valid, ← lists.mem_posting]
    split_ifs with here
    · rw [Option.getD_some, mem_enter, and_iff_left here]
    · rw [or_iff_right fun both => here both.2]
  mem_exceptional other := by
    rw [exists_mem_append_singleton fun held => nameNeedsExceptionalFallback probe held = true,
      exceptional_addEntry lists.valid, ← lists.mem_exceptional]
    split_ifs with here
    · rw [mem_enter, and_iff_left here]
    · rw [or_iff_right fun both => here both.2]

theorem Lists.foldl {done : List (Nat × Text)} (lists : index.Lists probe done)
    (rows : List (Nat × Text)) :
    (rows.foldl (fun index row => FilenameIndex.addEntry probe index true row.1 row.2) index).Lists probe
      (done ++ rows) := by
  induction rows generalizing index done with
  | nil =>
    rw [List.append_nil]
    exact lists
  | cons row rows ih =>
    have next := ih (lists.addEntry row.1 row.2)
    rw [List.append_assoc] at next
    exact next

theorem lists_start (probe : UInt16 → UInt16 → Bool) :
    FilenameIndex.Lists probe { invalidated with valid := true } [] where
  valid := rfl
  mem_posting _ _ := by simp [invalidated]
  mem_exceptional _ := by simp [invalidated]

/-- **A rebuild tracks the rows it was given.** -/
theorem tracks_rebuild (probe : UInt16 → UInt16 → Bool)
    {names : Nat → Option Text} (listed : ∀ slot name, (slot, name) ∈ rows ↔ names slot = some name) :
    (rebuild probe rows).Tracks probe names := by
  have built := (lists_start probe).foldl rows
  rw [List.nil_append] at built
  have sorted : ∀ posting : Option (List Nat),
      (posting.map sortUnique).getD [] = sortUnique (posting.getD []) := by
    intro posting
    cases posting with
    | none => simp [sortUnique]
    | some slots => rfl
  refine ⟨fun trigram slot => ?_, fun trigram => ?_, fun slot => ?_, increasing_sortUnique _⟩
  · rw [rebuild]
    dsimp only
    rw [sorted, mem_sortUnique, built.mem_posting]
    simp [listed]
  · rw [rebuild]
    dsimp only
    rw [sorted]
    exact increasing_sortUnique _
  · rw [rebuild]
    dsimp only
    rw [mem_sortUnique, built.mem_exceptional]
    simp [listed]

end Entries

/-! ## Candidates contain every match -/

section Candidates

variable {probe : UInt16 → UInt16 → Bool} {index : FilenameIndex} {names : Nat → Option Text}
  {maximumCandidates : Nat}

variable {postings : List (List Nat)}

theorem gather_eq_some (gathered : index.gather keys = some postings) :
    (∀ key ∈ keys, ∃ posting ∈ postings, index.postings key = some posting) ∧
      ∀ posting ∈ postings, ∃ key ∈ keys, index.postings key = some posting := by
  induction keys generalizing postings with
  | nil =>
    cases gathered
    exact ⟨fun _ none => absurd none List.not_mem_nil, fun _ none => absurd none List.not_mem_nil⟩
  | cons key keys ih =>
    rw [gather] at gathered
    cases found : index.postings key with
    | none =>
      rw [found] at gathered
      cases gathered
    | some first =>
      rw [found] at gathered
      obtain ⟨rest, others, rfl⟩ := Option.map_eq_some_iff.mp gathered
      obtain ⟨of_key, of_posting⟩ := ih others
      refine ⟨fun other member => ?_, fun posting member => ?_⟩
      · rcases List.mem_cons.mp member with rfl | later
        · exact ⟨first, .head _, found⟩
        · obtain ⟨posting, listed, is⟩ := of_key other later
          exact ⟨posting, .tail _ listed, is⟩
      · rcases List.mem_cons.mp member with rfl | later
        · exact ⟨key, .head _, found⟩
        · obtain ⟨other, listed, is⟩ := of_posting posting later
          exact ⟨other, .tail _ listed, is⟩

theorem gather_eq_none (missing : index.gather keys = none) :
    ∃ key ∈ keys, index.postings key = none := by
  induction keys with
  | nil => cases missing
  | cons key keys ih =>
    rw [gather] at missing
    cases found : index.postings key with
    | none => exact ⟨key, .head _, found⟩
    | some first =>
      rw [found] at missing
      obtain ⟨other, member, absent⟩ := ih (Option.map_eq_none_iff.mp missing)
      exact ⟨other, .tail _ member, absent⟩

variable {slots : List Nat}

theorem mem_intersect {result : List Nat}
    (done : intersect maximumCandidates result postings = some slots) (increasing : Increasing result)
    (all : ∀ posting ∈ postings, Increasing posting) (slot : Nat) :
    slot ∈ slots ↔ slot ∈ result ∧ ∀ posting ∈ postings, slot ∈ posting := by
  induction postings generalizing result with
  | nil =>
    cases done
    simp
  | cons posting postings ih =>
    rw [intersect] at done
    split_ifs at done with empty
    · cases done
      rw [List.isEmpty_iff.mp empty]
      simp
    · rw [ih done (increasing.sortedInter posting) fun other member => all other (List.mem_cons_of_mem _ member),
        mem_sortedInter increasing (all posting List.mem_cons_self), List.forall_mem_cons, and_assoc]

/-- The intersection has the slots that stand in every list. -/
theorem mem_intersection (tracks : index.Tracks probe names) (some_key : keys ≠ [])
    (done : index.intersection maximumCandidates keys = some slots) (slot : Nat) :
    slot ∈ slots ↔ ∀ key ∈ keys, slot ∈ (index.postings key).getD [] := by
  rw [intersection] at done
  cases gathered : index.gather keys with
  | none =>
    rw [gathered] at done
    cases done
    obtain ⟨key, member, absent⟩ := gather_eq_none gathered
    refine iff_of_false List.not_mem_nil fun all => ?_
    have listed := all key member
    rw [absent] at listed
    exact List.not_mem_nil listed
  | some postings =>
    rw [gathered] at done
    dsimp only at done
    have sorted := List.mergeSort_perm postings fun left right => decide (left.length ≤ right.length)
    obtain ⟨of_key, of_posting⟩ := gather_eq_some gathered
    have increasing : ∀ posting ∈ postings, Increasing posting := by
      intro posting member
      obtain ⟨key, -, found⟩ := of_posting posting member
      have held := tracks.increasing_posting key
      rw [found] at held
      exact held
    have every : (∀ posting ∈ postings, slot ∈ posting) ↔
        ∀ key ∈ keys, slot ∈ (index.postings key).getD [] := by
      constructor
      · intro all key member
        obtain ⟨posting, listed, found⟩ := of_key key member
        rw [found]
        exact all posting listed
      · intro all posting member
        obtain ⟨key, listed, found⟩ := of_posting posting member
        have here := all key listed
        rw [found] at here
        exact here
    cases shape : postings.mergeSort fun left right => decide (left.length ≤ right.length) with
    | nil =>
      rw [shape] at sorted
      obtain ⟨key, member⟩ := List.exists_mem_of_ne_nil keys some_key
      obtain ⟨posting, listed, -⟩ := of_key key member
      exact absurd (sorted.mem_iff.mpr listed) List.not_mem_nil
    | cons shortest others =>
      rw [shape] at done sorted
      dsimp only at done
      split_ifs at done
      have inside : ∀ posting ∈ shortest :: others, Increasing posting :=
        fun posting member => increasing posting (sorted.mem_iff.mp member)
      rw [mem_intersect done (inside shortest List.mem_cons_self)
          fun posting member => inside posting (List.mem_cons_of_mem _ member),
        ← List.forall_mem_cons (p := fun posting => slot ∈ posting), ← every]
      exact forall_congr' fun posting => imp_congr_left sorted.mem_iff

/-- **The candidates are the intersection and the exceptional slots.** -/
theorem mem_candidates (tracks : index.Tracks probe names) {foldedNeedle : Text}
    (found : index.candidates foldedNeedle maximumCandidates = some slots) (slot : Nat) :
    slot ∈ slots ↔
      (∀ trigram ∈ trigrams foldedNeedle, slot ∈ (index.postings trigram).getD []) ∨
        slot ∈ index.exceptional := by
  rw [candidates] at found
  by_cases refused : (!index.valid || decide (foldedNeedle.length < 3) || !isAscii foldedNeedle) = true
  · rw [if_pos refused] at found
    cases found
  rw [if_neg refused] at found
  cases intersected : index.intersection maximumCandidates (uniqueTrigrams foldedNeedle) with
  | none =>
    rw [intersected] at found
    cases found
  | some result =>
    rw [intersected] at found
    dsimp only at found
    have some_key : uniqueTrigrams foldedNeedle ≠ [] := by
      simp only [Bool.or_eq_true, decide_eq_true_eq, not_or, Nat.not_lt] at refused
      match foldedNeedle, refused.1.2 with
      | first :: second :: third :: rest, _ =>
        exact List.ne_nil_of_mem (mem_uniqueTrigrams.mpr (.head _))
    have within := mem_intersection tracks some_key intersected slot
    simp only [mem_uniqueTrigrams] at within
    split_ifs at found with _ none_exceptional
    · cases found
      rw [List.isEmpty_iff.mp none_exceptional, within, or_iff_left List.not_mem_nil]
    · cases found
      rw [mem_sortedUnion, within]

end Candidates

/-! ## Matches -/

/-- A comparison of units that folds ASCII as ASCII, and nothing onto ASCII but classified units. -/
structure CaseFold (probe : UInt16 → UInt16 → Bool) (same : UInt16 → UInt16 → Prop) : Prop where
  ascii : ∀ left right : UInt16, left.toNat ≤ 0x7f → right.toNat ≤ 0x7f →
    (same left right ↔ foldAsciiChar left = foldAsciiChar right)
  classified : ∀ unit ascii : UInt16, 0x7f < unit.toNat → ascii.toNat ≤ 0x7f → same unit ascii →
    unitMayFoldToAscii probe unit = true

/-- The needle stands in the name under a comparison of units. -/
def Contains (same : UInt16 → UInt16 → Prop) (needle name : Text) : Prop :=
  ∃ window, window <:+: name ∧ List.Forall₂ same window needle

section Matches

variable {probe : UInt16 → UInt16 → Bool} {same : UInt16 → UInt16 → Prop}

/-- Without exceptional units a match spells the folded needle. -/
theorem fold_window_eq (folds : CaseFold probe same) {window needle : Text}
    (matches_ : List.Forall₂ same window needle) (ascii : isAscii needle = true)
    (plain : nameNeedsExceptionalFallback probe window = false) :
    foldAscii16 window = foldAscii16 needle := by
  induction matches_ with
  | nil => rfl
  | @cons unit small window needle equal _ ih =>
    rw [isAscii, List.all_cons, Bool.and_eq_true, decide_eq_true_eq] at ascii
    rw [nameNeedsExceptionalFallback, List.any_cons, Bool.or_eq_false_iff] at plain
    have inside : unit.toNat ≤ 0x7f := by
      by_contra large
      have wide : 0x7f < unit.toNat := Nat.lt_of_not_le large
      have marked := folds.classified unit small wide ascii.1 equal
      rw [marked, decide_eq_true wide] at plain
      exact Bool.noConfusion plain.1
    rw [foldAscii16, foldAscii16, List.map_cons, List.map_cons,
      (folds.ascii unit small inside ascii.1).mp equal]
    exact congrArg _ (ih ascii.2 plain.2)

theorem trigrams_subset_of_contains (folds : CaseFold probe same) {needle : Text}
    (contains : Contains same needle name) (ascii : isAscii needle = true)
    (plain : nameNeedsExceptionalFallback probe name = false) :
    trigrams (foldAscii16 needle) ⊆ trigrams (foldAscii16 name) := by
  obtain ⟨window, part, matches_⟩ := contains
  have plain_window : nameNeedsExceptionalFallback probe window = false := by
    rw [nameNeedsExceptionalFallback, List.any_eq_false] at plain ⊢
    exact fun unit member => plain unit (part.subset member)
  rw [← fold_window_eq folds matches_ ascii plain_window]
  exact trigrams_subset_of_infix (part.map foldAsciiChar)

variable {index : FilenameIndex} {names : Nat → Option Text} {maximumCandidates slot : Nat}
  {needle : Text} {slots : List Nat}

/-- **No match is missed.** -/
theorem mem_candidates_of_contains (folds : CaseFold probe same) (tracks : index.Tracks probe names)
    (ascii : isAscii needle = true)
    (found : index.candidates (foldAscii16 needle) maximumCandidates = some slots)
    (held : names slot = some name) (contains : Contains same needle name) : slot ∈ slots := by
  rw [mem_candidates tracks found]
  cases needs : nameNeedsExceptionalFallback probe name with
  | true => exact .inr ((tracks.mem_exceptional slot).mpr ⟨name, held, needs⟩)
  | false =>
    refine .inl fun trigram member => (tracks.mem_posting trigram slot).mpr ⟨name, held, ?_⟩
    exact trigrams_subset_of_contains folds contains ascii needs member

/-- **Every candidate holds a name.** -/
theorem held_of_mem_candidates (tracks : index.Tracks probe names) {foldedNeedle : Text}
    (found : index.candidates foldedNeedle maximumCandidates = some slots)
    (long : 3 ≤ foldedNeedle.length) (member : slot ∈ slots) : ∃ name, names slot = some name := by
  rcases (mem_candidates tracks found slot).mp member with all | exceptional
  · match foldedNeedle, long with
    | first :: second :: third :: rest, _ =>
      obtain ⟨name, held, -⟩ := (tracks.mem_posting _ slot).mp (all _ (.head _))
      exact ⟨name, held⟩
  · obtain ⟨name, held, -⟩ := (tracks.mem_exceptional slot).mp exceptional
    exact ⟨name, held⟩

theorem isAscii_foldAscii16 (ascii : isAscii needle = true) : isAscii (foldAscii16 needle) = true := by
  rw [isAscii, List.all_eq_true] at ascii ⊢
  intro unit member
  obtain ⟨before, listed, rfl⟩ := List.mem_map.mp member
  have small : before.toNat ≤ 0x7f := by simpa using ascii before listed
  have cases_ := Search.foldAsciiChar_cases before
  simp only [decide_eq_true_eq]
  omega

/-- Without a limit a valid index answers. -/
theorem exists_candidates (valid : index.valid = true) (ascii : isAscii needle = true)
    (long : 3 ≤ needle.length) : ∃ slots, index.candidates (foldAscii16 needle) 0 = some slots := by
  have unlimited : ∀ count, exceeds 0 count = false := fun _ => rfl
  have total : ∀ postings result, ∃ slots, intersect 0 result postings = some slots := by
    intro postings
    induction postings with
    | nil => exact fun result => ⟨result, rfl⟩
    | cons posting postings ih =>
      intro result
      rw [intersect, unlimited, if_neg Bool.false_ne_true]
      split_ifs
      · exact ⟨result, rfl⟩
      · exact ih _
  have intersected : ∃ result, index.intersection 0 (uniqueTrigrams (foldAscii16 needle)) = some result := by
    rw [intersection]
    split
    · exact ⟨[], rfl⟩
    · split
      · exact ⟨[], rfl⟩
      · rw [unlimited, if_neg Bool.false_ne_true]
        exact total _ _
  obtain ⟨result, intersected⟩ := intersected
  have size : (foldAscii16 needle).length = needle.length := List.length_map _
  rw [candidates, valid, isAscii_foldAscii16 ascii, size, decide_eq_false (Nat.not_lt.mpr long),
    if_neg (by decide), intersected]
  dsimp only
  rw [unlimited, unlimited, if_neg Bool.false_ne_true, if_neg Bool.false_ne_true]
  split_ifs
  · exact ⟨_, rfl⟩
  · exact ⟨_, rfl⟩

end Matches

end FilenameIndex

end FastFiles.Index
