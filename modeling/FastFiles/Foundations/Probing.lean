import Mathlib

/-!
# Open addressing

A probe for a key visits a window of buckets and ends at an empty one or at the key.  Keys are
written where their probe ends, and a removed key leaves a tombstone, which no probe ends at.

`Placed` says that every key is found where it stands.  A write at the end of a probe keeps it
(`Placed.set`) and updates the table as a map (`Placed.lookup_set`), whatever the windows are.

Tables grow by doubling until all entries have a bucket, and an insertion whose probe is exhausted
tries again in a larger table.  `grow_spec` and `locate_spec` are the rules for these two loops, for
any state that has such a table in it.
-/

namespace FastFiles.Probing

inductive Bucket (κ α : Type) where
  | empty
  | tombstone
  | live (key : κ) (value : α)

variable {κ α : Type} [DecidableEq κ]

/-- A probe for the key ends here. -/
@[grind] def Bucket.stops (key : κ) : Bucket κ α → Bool
  | .empty => true
  | .tombstone => false
  | .live other _ => other = key

@[grind] def Bucket.value? : Bucket κ α → Option α
  | .live _ value => some value
  | _ => none

variable (window : Nat → κ → List Nat) (table : List (Bucket κ α))

/-- Where a probe ends; `none` if it is exhausted. -/
def findSlot (key : κ) : Option Nat :=
  (window table.length key).find? fun index => table[index]?.any (Bucket.stops key)

def lookup (key : κ) : Option α :=
  (findSlot window table key).bind fun index => table[index]?.bind Bucket.value?

/-- Every live bucket is where the probe for its key ends. -/
def Placed : Prop :=
  ∀ index key value, table[index]? = some (.live key value) → findSlot window table key = some index

variable {window table} {key : κ} {index : Nat}

theorem placed_replicate (size : Nat) : Placed window (List.replicate size (.empty : Bucket κ α)) := by
  intro index key value live
  cases List.eq_of_mem_replicate (List.mem_of_getElem? live)

theorem lookup_replicate (size : Nat) :
    lookup window (List.replicate size (.empty : Bucket κ α)) key = none := by
  rw [lookup, Option.bind_eq_none_iff]
  grind

/-- The bucket at the end of a probe. -/
theorem stops_of_findSlot (found : findSlot window table key = some index) :
    ∃ bucket, table[index]? = some bucket ∧ bucket.stops key = true := by
  have stops := List.find?_some found
  rwa [Option.any_eq_true] at stops

theorem Placed.lookup_eq_some_iff (placed : Placed window table) {value : α} :
    lookup window table key = some value ↔ ∃ index : Nat, table[index]? = some (.live key value) := by
  constructor
  · intro looked
    obtain ⟨index, found, held⟩ := Option.bind_eq_some_iff.mp looked
    obtain ⟨bucket, here, stops⟩ := stops_of_findSlot found
    cases bucket <;> grind
  · rintro ⟨index, live⟩
    rw [lookup, placed _ _ _ live, Option.bind_some, live]
    rfl

section Write

variable (placed : Placed window table) (found : findSlot window table key = some index)
  {bucket : Bucket κ α} (own : ∀ other, bucket.stops other = true → other = key)

include placed found own

/-- A write at the end of a probe for its key leaves every key where it is found. -/
theorem Placed.set : Placed window (table.set index bucket) := by
  obtain ⟨old, before, stopped⟩ := stops_of_findSlot found
  intro place other value live
  have ended : findSlot window table other = some place := by
    have := placed place other value
    have := own other
    grind
  -- where the probe did not end before, it does not end now
  obtain ⟨-, front, back, split, passed⟩ := List.find?_eq_some_iff_append.mp ended
  refine List.find?_eq_some_iff_append.mpr
    ⟨by simp [live, Bucket.stops], front, back, by rw [List.length_set, split], fun i mem => ?_⟩
  have := passed i mem
  have := own other
  grind

theorem Placed.lookup_set : lookup window (table.set index bucket) =
    Function.update (lookup window table) key bucket.value? := by
  obtain ⟨old, before, stopped⟩ := stops_of_findSlot found
  funext other
  ext value
  have unique := fun place => placed place other value
  have := own other
  rw [(placed.set found own).lookup_eq_some_iff, Function.update_apply]
  split_ifs with same
  · constructor
    · grind
    · intro held
      refine ⟨index, ?_⟩
      cases bucket with
      | live stored _ => grind [own stored (by simp [Bucket.stops])]
      | _ => cases held
  · rw [placed.lookup_eq_some_iff]
    refine exists_congr fun place => ?_
    grind

end Write

/-- The 64 buckets of a probe, from the hash of its key on; a mask, the size less one, takes the
place of a remainder. -/
def maskedWindow (hash : κ → Nat) (size : Nat) (key : κ) : List Nat :=
  List.iterate (fun index => (index + 1) &&& (size - 1)) (hash key &&& (size - 1)) 64

/-! ## Growth -/

section Growth

variable {σ ε : Type}

/-- Ever larger tables until every entry has a bucket.  The machine has memory for so many of them;
`none` is an exception. -/
def grow (fresh : Nat → σ) (place : σ → ε → Option σ) (old : List ε) : (memory size : Nat) → Option σ
  | 0, _ => none
  | memory + 1, size =>
    old.foldlM place (fresh size) <|>
      if 2 ^ 63 ≤ size then none else grow fresh place old memory (size * 2)

theorem grow_spec {fresh : Nat → σ} {place : σ → ε → Option σ} {old : List ε} {memory size : Nat}
    {next : σ} (grown : grow fresh place old memory size = some next) :
    ∃ larger, size ≤ larger ∧ old.foldlM place (fresh larger) = some next := by
  induction memory generalizing size with
  | zero => cases grown
  | succ memory ih =>
    rw [grow, Option.orElse_eq_some] at grown
    rcases grown with done | ⟨-, again⟩
    · exact ⟨size, le_rfl, done⟩
    · split_ifs at again
      obtain ⟨larger, le, done⟩ := ih again
      exact ⟨larger, by omega, done⟩

variable (ensure : σ → Option σ) (slot : σ → Option Nat) (size : σ → Nat) (regrow : σ → Option σ)

/-- The loop of an insertion, with the rebuilds it may still make.  Without a bucket it throws, and
the table is the rebuilt one. -/
def locate : Nat → σ → Option (σ × Option Nat)
  | 0, s => (ensure s).map fun s => (s, slot s)
  | rehashes + 1, s => (ensure s).bind fun s =>
      match slot s with
      | some index => some (s, some index)
      | none =>
        if 2 ^ 63 ≤ size s then some (s, none) else (regrow s).bind (locate rehashes)

variable {ensure slot size regrow} {P Q : σ → Prop}

theorem locate_spec (ensured : ∀ s next, P s → ensure s = some next → Q next)
    (regrown : ∀ s next, Q s → regrow s = some next → P next) {rehashes : Nat} {s : σ}
    (holds : P s) {result : σ × Option Nat}
    (located : locate ensure slot size regrow rehashes s = some result) :
    Q result.1 ∧ ∀ index ∈ result.2, slot result.1 = some index := by
  induction rehashes generalizing s with
  | zero =>
    obtain ⟨next, ready, rfl⟩ := Option.map_eq_some_iff.mp located
    exact ⟨ensured s next holds ready, fun index mem => mem⟩
  | succ rehashes ih =>
    obtain ⟨next, ready, located⟩ := Option.bind_eq_some_iff.mp located
    have same := ensured s next holds ready
    split at located
    · cases located
      exact ⟨same, by grind⟩
    · split_ifs at located
      · cases located
        exact ⟨same, by grind⟩
      · obtain ⟨grown, grows, located⟩ := Option.bind_eq_some_iff.mp located
        exact ih (regrown next grown same grows) located

end Growth

end FastFiles.Probing
