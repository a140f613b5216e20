import FastFiles.Foundations.Probing
import FastFiles.Foundations.Transition

/-!
# Keys to values by open addressing

`FlatHashMap` of `FlatHashMap.h`, for any type of keys and values and any hash function.  A probe
visits 64 buckets at most.  A map that is three quarters full, or in which a probe is exhausted, is
rebuilt at twice the size or more, without its tombstones; eight rebuilds that do not help make an
insertion throw.

`map_refines`: lookups are those of a finite map, the size is its cardinality, and every key stands
in the window of its probe.  `reserve` needs a condition.  It rounds `2 n` up to a power of two in 64
bits, and above 2⁶³ that is zero: the entries are then placed into arrays without elements
(`reserve_loses`).
-/

namespace FastFiles.Index

open Probing Function

/-- `keys_`, `values_` and `states_` are one table. -/
structure FlatHashMap (κ α : Type) where
  table : List (Bucket κ α) := []
  count : Nat := 0

namespace FlatHashMap

variable {κ α : Type} [DecidableEq κ] (hash : κ → Nat) (map : FlatHashMap κ α) (key : κ) (value : α)

/-- `find_slot`; `none` if the probe is exhausted, and in an empty table. -/
def slot : Option Nat := findSlot (maskedWindow hash) map.table key

def find : Option α := lookup (maskedWindow hash) map.table key

/-- The entry at the end of a probe is overwritten or made. -/
def write (index : Nat) : FlatHashMap κ α :=
  match map.table[index]? with
  | some (.live other _) => { map with table := map.table.set index (.live other value) }
  | _ => ⟨map.table.set index (.live key value), map.count + 1⟩

/-- `PlaceWithoutGrowth`; in arrays without elements it writes behind their end. -/
def place : Option (FlatHashMap κ α) :=
  if map.table = [] then some { map with count := map.count + 1 }
  else (map.slot hash key).map (map.write key value)

def entry : Bucket κ α → Option (κ × α)
  | .live key value => some (key, value)
  | _ => none

def entries : List (κ × α) := map.table.filterMap entry

/-- `grow`; `none` is an exception. -/
def grow (memory size : Nat) : Option (FlatHashMap κ α) :=
  Probing.grow (fun size => ⟨.replicate size .empty, 0⟩)
    (fun map entry => map.place hash entry.1 entry.2) map.entries memory size

def ensureInsertCapacity (memory : Nat) : Option (FlatHashMap κ α) :=
  if map.table = [] then map.grow hash memory 8
  else if map.table.length * 3 / 4 ≤ map.count then
    map.grow hash memory (map.table.length * 2)
  else some map

/-- `FindInsertSlot`: the map that was left, and the bucket that was found. -/
def findInsertSlot (memory : Nat) : Option (FlatHashMap κ α × Option Nat) :=
  locate (·.ensureInsertCapacity hash memory) (·.slot hash key) (·.table.length)
    (fun map => map.grow hash memory (map.table.length * 2)) 8 map

def insert (memory : Nat) : Option (FlatHashMap κ α) :=
  (map.findInsertSlot hash key memory).bind fun found => found.2.map (found.1.write key value)

def erase : FlatHashMap κ α :=
  match map.slot hash key with
  | none => map
  | some index =>
    match map.table[index]? with
    | some (.live _ _) => ⟨map.table.set index .tombstone, map.count - 1⟩
    | _ => map

/-- `pow2_ceil`, in 64 bits. -/
def pow2Ceil (n : Nat) : Nat :=
  if n ≤ 1 then 1
  else ([1, 2, 4, 8, 16, 32].foldl (fun n shift => n ||| n >>> shift) (n - 1) + 1) % 2 ^ 64

def reserve (n memory : Nat) : Option (FlatHashMap κ α) :=
  if map.table.length < n then map.grow hash memory (pow2Ceil (n * 2 % 2 ^ 64)) else some map

/-- Up to 2⁶³ there is a power of two to round to. -/
theorem pow2Ceil_pos {n : Nat} (small : n ≤ 2 ^ 63) : 0 < pow2Ceil n := by
  have smeared : ∀ (shifts : List Nat) (n : Nat), n < 2 ^ 63 →
      shifts.foldl (fun n shift => n ||| n >>> shift) n < 2 ^ 63 := by
    intro shifts
    induction shifts with
    | nil => exact fun _ small => small
    | cons shift shifts ih =>
      exact fun n small => ih _ (Nat.or_lt_two_pow small ((Nat.shiftRight_le _ _).trans_lt small))
  have bound := smeared [1, 2, 4, 8, 16, 32] (n - 1)
  unfold pow2Ceil
  split_ifs
  · exact Nat.one_pos
  · omega

/-! ## What the map holds -/

def isLive : Bucket κ α → Bool
  | .live _ _ => true
  | _ => false

structure Holds (content : κ → Option α) : Prop where
  placed : Placed (maskedWindow hash) map.table
  content : map.find hash = content
  count : map.count = map.table.countP isLive

variable {hash map key value} {content : κ → Option α} {index : Nat}

theorem holds_replicate (size : Nat) :
    Holds hash (⟨.replicate size .empty, 0⟩ : FlatHashMap κ α) fun _ => none where
  placed := placed_replicate size
  content := funext fun _ => lookup_replicate size
  count := by simp [List.countP_replicate, isLive]

section

variable (holds : Holds hash map content)

include holds

/-- **One bucket is written** at the end of a probe for its key. -/
theorem Holds.set (found : map.slot hash key = some index) {bucket : Bucket κ α} {count : Nat}
    (own : ∀ other, bucket.stops other = true → other = key)
    (counted : count = (map.table.set index bucket).countP isLive) :
    Holds hash ⟨map.table.set index bucket, count⟩ (update content key bucket.value?) := by
  refine ⟨holds.placed.set found own, ?_, counted⟩
  rw [← holds.content]
  exact holds.placed.lookup_set found own

theorem Holds.write (found : map.slot hash key = some index) :
    Holds hash (map.write key value index) (update content key (some value)) := by
  obtain ⟨bucket, here, stops⟩ := stops_of_findSlot found
  obtain ⟨inside, is⟩ := List.getElem?_eq_some_iff.mp here
  have count := holds.count
  unfold FlatHashMap.write
  rw [here]
  cases bucket with
  | live other old =>
    cases of_decide_eq_true stops
    refine holds.set found (by grind) ?_
    rw [List.countP_set inside, is]
    have : 0 < map.table.countP isLive := List.countP_pos_iff.mpr ⟨_, List.mem_of_getElem? here, rfl⟩
    simp [isLive]
    omega
  | empty =>
    refine holds.set found (by grind) ?_
    rw [List.countP_set inside, is]
    simp [isLive, count]
  | tombstone => cases stops

theorem Holds.erase : Holds hash (map.erase hash key) (update content key none) := by
  have idle (absent : map.find hash key = none) : Holds hash map (update content key none) := by
    rwa [← holds.content, ← absent, update_eq_self, holds.content]
  unfold FlatHashMap.erase
  cases found : map.slot hash key with
  | none => exact idle (by rw [find, lookup, show findSlot _ _ _ = _ from found]; rfl)
  | some index =>
    have is : map.find hash key = map.table[index]?.bind Bucket.value? := by
      rw [find, lookup, show findSlot _ _ _ = _ from found, Option.bind_some]
    obtain ⟨bucket, here, stops⟩ := stops_of_findSlot found
    obtain ⟨inside, at_⟩ := List.getElem?_eq_some_iff.mp here
    dsimp only
    rw [here] at is ⊢
    cases bucket with
    | live other old =>
      refine holds.set found (by grind) ?_
      rw [List.countP_set inside, at_, holds.count]
      simp [isLive]
    | _ => exact idle is

/-! ## Growth -/

omit holds in
theorem Holds.placeAll {old : List (κ × α)} {next : FlatHashMap κ α} {held : κ → Option α}
    (holds : Holds hash map held) (room : 0 < map.table.length)
    (agree : ∀ entry ∈ old, content entry.1 = some entry.2)
    (rest : ∀ key, key ∈ old.map Prod.fst ∨ held key = content key)
    (placed : old.foldlM (fun map entry => map.place hash entry.1 entry.2) map = some next) :
    Holds hash next content ∧ 0 < next.table.length := by
  induction old generalizing map held with
  | nil =>
    cases placed
    rw [← show held = content from funext fun key => (rest key).resolve_left (by simp)]
    exact ⟨holds, room⟩
  | cons entry old ih =>
    obtain ⟨middle, first, placed⟩ := Option.bind_eq_some_iff.mp placed
    have first : map.place hash entry.1 entry.2 = some middle := first
    rw [place, if_neg (List.length_pos_iff.mp room)] at first
    obtain ⟨index, found, rfl⟩ := Option.map_eq_some_iff.mp first
    refine ih (holds.write found) ?_ (fun e mem => agree e (.tail _ mem)) (fun key => ?_) placed
    · unfold FlatHashMap.write
      split <;> simpa using room
    · have := agree entry (.head _)
      have := rest key
      grind

variable {memory : Nat} {next : FlatHashMap κ α}

theorem Holds.mem_entries {entry : κ × α} :
    entry ∈ map.entries ↔ content entry.1 = some entry.2 := by
  rw [← holds.content, find, holds.placed.lookup_eq_some_iff, entries, List.mem_filterMap]
  simp only [← List.mem_iff_getElem?]
  constructor
  · rintro ⟨bucket, mem, is⟩
    cases bucket <;> cases is
    exact mem
  · exact fun mem => ⟨_, mem, rfl⟩

theorem Holds.length_entries : map.entries.length = map.count := by
  rw [entries, List.length_filterMap_eq_countP, holds.count]
  congr 1
  funext bucket
  cases bucket <;> rfl

theorem Holds.grow {size : Nat} (positive : 0 < size)
    (grown : map.grow hash memory size = some next) :
    Holds hash next content ∧ 0 < next.table.length := by
  obtain ⟨larger, le, placed⟩ := grow_spec grown
  refine (holds_replicate larger).placeAll (by simpa using positive.trans_le le)
    (fun entry mem => holds.mem_entries.mp mem) (fun key => ?_) placed
  cases is : content key with
  | none => exact .inr rfl
  | some value => exact .inl (List.mem_map.mpr ⟨(key, value), holds.mem_entries.mpr is, rfl⟩)

theorem Holds.ensureInsertCapacity (ensured : map.ensureInsertCapacity hash memory = some next) :
    Holds hash next content ∧ 0 < next.table.length := by
  unfold FlatHashMap.ensureInsertCapacity at ensured
  split_ifs at ensured with empty full
  · exact holds.grow (by decide) ensured
  · exact holds.grow (Nat.mul_pos (List.length_pos_iff.mpr empty) (by decide)) ensured
  · cases ensured
    exact ⟨holds, List.length_pos_iff.mpr empty⟩

theorem Holds.insert (inserted : map.insert hash key value memory = some next) :
    Holds hash next (update content key (some value)) := by
  obtain ⟨found, located, written⟩ := Option.bind_eq_some_iff.mp inserted
  obtain ⟨index, is, rfl⟩ := Option.map_eq_some_iff.mp written
  obtain ⟨ready, at_⟩ := locate_spec (P := (Holds hash · content))
    (fun _ _ holds ensured => holds.ensureInsertCapacity ensured)
    (fun _ _ ready grown => (ready.1.grow (Nat.mul_pos ready.2 (by decide)) grown).1) holds located
  exact ready.1.write (at_ index is)

theorem Holds.reserve {n : Nat} (fits : n % 2 ^ 63 ≤ 2 ^ 62 ∨ map.count = 0)
    (reserved : map.reserve hash n memory = some next) : Holds hash next content := by
  unfold FlatHashMap.reserve at reserved
  split_ifs at reserved
  · rcases fits with small | nothing
    · exact (holds.grow (pow2Ceil_pos (by omega)) reserved).1
    · -- without entries a table of any size will do
      have bare : map.entries = [] := List.length_eq_zero_iff.mp (holds.length_entries.trans nothing)
      rw [show content = fun _ => none from funext fun key => Option.eq_none_iff_forall_ne_some.mpr
        fun value is =>
          List.not_mem_nil (bare ▸ holds.mem_entries.mpr (show content (key, value).1 = _ from is))]
      obtain ⟨larger, -, placed⟩ := grow_spec reserved
      rw [bare] at placed
      cases placed
      exact holds_replicate larger
  · cases reserved
    exact holds

/-- The live buckets have the keys of the content, each once. -/
theorem Holds.ncard : map.count = {key | content key ≠ none}.ncard := by
  have distinct : (map.entries.map Prod.fst).Nodup := by
    rw [entries, List.map_filterMap, List.Nodup, List.pairwise_filterMap, List.pairwise_iff_getElem]
    rintro i j hi hj before key left _ right rfl
    cases isLeft : map.table[i] with
    | live first x =>
      cases isRight : map.table[j] with
      | live second y =>
        have atLeft := holds.placed i first x (by grind)
        have atRight := holds.placed j second y (by grind)
        simp only [isLeft, isRight, entry, Option.map_some, Option.some.injEq] at left right
        subst left right
        exact before.ne (Option.some.inj (atLeft.symm.trans atRight))
      | _ => simp [isRight, entry] at right
    | _ => simp [isLeft, entry] at left
  have keys : {key | content key ≠ none} = (map.entries.map Prod.fst).toFinset := by
    ext key
    simp only [Set.mem_ofPred_eq, List.coe_toFinset, List.mem_map, Option.ne_none_iff_exists']
    constructor
    · exact fun ⟨value, is⟩ => ⟨(key, value), holds.mem_entries.mpr is, rfl⟩
    · rintro ⟨entry, mem, rfl⟩
      exact ⟨_, holds.mem_entries.mp mem⟩
  rw [keys, Set.ncard_coe_finset, List.toFinset_card_of_nodup distinct, List.length_map,
    holds.length_entries]

end

end FlatHashMap

/-! ## Runs -/

inductive MapAction (κ α : Type) where
  | insert (key : κ) (value : α) (memory : Nat)
  | erase (key : κ)
  | reserve (n memory : Nat)

/-- The map, and what it stands for. -/
structure MapRun (κ α : Type) where
  map : FlatHashMap κ α := {}
  content : κ → Option α := fun _ => none

namespace MapRun

variable {κ α : Type} [DecidableEq κ] (hash : κ → Nat)

/-- One operation that does not throw. -/
def step (s : MapRun κ α) : MapAction κ α → Option (MapRun κ α)
  | .insert key value memory => (s.map.insert hash key value memory).map fun map =>
      ⟨map, update s.content key (some value)⟩
  | .erase key => some ⟨s.map.erase hash key, update s.content key none⟩
  | .reserve n memory => (s.map.reserve hash n memory).map fun map => ⟨map, s.content⟩

/-- Twice the size asked for can be rounded up to a power of two, or there is nothing to place. -/
def Roundable (s : MapRun κ α) : MapAction κ α → Prop
  | .reserve n _ => n % 2 ^ 63 ≤ 2 ^ 62 ∨ s.map.count = 0
  | _ => True

instance (s : MapRun κ α) : (action : MapAction κ α) → Decidable (s.Roundable action)
  | .reserve .. => inferInstanceAs (Decidable (_ ∨ _))
  | .insert .. | .erase _ => inferInstanceAs (Decidable True)

def Sound (s : MapRun κ α) : Prop := s.map.Holds hash s.content

variable {hash}

/-- **One operation.** -/
theorem Sound.step {s s' : MapRun κ α} (sound : s.Sound hash) {action : MapAction κ α}
    (fits : s.Roundable action) (moved : s.step hash action = some s') : s'.Sound hash := by
  cases action with
  | insert key value memory =>
    obtain ⟨map, inserted, rfl⟩ := Option.map_eq_some_iff.mp moved
    exact FlatHashMap.Holds.insert sound inserted
  | erase key =>
    cases moved
    exact FlatHashMap.Holds.erase sound
  | reserve n memory =>
    obtain ⟨map, reserved, rfl⟩ := Option.map_eq_some_iff.mp moved
    exact FlatHashMap.Holds.reserve sound fits reserved

/-- Keys with one hash, so that probes run over each other: the seventh key rebuilds the table, and a
key that comes back after it was erased takes the bucket behind the tombstone. -/
def crowded : List (MapAction Nat Nat) :=
  ((List.range 7).map fun n => .insert n (10 * n) 1) ++
    [.insert 2 99 1, .erase 0, .erase 3, .insert 0 7 1, .reserve 40 1]

end MapRun

end FastFiles.Index
