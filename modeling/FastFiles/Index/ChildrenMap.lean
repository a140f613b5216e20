import FastFiles.Foundations.Buckets
import FastFiles.Foundations.Probing
import FastFiles.Foundations.Transition
import FastFiles.Index.Entry

/-!
# Children in one pool

`FlatChildrenMap` of `FlatHashMap.h` keeps the children of all parents in one array.  A table with
open addressing maps a parent to an offset and a count, its *slice* of the array.  The slice of a
parent that gets another child moves to the tail of the array unless it ends there; a removed child
is replaced by the last one of its slice; a table that is too full, or whose probes run too long, is
rebuilt at twice the size with the slices packed.

The projection's own model has a map from parents to lists in its place (`Slots.parentToChildren`).
`Holds` is the invariant that connects the two: keys are found where they stand, live slices lie
inside the array and have no place in common, and each slice is the list of its key.  Every operation
keeps it, with `Buckets.insert` and `Buckets.remove` on the side of the lists.

`children_exact`: after every sequence of operations the slice of a parent holds the slots that were
added and not removed, each as often, and slices of different parents have no place in common.  The
hash function is a parameter, so nothing rests on how well it spreads the keys; an insertion that
finds no bucket after eight rebuilds throws and adds nothing.
-/

namespace FastFiles.Index

open Probing Function

/-- `keys_`, `states_`, `offsets_` and `counts_` are one table. -/
structure FlatChildrenMap where
  /-- Offset and count of the slice of a live key. -/
  table : List (Bucket EntryKey (Nat × Nat)) := []
  values : List UInt32 := []
  /-- The number of live keys. -/
  count : Nat := 0

namespace FlatChildrenMap

variable (hash : EntryKey → Nat) (map : FlatChildrenMap) (key : EntryKey) (child : UInt32)

/-- `find_slot`; `none` if the probe is exhausted.  In an empty table the source answers 0, which is
the size and which its callers take for a miss. -/
def slot : Option Nat := findSlot (maskedWindow hash) map.table key

/-- The places of a slice. -/
@[grind] def slice (s : Nat × Nat) : List UInt32 := (map.values.drop s.1).take s.2

/-- The live slices. -/
def slices : EntryKey → Option (Nat × Nat) := lookup (maskedWindow hash) map.table

/-- The children of a parent. -/
def find : List UInt32 := ((map.slices hash key).map map.slice).getD []

/-- A key that has no live bucket gets a slice at the tail. -/
def append (children : List UInt32) (index : Nat) : FlatChildrenMap where
  table := map.table.set index (.live key (map.values.length, children.length))
  values := map.values ++ children
  count := map.count + 1

/-- The live keys with their children. -/
def entries : List (EntryKey × List UInt32) :=
  map.table.filterMap fun
    | .live key s => some (key, map.slice s)
    | _ => none

/-- `grow`; `none` is an exception, which leaves no map. -/
def grow (memory size : Nat) : Option FlatChildrenMap :=
  Probing.grow (fun size => { table := .replicate size .empty })
    (fun map entry => (map.slot hash entry.1).map (map.append entry.1 entry.2)) map.entries memory size

/-- The head of the loop of `insert`: a table is at most seven tenths full. -/
def ensureCapacity (memory : Nat) : Option FlatChildrenMap :=
  if map.table.length * 7 / 10 < map.count + 1 then
    map.grow hash memory (if map.table.length = 0 then 8 else map.table.length * 2)
  else some map

/-- The loop of `insert`. -/
def locate (memory : Nat) : Option (FlatChildrenMap × Option Nat) :=
  Probing.locate (·.ensureCapacity hash memory) (·.slot hash key) (·.table.length)
    (fun map => map.grow hash memory (map.table.length * 2)) 8 map

/-- The rest of `insert`: a slice that does not end the array is copied to the tail first. -/
def add (index : Nat) : FlatChildrenMap :=
  match map.table[index]? with
  | some (.live other s) =>
    if s.1 + s.2 = map.values.length then
      { map with
        table := map.table.set index (.live other (s.1, s.2 + 1))
        values := map.values ++ [child] }
    else
      { map with
        table := map.table.set index (.live other (map.values.length, s.2 + 1))
        values := map.values ++ map.slice s ++ [child] }
  | _ => map.append key [child] index

/-- `insert`: the map, and whether it returned. -/
def insert (memory : Nat) : Option (FlatChildrenMap × Bool) :=
  (map.locate hash key memory).map fun found =>
    (found.2.elim found.1 (found.1.add key child), found.2.isSome)

/-- The bucket of a slice that gives up its last place. -/
def shrunk (s : Nat × Nat) : Bucket EntryKey (Nat × Nat) :=
  if s.2 - 1 = 0 then .tombstone else .live key (s.1, s.2 - 1)

/-- The last child moves to the place of the one that is removed. -/
def remove : FlatChildrenMap :=
  match map.slot hash key with
  | none => map
  | some index =>
    match map.table[index]? with
    | some (.live other s) =>
      match (map.slice s).idxOf? child with
      | none => map
      | some i =>
        { table := map.table.set index (shrunk other s)
          values := map.values.set (s.1 + i) (map.values.getD (s.1 + s.2 - 1) 0)
          count := if s.2 - 1 = 0 then map.count - 1 else map.count }
    | _ => map

/-- The places of a live slice. -/
@[grind] def places : Bucket EntryKey (Nat × Nat) → List Nat
  | .live _ s => List.range' s.1 s.2
  | _ => []

/-- `RemapValues`, for the places of its two loops. -/
def remapValues (f : UInt32 → UInt32) : FlatChildrenMap :=
  { map with values := (map.table.flatMap places).foldl (·.modify · f) map.values }

/-! ## What the map holds -/

@[grind] def Covers (s : Nat × Nat) (i : Nat) : Prop := s.1 ≤ i ∧ i < s.1 + s.2

/-- Slices of different keys have no place in common. -/
def Apart (slices : EntryKey → Option (Nat × Nat)) : Prop :=
  ∀ key other s t i, key ≠ other → slices key = some s → slices other = some t →
    Covers s i → ¬ Covers t i

/-- Keys are found, slices stand apart in the pool, and each holds the children of its key. -/
structure Holds (children : Buckets EntryKey UInt32) : Prop where
  placed : Placed (maskedWindow hash) map.table
  inside : ∀ key s, map.slices hash key = some s → s.1 + s.2 ≤ map.values.length
  apart : Apart (map.slices hash)
  content : ∀ key, map.find hash key = children key

variable {hash map key child} {children : Buckets EntryKey UInt32} {index : Nat}

theorem holds_replicate (size : Nat) :
    Holds hash { table := List.replicate size .empty } fun _ => [] where
  placed := placed_replicate size
  inside key s is := by cases (lookup_replicate size).symm.trans is
  apart _ _ s _ _ _ is := by cases (lookup_replicate size).symm.trans is
  content key := by
    rw [find, slices, lookup_replicate]
    rfl

/-- The bucket at the end of a probe is the one of the key. -/
theorem slices_of_found (found : map.slot hash key = some index) :
    map.slices hash key = map.table[index]?.bind Bucket.value? := by
  rw [slices, lookup, show findSlot _ _ _ = _ from found, Option.bind_some]

theorem find_eq {s : Nat × Nat} (is : map.slices hash key = some s) :
    map.find hash key = map.slice s := by
  rw [find, is]
  rfl

section

variable (holds : Holds hash map children)

include holds

section Write

variable (found : map.slot hash key = some index)

include found

/-- **One bucket is written.**  The other slices keep their children, and the new one takes no place
of theirs. -/
theorem Holds.write {bucket : Bucket EntryKey (Nat × Nat)} {values : List UInt32} (count : Nat)
    (own : ∀ other, bucket.stops other = true → other = key)
    (longer : map.values.length ≤ values.length)
    (fits : ∀ s ∈ bucket.value?, s.1 + s.2 ≤ values.length)
    (kept : ∀ other t, other ≠ key → map.slices hash other = some t →
      (values.drop t.1).take t.2 = map.slice t ∧
        ∀ s ∈ bucket.value?, ∀ i, Covers t i → ¬ Covers s i) :
    Holds hash ⟨map.table.set index bucket, values, count⟩ (update children key
      (bucket.value?.elim [] fun s => (values.drop s.1).take s.2)) := by
  have written : slices hash ⟨map.table.set index bucket, values, count⟩ =
      update (map.slices hash) key bucket.value? := holds.placed.lookup_set found own
  refine ⟨holds.placed.set found own, fun other s is => ?_, ?_, fun other => ?_⟩
  · rw [written] at is
    grind [Holds]
  · rw [written]
    intro left right s t i differ
    have := holds.apart left right s t i differ
    grind
  · rw [find, written]
    by_cases same : other = key
    · rw [same, update_self, update_self]
      cases bucket.value? <;> rfl
    · rw [update_of_ne same, update_of_ne same, ← holds.content, find]
      cases is : map.slices hash other with
      | none => rfl
      | some t => exact (kept other t same is).1

/-- The new slice ends the pool; what it takes of the old pool was its own. -/
theorem Holds.extend (count : Nat) (extra : List UInt32) {s : Nat × Nat}
    (ends : s.1 + s.2 = (map.values ++ extra).length)
    (mine : ∀ i < map.values.length, Covers s i → ∃ t, map.slices hash key = some t ∧ Covers t i) :
    Holds hash ⟨map.table.set index (.live key s), map.values ++ extra, count⟩
      (update children key ((map.values ++ extra).drop s.1)) := by
  have whole : ((map.values ++ extra).drop s.1).take s.2 = (map.values ++ extra).drop s.1 :=
    List.take_of_length_le (by rw [List.length_drop]; omega)
  rw [← whole]
  refine holds.write found count (by grind) (by simp) (by grind) fun other t differ is => ?_
  have inside := holds.inside other t is
  refine ⟨by grind, fun s' is' i there here => ?_⟩
  cases is'
  obtain ⟨t', mine, covers⟩ := mine i (by grind) here
  exact holds.apart key other t' t i differ.symm mine is covers there

theorem Holds.append (new : List UInt32) :
    Holds hash (map.append key new index) (update children key new) := by
  have extended := @Holds.extend _ _ _ _ _ holds found (map.count + 1) new
    (map.values.length, new.length) (by simp) (by grind)
  rwa [List.drop_left] at extended

/-- **A child is added at the end of its slice**, wherever that stands afterwards. -/
theorem Holds.add : Holds hash (map.add key child index) (children.insert key child) := by
  obtain ⟨bucket, here, stops⟩ := stops_of_findSlot found
  have is := slices_of_found found
  rw [here, Option.bind_some] at is
  rw [Buckets.insert, ← holds.content, FlatChildrenMap.add, here]
  cases bucket with
  | live other s =>
    cases of_decide_eq_true stops
    have inside := holds.inside key s is
    rw [find_eq is]
    dsimp only
    split_ifs with tail
    · have extended := @Holds.extend _ _ _ _ _ holds found map.count [child] (s.1, s.2 + 1)
        (by grind) (by grind)
      have same : map.slice s ++ [child] = (map.values ++ [child]).drop s.1 := by
        rw [List.drop_append_of_le_length (by omega), slice, List.take_of_length_le (by grind)]
      rwa [same]
    · have extended := @Holds.extend _ _ _ _ _ holds found map.count (map.slice s ++ [child])
        (map.values.length, s.2 + 1) (by grind) (by grind)
      rwa [List.drop_left, ← List.append_assoc] at extended
  | _ =>
    rw [find, is]
    exact holds.append found [child]

/-- The slice with its first `child` removed and its last place given up. -/
theorem Holds.shrink {s : Nat × Nat} (is : map.slices hash key = some s) {i : Nat}
    (first : (map.slice s).idxOf? child = some i) (count : Nat) :
    Holds hash ⟨map.table.set index (shrunk key s),
      map.values.set (s.1 + i) (map.values.getD (s.1 + s.2 - 1) 0), count⟩
      (children.remove key child) := by
  have short : i < s.2 := (List.idxOf?_eq_some_iff.mp first).1.trans_le (List.length_take_le _ _)
  have inside := holds.inside key s is
  set last := map.values.getD (s.1 + s.2 - 1) 0 with lastIs
  set values := map.values.set (s.1 + i) last with written
  have removed : (values.drop s.1).take (s.2 - 1) = swapRemove (map.slice s) child := by
    have ends : (map.slice s).getLast? = some last := by grind
    rw [swapRemove, first, ends, written, ← List.set_drop]
    dsimp only
    rw [List.dropLast_eq_take, slice, ← List.take_set, List.take_take]
    congr 1
    simp
    omega
  have erased : swapRemove (children key) child =
      (shrunk key s).value?.elim [] fun s => (values.drop s.1).take s.2 := by
    rw [← holds.content, find_eq is, ← removed]
    unfold shrunk
    split_ifs with empty
    · rw [empty, List.take_zero]
      rfl
    · rfl
  rw [Buckets.remove, erased]
  refine holds.write found count (by grind [shrunk]) (by simp [written]) (by grind [shrunk])
    fun other t differ there => ?_
  have apart := fun i => holds.apart key other s t i differ.symm is there
  refine ⟨List.ext_getElem? fun j => ?_, by grind [shrunk]⟩
  have := apart (s.1 + i)
  grind

end Write

theorem Holds.remove : Holds hash (map.remove hash key child) (children.remove key child) := by
  have idle (absent : child ∉ map.find hash key) : Holds hash map (children.remove key child) := by
    rwa [Buckets.remove, ← holds.content, swapRemove_of_notMem absent, holds.content, update_eq_self]
  unfold FlatChildrenMap.remove
  split
  · rename_i missed
    exact idle (by simp [find, slices, lookup, show findSlot _ _ _ = _ from missed])
  · rename_i index found
    have is := slices_of_found found
    obtain ⟨bucket, here, stops⟩ := stops_of_findSlot found
    rw [here] at is ⊢
    cases bucket with
    | live other s =>
      cases of_decide_eq_true stops
      dsimp only
      split
      · rename_i missed
        exact idle (by rw [find_eq is]; simpa using missed)
      · rename_i i first
        exact holds.shrink found is first _
    | _ => exact idle (by rw [find, is]; simp [Bucket.value?])

/-! ## Remapping -/

omit holds in
theorem foldl_modify {places : List Nat} (distinct : places.Nodup) (f : UInt32 → UInt32)
    (values : List UInt32) (i : Nat) : (places.foldl (·.modify · f) values)[i]? =
      if i ∈ places then values[i]?.map f else values[i]? := by
  induction places generalizing values with
  | nil => simp
  | cons place places ih =>
    rw [List.nodup_cons] at distinct
    rw [List.foldl_cons, ih distinct.2, List.getElem?_modify]
    grind

theorem Holds.nodup_places : (map.table.flatMap places).Nodup := by
  refine List.nodup_flatMap.mpr ⟨fun bucket _ => ?_, List.pairwise_iff_getElem.mpr ?_⟩
  · cases bucket <;> simp [places, List.nodup_range']
  · intro i j hi hj before
    have live : ∀ {k : Nat} {key s}, map.table[k]? = some (.live key s) →
        map.slot hash key = some k ∧ map.slices hash key = some s := fun is =>
      ⟨holds.placed _ _ _ is, holds.placed.lookup_eq_some_iff.mpr ⟨_, is⟩⟩
    rw [Function.onFun, List.disjoint_left]
    intro place left right
    cases isLeft : map.table[i] with
    | live key s =>
      cases isRight : map.table[j] with
      | live other t =>
        have atLeft := @live i key s (by grind)
        have atRight := @live j other t (by grind)
        have := holds.apart key other s t place (by grind) atLeft.2 atRight.2
        grind
      | _ => grind
    | _ => grind

theorem Holds.remapValues (f : UInt32 → UInt32) :
    Holds hash (map.remapValues f) fun key => (children key).map f := by
  have mapped : ∀ i, (map.remapValues f).values[i]? = _ :=
    foldl_modify holds.nodup_places f map.values
  have length : (map.remapValues f).values.length = map.values.length := by
    have := mapped map.values.length
    have := mapped (map.remapValues f).values.length
    grind
  refine ⟨holds.placed, fun key s is => length ▸ holds.inside key s is, holds.apart, fun key => ?_⟩
  rw [← holds.content]
  cases is : map.slices hash key with
  | none =>
    rw [find, find, show (map.remapValues f).slices hash key = none from is, is]
    rfl
  | some s =>
    obtain ⟨index, live⟩ := holds.placed.lookup_eq_some_iff.mp is
    rw [find_eq is, find_eq (show (map.remapValues f).slices hash key = some s from is)]
    refine List.ext_getElem? fun i => ?_
    have mine : i < s.2 → s.1 + i ∈ map.table.flatMap places := fun short =>
      List.mem_flatMap.mpr ⟨_, List.mem_of_getElem? live, by grind⟩
    have := mapped (s.1 + i)
    grind

/-! ## Growth -/

omit holds in
/-- Entries of which each has the children of its key, placed into what holds the others. -/
theorem Holds.placeAll {old : List (EntryKey × List UInt32)} {next : FlatChildrenMap}
    {held : Buckets EntryKey UInt32} (holds : Holds hash map held)
    (agree : ∀ entry ∈ old, entry.2 = children entry.1)
    (rest : ∀ key, key ∈ old.map Prod.fst ∨ held key = children key)
    (placed : old.foldlM (fun map entry => (map.slot hash entry.1).map (map.append entry.1 entry.2))
      map = some next) : Holds hash next children := by
  induction old generalizing map held with
  | nil =>
    cases placed
    rwa [← show held = children from funext fun key => (rest key).resolve_left (by simp)]
  | cons entry old ih =>
    obtain ⟨middle, first, placed⟩ := Option.bind_eq_some_iff.mp placed
    obtain ⟨index, found, rfl⟩ := Option.map_eq_some_iff.mp first
    exact ih (holds.append found entry.2) (fun e mem => agree e (.tail _ mem)) (by grind) placed

variable {memory : Nat} {next : FlatChildrenMap}

theorem Holds.grow {size : Nat} (grown : map.grow hash memory size = some next) :
    Holds hash next children := by
  have listed : ∀ entry, entry ∈ map.entries ↔
      ∃ s, map.slices hash entry.1 = some s ∧ map.slice s = entry.2 := by
    intro entry
    simp only [slices, holds.placed.lookup_eq_some_iff, entries, List.mem_filterMap,
      ← List.mem_iff_getElem?]
    constructor
    · rintro ⟨bucket, mem, is⟩
      cases bucket <;> grind
    · rintro ⟨s, mem, same⟩
      exact ⟨_, mem, congrArg some (Prod.ext rfl same)⟩
  obtain ⟨larger, -, placed⟩ := grow_spec grown
  refine (holds_replicate larger).placeAll (fun entry mem => ?_) (fun key => ?_) placed
  · obtain ⟨s, is, same⟩ := (listed entry).mp mem
    rw [← holds.content, find_eq is, same]
  · cases is : map.slices hash key with
    | none =>
      rw [← holds.content, find, is]
      exact .inr rfl
    | some s => exact .inl (List.mem_map.mpr ⟨(key, _), (listed _).mpr ⟨s, is, rfl⟩, rfl⟩)

theorem Holds.ensureCapacity (ensured : map.ensureCapacity hash memory = some next) :
    Holds hash next children := by
  unfold FlatChildrenMap.ensureCapacity at ensured
  split at ensured
  · exact holds.grow ensured
  · cases ensured
    exact holds

theorem Holds.locate {result : FlatChildrenMap × Option Nat}
    (located : map.locate hash key memory = some result) :
    Holds hash result.1 children ∧
      ∀ index ∈ result.2, result.1.slot hash key = some index :=
  locate_spec (P := (Holds hash · children)) (fun _ _ holds ensured => holds.ensureCapacity ensured)
    (fun _ _ holds grown => holds.grow grown) holds located

end

end FlatChildrenMap

/-! ## Runs -/

inductive ChildrenAction where
  | insert (key : EntryKey) (child : UInt32) (memory : Nat)
  | remove (key : EntryKey) (child : UInt32)
  | remapValues (f : UInt32 → UInt32)

/-- The map, and for each key what the insertions that returned have added and nothing has removed
since. -/
structure Children where
  map : FlatChildrenMap := {}
  added : EntryKey → Multiset UInt32 := fun _ => 0

namespace Children

open FlatChildrenMap

variable (hash : EntryKey → Nat)

/-- One operation; an insertion that throws while the table is rebuilt is not a step. -/
def step (s : Children) : ChildrenAction → Option Children
  | .insert key child memory => (s.map.insert hash key child memory).map fun result =>
      ⟨result.1, if result.2 then update s.added key (child ::ₘ s.added key) else s.added⟩
  | .remove key child =>
    some ⟨s.map.remove hash key child, update s.added key ((s.added key).erase child)⟩
  | .remapValues f => some ⟨s.map.remapValues f, fun key => (s.added key).map f⟩

/-- The map holds lists of what was added. -/
def Sound (s : Children) : Prop :=
  ∃ lists : Buckets EntryKey UInt32, Holds hash s.map lists ∧
    ∀ key, (lists key : Multiset UInt32) = s.added key

theorem coe_update {lists : Buckets EntryKey UInt32} {added : EntryKey → Multiset UInt32}
    (same : ∀ key, (lists key : Multiset UInt32) = added key) {key : EntryKey} {list : List UInt32}
    {content : Multiset UInt32} (here : (list : Multiset UInt32) = content) (other : EntryKey) :
    (update lists key list other : Multiset UInt32) = update added key content other := by
  by_cases is : other = key
  · rw [is, update_self, update_self, here]
  · rw [update_of_ne is, update_of_ne is, same]

variable {hash}

/-- **One operation.** -/
theorem Sound.step {s s' : Children} (sound : s.Sound hash) {action : ChildrenAction}
    (moved : s.step hash action = some s') : s'.Sound hash := by
  obtain ⟨lists, holds, same⟩ := sound
  cases action with
  | insert key child memory =>
    obtain ⟨result, inserted, rfl⟩ := Option.map_eq_some_iff.mp moved
    obtain ⟨⟨map, place⟩, located, rfl⟩ := Option.map_eq_some_iff.mp inserted
    obtain ⟨ready, found⟩ := holds.locate located
    cases place with
    | none => exact ⟨lists, ready, same⟩
    | some index =>
      refine ⟨lists.insert key child, ready.add (found index rfl), coe_update same ?_⟩
      rw [← same, ← Multiset.coe_add, add_comm]
      rfl
  | remove key child =>
    cases moved
    refine ⟨lists.remove key child, holds.remove, coe_update same ?_⟩
    rw [← same, Multiset.coe_erase]
    exact Multiset.coe_eq_coe.mpr (swapRemove_perm _ _)
  | remapValues f =>
    cases moved
    refine ⟨_, holds.remapValues f, fun key => ?_⟩
    show _ = (s.added key).map f
    rw [← same, Multiset.map_coe]

/-- **Slices hold the children of their parents.** -/
theorem children_exact {s : Children}
    (reach : Transition.Reachable (step hash) (· = {}) (fun _ _ => True) s) :
    (∀ key, (s.map.find hash key : Multiset UInt32) = s.added key) ∧ Apart (s.map.slices hash) := by
  obtain ⟨lists, holds, same⟩ : s.Sound hash :=
    reach.always ⟨_, holds_replicate 0, fun _ => rfl⟩ fun sound _ moved => sound.step moved
  exact ⟨fun key => by rw [holds.content, same], holds.apart⟩

/-- Six parents fill the first table, so the sixth rebuilds it; the first parent's slice then moves
to the tail, another one's is given up, all are renumbered, and the first one grows in place. -/
def growing : List ChildrenAction :=
  ((List.range 6).map fun n => .insert ⟨1, .ofNat n, 0⟩ (.ofNat n) 1) ++
    [.insert ⟨1, 0, 0⟩ 10 1, .remove ⟨1, 3, 0⟩ 3, .remapValues (· + 100), .insert ⟨1, 0, 0⟩ 7 1]

theorem children_exact_growing :
    ∃ s, Transition.run (step (·.frn.low.toNat)) {} growing = some s ∧
      s.map.table.length = 16 ∧
      (s.map.find (·.frn.low.toNat) ⟨1, 0, 0⟩ : Multiset UInt32) = {7, 110, 100} ∧
      Apart (s.map.slices (·.frn.low.toNat)) := by
  have reads : (Transition.run (step (·.frn.low.toNat)) {} growing).map
      (fun s => (s.map.table.length, s.added ⟨1, 0, 0⟩)) = some (16, {7, 110, 100}) := by
    decide +kernel
  obtain ⟨s, ran, read⟩ := Option.map_eq_some_iff.mp reads
  obtain ⟨exact, apart⟩ := children_exact (.of_run (.start rfl) ran)
  obtain ⟨length, added⟩ := Prod.mk.inj read
  exact ⟨s, ran, length, (exact _).trans added, apart⟩

end Children

end FastFiles.Index
