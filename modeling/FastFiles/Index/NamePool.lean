import FastFiles.Foundations.WideText
import FastFiles.Index.Entry

/-!
# The pool of names

`NamePool` of `NamePool.cpp`: names stand one after another in an arena and are addressed by offset
and length; buckets by hash list the candidates that a new name is compared with.

`interning_exact`: while the names interned have less than 2³² units together, every id handed out
gives its name back at every later time, and two ids are equal exactly if their names are.
-/

namespace FastFiles.Index

open WideText (wide)

/-- `HashName`: FNV-1a over the code units. -/
def hashName (name : Text) : UInt64 :=
  name.foldl (fun hash unit => (hash ^^^ unit.toUInt64) * 1099511628211) 1469598103934665603

structure NameSlot where
  offset : UInt32
  length : UInt32

structure NamePool where
  arena : Text := []
  table : List NameSlot := []
  hashBuckets : UInt64 → List UInt32 := fun _ => []

namespace NamePool

variable (pool : NamePool) (name : Text)

def view (slot : NameSlot) : Text :=
  (pool.arena.drop slot.offset.toNat).take slot.length.toNat

def get (id : UInt32) : Text := (pool.table[id.toNat]?.map pool.view).getD []

/-- A candidate of a bucket holds the name. -/
def holds (id : UInt32) : Bool :=
  pool.table[id.toNat]?.any fun slot => slot.length.toNat == name.length && pool.view slot == name

/-- `Intern`; ids, offsets and lengths are cut to 32 bits. -/
def intern : NamePool × UInt32 :=
  let hash := hashName name
  match (pool.hashBuckets hash).find? (pool.holds name) with
  | some id => (pool, id)
  | none =>
    let newId := .ofNat pool.table.length
    ({ arena := pool.arena ++ name
       table := pool.table ++ [⟨.ofNat pool.arena.length, .ofNat name.length⟩]
       hashBuckets := Function.update pool.hashBuckets hash (pool.hashBuckets hash ++ [newId]) },
      newId)

/-- The pool after a sequence of names, and the ids that were returned for them. -/
def internAll (names : List Text) : NamePool × List UInt32 :=
  names.foldl (fun run name => ((run.1.intern name).1, run.2 ++ [(run.1.intern name).2])) ({}, [])

theorem internAll_concat (names : List Text) (name : Text) :
    internAll (names ++ [name]) = (((internAll names).1.intern name).1,
      (internAll names).2 ++ [((internAll names).1.intern name).2]) :=
  List.foldl_concat ..

/-! ## What the pool holds -/

/-- Different names among others are together no longer than those. -/
theorem sum_length_le {names known : List Text} (distinct : names.Nodup) (within : names ⊆ known) :
    (names.map List.length).sum ≤ (known.map List.length).sum := by
  obtain ⟨part, perm, sublist⟩ := List.subperm_of_subset distinct within
  rw [← (perm.map List.length).sum_eq]
  exact (sublist.map List.length).sum_le_sum fun _ _ => Nat.zero_le _

/-- The table shows the stored names in order; no name is stored twice, and the buckets list every
id under the hash of its name. -/
structure Stores (pool : NamePool) (stored : List Text) : Prop where
  views : pool.table.map pool.view = stored
  flat : pool.arena = stored.flatten
  inside : ∀ slot ∈ pool.table, slot.offset.toNat + slot.length.toNat ≤ pool.arena.length
  distinct : stored.Nodup
  buckets : ∀ hash id, id ∈ pool.hashBuckets hash ↔
    ∃ name, stored[id.toNat]? = some name ∧ hashName name = hash
  /-- Every name but the empty one takes room. -/
  few : stored.length ≤ pool.arena.length + if [] ∈ stored then 1 else 0

variable {pool : NamePool} {stored : List Text} {name : Text} {id : UInt32}

theorem stores_empty : Stores {} [] where
  views := rfl
  flat := rfl
  inside := by simp
  distinct := .nil
  buckets := by simp
  few := Nat.zero_le _

section Stored

variable (stores : Stores pool stored)

include stores

theorem Stores.view_eq : pool.table[id.toNat]?.map pool.view = stored[id.toNat]? := by
  rw [← List.getElem?_map, stores.views]

theorem Stores.get_eq (found : stored[id.toNat]? = some name) : pool.get id = name := by
  rw [get, stores.view_eq, found]
  rfl

theorem Stores.holds_iff : pool.holds name id = true ↔ stored[id.toNat]? = some name := by
  rw [← stores.view_eq, holds]
  cases found : pool.table[id.toNat]? with
  | none => simp
  | some slot =>
    have inside := stores.inside slot (List.mem_of_getElem? found)
    simp only [Option.any_some, Bool.and_eq_true, beq_iff_eq, Option.map_some, Option.some.injEq,
      and_iff_right_iff_imp]
    rintro rfl
    rw [view, List.length_take, List.length_drop]
    omega

theorem Stores.length_table : pool.table.length = stored.length := by
  rw [← stores.views, List.length_map]

theorem Stores.length_arena : pool.arena.length = (stored.map List.length).sum := by
  rw [stores.flat, List.length_flatten]

/-- The arena is no longer than names among which the stored ones are. -/
theorem Stores.length_arena_le {known : List Text} (within : stored ⊆ known) :
    pool.arena.length ≤ (known.map List.length).sum :=
  stores.length_arena ▸ sum_length_le stores.distinct within

theorem Stores.find_eq_none (fresh : name ∉ stored) :
    (pool.hashBuckets (hashName name)).find? (pool.holds name) = none :=
  List.find?_eq_none.mpr fun _ _ held =>
    fresh (List.mem_of_getElem? (stores.holds_iff.mp held))

/-- A name that is stored is found in its bucket, and nothing else is. -/
theorem Stores.find_eq_none_iff (short : pool.arena.length < 2 ^ 32) :
    (pool.hashBuckets (hashName name)).find? (pool.holds name) = none ↔ name ∉ stored := by
  refine ⟨fun none member => ?_, stores.find_eq_none⟩
  have missed := List.find?_eq_none.mp none
  obtain ⟨index, short, found⟩ := List.mem_iff_getElem.mp member
  have few := stores.few
  have bound : index < 2 ^ 32 := by split_ifs at few <;> omega
  have same : (UInt32.ofNat index).toNat = index := UInt32.toNat_ofNat_of_lt' bound
  have here : stored[(UInt32.ofNat index).toNat]? = some name := by
    rw [same, List.getElem?_eq_getElem short, found]
  exact missed _ ((stores.buckets _ _).mpr ⟨name, here, rfl⟩) (stores.holds_iff.mpr here)

/-- A new name is appended to the arena, the table and its bucket, if its place and its length are
not cut. -/
theorem Stores.append (short : pool.arena.length < 2 ^ 32) (ids : stored.length < 2 ^ 32)
    (fits : name.length < 2 ^ 32) (fresh : name ∉ stored) :
    Stores (pool.intern name).1 (stored ++ [name]) ∧
      (pool.intern name).2.toNat = stored.length := by
  have few := stores.few
  have size := stores.length_table
  have newId : (UInt32.ofNat pool.table.length).toNat = stored.length :=
    (UInt32.toNat_ofNat_of_lt' (size ▸ ids)).trans size
  have offset : (UInt32.ofNat pool.arena.length).toNat = pool.arena.length :=
    UInt32.toNat_ofNat_of_lt' short
  have length : (UInt32.ofNat name.length).toNat = name.length := UInt32.toNat_ofNat_of_lt' fits
  rw [intern, stores.find_eq_none fresh]
  refine ⟨⟨?_, ?_, ?_, ?_, ?_, ?_⟩, newId⟩
  · rw [List.map_append, ← stores.views]
    congr 1
    · refine List.map_congr_left fun slot member => ?_
      have inside := stores.inside slot member
      rw [view, view, List.drop_append_of_le_length (by omega),
        List.take_append_of_le_length (by rw [List.length_drop]; omega)]
    · simp [view, offset, length]
  · simp [stores.flat]
  · intro slot member
    have := stores.inside slot
    grind
  · rw [List.nodup_append_comm, List.singleton_append]
    exact stores.distinct.cons fresh
  · intro hash id
    have place : ∀ other, (stored ++ [name])[id.toNat]? = some other ↔
        stored[id.toNat]? = some other ∨ id.toNat = stored.length ∧ name = other := by
      grind
    have last : id.toNat = stored.length ↔ id = .ofNat pool.table.length := by
      rw [← newId, UInt32.toNat_inj]
    simp only [place, last, or_and_right, exists_or, ← stores.buckets]
    by_cases same : hash = hashName name
    · subst same
      simp
    · rw [Function.update_of_ne same]
      simp [Ne.symm same]
  · -- only the empty name takes no room
    grind [List.length_pos_iff]

/-- **One name**: the stored names stay, and the id returned is that of the name.  A name that is
stored needs no room. -/
theorem Stores.intern (short : pool.arena.length < 2 ^ 32)
    (room : name ∉ stored → pool.arena.length + name.length < 2 ^ 32) :
    ∃ later, Stores (pool.intern name).1 later ∧ stored <+: later ∧ later ⊆ name :: stored ∧
      later[(pool.intern name).2.toNat]? = some name := by
  cases found : (pool.hashBuckets (hashName name)).find? (pool.holds name) with
  | some id =>
    rw [NamePool.intern, found]
    exact ⟨stored, stores, List.prefix_rfl, List.subset_cons_self _ _,
      stores.holds_iff.mp (List.find?_some found)⟩
  | none =>
    have fresh := (stores.find_eq_none_iff short).mp found
    have ids : stored.length < 2 ^ 32 := by
      have few := stores.few
      have space := room fresh
      by_cases empty : name = []
      · rw [if_neg (empty ▸ fresh)] at few
        omega
      · have := List.length_pos_iff.mpr empty
        split_ifs at few <;> omega
    obtain ⟨later, last⟩ := stores.append short ids (by have := room fresh; omega) fresh
    refine ⟨_, later, List.prefix_append _ _, ?_, by rw [last, List.getElem?_concat_length]⟩
    exact List.append_subset.mpr ⟨List.subset_cons_self _ _, by simp⟩

/-- A new name is read back from its place, cut to 32 bits. -/
theorem Stores.get_intern_fresh (ids : stored.length < 2 ^ 32) (fits : name.length < 2 ^ 32)
    (fresh : name ∉ stored) :
    (pool.intern name).1.get (pool.intern name).2 =
      ((pool.arena ++ name).drop (pool.arena.length % 2 ^ 32)).take name.length := by
  have newId : (UInt32.ofNat pool.table.length).toNat = pool.table.length :=
    UInt32.toNat_ofNat_of_lt' (stores.length_table ▸ ids)
  have length : (UInt32.ofNat name.length).toNat = name.length := UInt32.toNat_ofNat_of_lt' fits
  rw [NamePool.intern, stores.find_eq_none fresh]
  simp [get, view, newId, length]

/-- In a full arena the next name starts at zero: it is read back as units of the names before. -/
theorem Stores.get_intern_full (full : pool.arena.length = 2 ^ 32) (ids : stored.length < 2 ^ 32)
    {unit : UInt16} (fresh : ∀ other ∈ stored, unit ∉ other) :
    (pool.intern [unit]).1.get (pool.intern [unit]).2 ≠ [unit] := by
  rw [stores.get_intern_fresh ids (by simp) fun here => fresh _ here (List.mem_singleton_self _),
    full, Nat.mod_self, List.drop_zero, List.length_singleton,
    List.take_append_of_le_length (by rw [full]; decide)]
  intro same
  have here : unit ∈ pool.arena := List.mem_of_mem_take (same ▸ List.mem_singleton_self unit)
  rw [stores.flat, List.mem_flatten] at here
  obtain ⟨other, stored, member⟩ := here
  exact fresh other stored member

end Stored

/-- What a run of names leaves: the ids it returned are those of the names.  A name that comes again
takes no room, so it is the names as a set that have to fit. -/
theorem internAll_spec {names known : List Text} (within : names ⊆ known)
    (short : (known.map List.length).sum < 2 ^ 32) :
    ∃ stored, Stores (internAll names).1 stored ∧ stored ⊆ names ∧
      List.Forall₂ (fun id name => stored[id.toNat]? = some name) (internAll names).2 names := by
  induction names using List.reverseRecOn with
  | nil => exact ⟨[], stores_empty, List.nil_subset _, .nil⟩
  | append_singleton names name ih =>
    obtain ⟨before, new⟩ := List.append_subset.mp within
    obtain ⟨stored, stores, listed, returned⟩ := ih before
    have room : name ∉ stored → (internAll names).1.arena.length + name.length < 2 ^ 32 := by
      intro fresh
      have fits := sum_length_le (stores.distinct.cons fresh)
        (List.cons_subset.mpr ⟨new (List.mem_singleton_self _), List.Subset.trans listed before⟩)
      rw [List.map_cons, List.sum_cons] at fits
      rw [stores.length_arena]
      omega
    obtain ⟨_, stores, ⟨rest, rfl⟩, grown, last⟩ := @Stores.intern _ _ name stores
      ((stores.length_arena_le (List.Subset.trans listed before)).trans_lt short) room
    rw [internAll_concat]
    refine ⟨_, stores, ?_, List.rel_append (returned.imp fun id other found => ?_) (.cons last .nil)⟩
    · refine List.Subset.trans grown (List.cons_subset.mpr ⟨by simp, ?_⟩)
      exact List.Subset.trans listed (List.subset_append_left _ _)
    · exact (List.getElem?_append_left (List.getElem?_eq_some_iff.mp found).1).trans found

/-- Every id that was returned gives its name back, and two of them are equal exactly if their names
are. -/
theorem interning_exact (names : List Text) (short : (names.map List.length).sum < 2 ^ 32) :
    let run := internAll names
    run.2.map run.1.get = names ∧
      ∀ a ∈ run.2.zip names, ∀ b ∈ run.2.zip names, a.1 = b.1 ↔ a.2 = b.2 := by
  obtain ⟨stored, stores, -, returned⟩ := internAll_spec (List.Subset.refl names) short
  constructor
  · rw [← List.forall₂_eq_eq_eq, List.forall₂_map_left_iff]
    exact returned.imp fun id name found => stores.get_eq found
  · rintro ⟨id, name⟩ here ⟨other, otherName⟩ there
    have found := (List.forall₂_iff_zip.mp returned).2 here
    have also := (List.forall₂_iff_zip.mp returned).2 there
    constructor
    · rintro rfl
      exact Option.some.inj (found.symm.trans also)
    · rintro rfl
      obtain ⟨inside, is⟩ := List.getElem?_eq_some_iff.mp found
      obtain ⟨inside', is'⟩ := List.getElem?_eq_some_iff.mp also
      exact UInt32.toNat_inj.mp ((stores.distinct.getElem_inj_iff).mp (is.trans is'.symm))

theorem interning_exact_repeated :
    let run := internAll [wide "a", wide "b", wide "a"]
    run.2.map run.1.get = [wide "a", wide "b", wide "a"] :=
  (interning_exact _ (by decide)).1

end NamePool

end FastFiles.Index
