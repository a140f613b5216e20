import FastFiles.Index.CandidateText
import FastFiles.Index.Epochs

/-!
# The durable candidate index

The tables that `Store.cpp` keeps beside `entries`: `entry_name_index_map` gives every entry a term
row, `entry_name_terms` has the folded name of a term row, `entry_name_exceptions` has the term rows
whose names the host may match through a unit outside ASCII, and the one row of
`entry_name_index_meta` says whether the tables may be used and under which host they were classified.

`Tracks` says that the tables are those of a table of names; each statement changes it at one key
(`Tracks.upsert`, `Tracks.remove`).  A batch and a forget change the entries and the tables in one
transaction, and a rebuild takes the marker away first and puts it back last, so the tables track the
stored names whenever the marker is there (`Session.Valid`, `valid_run`).
-/

namespace FastFiles.Index

open Function Store StoredRows

/-- What the host's comparison of a unit with an ASCII unit says: equal, or failed. -/
abbrev Probe := UInt16 → UInt16 → Bool

/-! ## The classification of the host -/

section Host

variable (probe : Probe)

def nameRequiresCandidateSideSet (name : Text) : Bool := name.any (unitMayFoldToAscii probe)

/-- The memoised verdict of a unit; ASCII and surrogates are never probed. -/
def foldProbeVerdict (unit : Nat) : UInt64 :=
  if unit < 0x80 ∨ (0xD800 ≤ unit ∧ unit ≤ 0xDFFF) then 0
  else if unitMayFoldToAscii probe (.ofNat unit) then 2 else 1

/-- FNV-1a over the verdicts of all units. -/
@[irreducible] def hostFoldSignature : UInt64 :=
  (List.range 0x10000).foldl
    (fun hash unit => (hash ^^^ foldProbeVerdict probe unit) * 1099511628211) 1469598103934665603

theorem nameRequiresCandidateSideSet_eq (name : Text) :
    nameRequiresCandidateSideSet probe name = nameNeedsExceptionalFallback probe name := by
  unfold nameRequiresCandidateSideSet nameNeedsExceptionalFallback
  congr 1
  funext unit
  by_cases ascii : unit.toNat ≤ 0x7f
  · simp [unitMayFoldToAscii, ascii]
  · simp [Nat.lt_of_not_le ascii]

end Host

/-! ## The tables -/

/-- The row of `entry_name_index_meta`. -/
structure IndexMarker where
  ready : Bool
  foldSignature : UInt64
deriving DecidableEq

structure CandidateIndex where
  /-- The term row of an entry. -/
  map : AList fun _ : EntryKey => Nat
  terms : AList fun _ : Nat => List UInt8
  exceptions : Finset Nat
  marker : Option IndexMarker

namespace CandidateIndex

/-- The tables of a new database. -/
def empty : CandidateIndex where
  map := ∅
  terms := ∅
  exceptions := ∅
  marker := none

variable (probe : Probe) (index : CandidateIndex) (key : EntryKey)

/-- The row id that an insertion into the map gets. -/
def nextTermRowid : Nat :=
  (index.map.entries.map (·.2)).foldr max 0 + 1

/-- `CandidateIndexUpsert`.  Without a name only the map row is made sure of. -/
def upsert (nameUtf8 : List UInt8) (nameUtf16 : Text) (updateName : Bool) : CandidateIndex :=
  let termRowid := (index.map.lookup key).getD index.nextTermRowid
  let map := if (index.map.lookup key).isSome then index.map else index.map.insert key termRowid
  if !updateName then { index with map }
  else
    let marked := insert termRowid index.exceptions
    { index with
      map
      terms := index.terms.insert termRowid (foldAsciiUtf8 nameUtf8)
      exceptions :=
        if nameRequiresCandidateSideSet probe nameUtf16 then marked else marked.erase termRowid }

/-- `CandidateIndexRemove`. -/
def remove : CandidateIndex :=
  match index.map.lookup key with
  | none => index
  | some termRowid =>
    { index with
      map := index.map.erase key
      terms := index.terms.erase termRowid
      exceptions := index.exceptions.erase termRowid }

/-- `CandidateIndexRemoveVolume`: the three tables lose the rows of every key of the volume. -/
def removeVolume (volumeRowId : VolumeRowId) : CandidateIndex :=
  (index.map.keys.filter (·.volumeRowId == volumeRowId)).foldl remove index

/-- What a change of a batch does to the tables. -/
def applyChange (volumeRowId : VolumeRowId) (index : CandidateIndex) (change : EntryChange) :
    CandidateIndex :=
  let key : EntryKey := ⟨volumeRowId, change.record.id⟩
  match change.kind with
  | .upsert => index.upsert probe key (utf16ToUtf8 change.record.name) change.record.name
      (hasEntryField change.fields entryFieldName)
  | .remove => index.remove key

/-! ## What the tables are tables of -/

/-- The tables are those of the names by key. -/
structure Tracks (probe : Probe) (index : CandidateIndex) (names : EntryKey → Option (List UInt8)) :
    Prop where
  mapped : ∀ key, (index.map.lookup key).isSome ↔ (names key).isSome
  injective : ∀ key other rowid, index.map.lookup key = some rowid →
    index.map.lookup other = some rowid → key = other
  term : ∀ key rowid name, index.map.lookup key = some rowid → names key = some name →
    name = [] ∨ index.terms.lookup rowid = some (foldAsciiUtf8 name)
  exceptional : ∀ key rowid name, index.map.lookup key = some rowid → names key = some name →
    nameRequiresCandidateSideSet probe (utf8ToUtf16 name) = true → rowid ∈ index.exceptions

variable {probe : Probe} {index : CandidateIndex} {names : EntryKey → Option (List UInt8)}

section

variable (tracks : Tracks probe index names)

include tracks

theorem Tracks.congr {other : EntryKey → Option (List UInt8)}
    (same : ∀ key, other key = names key) : Tracks probe index other :=
  funext same ▸ tracks

/-- The marker is not a table of names. -/
theorem Tracks.withMarker (marker : Option IndexMarker) :
    Tracks probe { index with marker } names :=
  ⟨tracks.mapped, tracks.injective, tracks.term, tracks.exceptional⟩

/-- The host matters through its classification only. -/
theorem Tracks.host {other : Probe} (same : unitMayFoldToAscii probe = unitMayFoldToAscii other) :
    Tracks other index names where
  mapped := tracks.mapped
  injective := tracks.injective
  term := tracks.term
  exceptional key rowid name found named required :=
    tracks.exceptional key rowid name found named
      (by rwa [nameRequiresCandidateSideSet, same])

end

theorem tracks_nothing (marker : Option IndexMarker) :
    Tracks probe { empty with marker } fun _ => none where
  mapped _ := Iff.rfl
  injective _ _ _ found := nomatch found
  term _ _ _ found := nomatch found
  exceptional _ _ _ found := nomatch found

variable {key : EntryKey} {rowid : Nat}

theorem lt_nextTermRowid (found : index.map.lookup key = some rowid) :
    rowid < index.nextTermRowid := by
  have member : rowid ∈ index.map.entries.map (·.2) :=
    List.mem_map.mpr ⟨⟨key, rowid⟩, AList.mem_lookup_iff.mp found, rfl⟩
  have bound : ∀ rowids : List Nat, rowid ∈ rowids → rowid ≤ rowids.foldr max 0 := by
    intro rowids
    induction rowids with
    | nil => exact fun mem => nomatch mem
    | cons first rowids ih =>
      intro mem
      rcases List.mem_cons.mp mem with rfl | later
      · exact Nat.le_max_left ..
      · exact (ih later).trans (Nat.le_max_right ..)
  exact Nat.lt_succ_of_le (bound _ member)

/-- The term row an upsert writes. -/
def rowidFor (index : CandidateIndex) (key : EntryKey) : Nat :=
  (index.map.lookup key).getD index.nextTermRowid

theorem lookup_map_upsert (key : EntryKey) (nameUtf8 : List UInt8) (nameUtf16 : Text)
    (updateName : Bool) (other : EntryKey) :
    (index.upsert probe key nameUtf8 nameUtf16 updateName).map.lookup other =
      if other = key then some (index.rowidFor key) else index.map.lookup other := by
  have map : (index.upsert probe key nameUtf8 nameUtf16 updateName).map =
      if (index.map.lookup key).isSome then index.map
      else index.map.insert key (index.rowidFor key) := by
    unfold upsert
    cases updateName <;> rfl
  rw [map]
  by_cases same : other = key
  · subst same
    cases present : index.map.lookup other with
    | none => simp
    | some rowid => simp [present, rowidFor]
  · rw [if_neg same]
    split_ifs
    · rfl
    · exact AList.lookup_insert_ne same

/-- The row an upsert writes is the key's own. -/
theorem Tracks.rowidFor_ne (tracks : Tracks probe index names) {other : EntryKey}
    (differs : other ≠ key) (found : index.map.lookup other = some rowid) :
    rowid ≠ index.rowidFor key := by
  intro same
  cases present : index.map.lookup key with
  | none =>
    have fresh := lt_nextTermRowid found
    rw [same, rowidFor, present] at fresh
    exact absurd fresh (Nat.lt_irrefl _)
  | some own =>
    rw [rowidFor, present] at same
    exact differs (tracks.injective other key own (by rw [found, same]; rfl) present)

theorem lookup_terms_upsert (key : EntryKey) (nameUtf8 : List UInt8) (nameUtf16 : Text)
    (updateName : Bool) (rowid : Nat) :
    (index.upsert probe key nameUtf8 nameUtf16 updateName).terms.lookup rowid =
      if updateName ∧ rowid = index.rowidFor key then some (foldAsciiUtf8 nameUtf8)
      else index.terms.lookup rowid := by
  cases updateName with
  | false => rfl
  | true =>
    show (index.terms.insert (index.rowidFor key) (foldAsciiUtf8 nameUtf8)).lookup rowid = _
    by_cases same : rowid = index.rowidFor key
    · rw [same, if_pos ⟨rfl, rfl⟩, AList.lookup_insert]
    · rw [if_neg fun both => same both.2, AList.lookup_insert_ne same]

theorem mem_exceptions_upsert (key : EntryKey) (nameUtf8 : List UInt8) (nameUtf16 : Text)
    (updateName : Bool) (rowid : Nat) :
    rowid ∈ (index.upsert probe key nameUtf8 nameUtf16 updateName).exceptions ↔
      if updateName ∧ rowid = index.rowidFor key then
        nameRequiresCandidateSideSet probe nameUtf16 = true
      else rowid ∈ index.exceptions := by
  cases updateName with
  | false => rfl
  | true =>
    show rowid ∈ (if nameRequiresCandidateSideSet probe nameUtf16 then
      insert (index.rowidFor key) index.exceptions
      else (insert (index.rowidFor key) index.exceptions).erase (index.rowidFor key)) ↔ _
    by_cases same : rowid = index.rowidFor key <;>
      cases nameRequiresCandidateSideSet probe nameUtf16 <;> simp [same]

/-- The name a key has after an upsert. -/
def nameAfter (names : EntryKey → Option (List UInt8)) (key : EntryKey) (nameUtf8 : List UInt8)
    (updateName : Bool) : List UInt8 :=
  if updateName then nameUtf8 else (names key).getD []

section

variable (tracks : Tracks probe index names) {nameUtf8 : List UInt8} {nameUtf16 : Text}

include tracks

theorem Tracks.absent (unmapped : index.map.lookup key = none) : names key = none := by
  rw [← Option.not_isSome_iff_eq_none, ← tracks.mapped key, unmapped]
  exact Bool.false_ne_true

/-- Without a name, an upsert of a new key gives it the empty name, and of an old one its own. -/
theorem Tracks.nameAfter_false (key : EntryKey) (nameUtf8 : List UInt8) :
    nameAfter names key nameUtf8 false = [] ∨
      index.map.lookup key = some (index.rowidFor key) ∧
        names key = some (nameAfter names key nameUtf8 false) := by
  cases present : index.map.lookup key with
  | none => exact .inl (by simp [nameAfter, tracks.absent present])
  | some rowid =>
    obtain ⟨name, named⟩ := Option.isSome_iff_exists.mp
      ((tracks.mapped key).mp (by rw [present]; rfl))
    exact .inr ⟨by simp [rowidFor, present], by simp [nameAfter, named]⟩

/-- Behind an upsert a row has the name that was written, none, or the one it had. -/
theorem Tracks.row_upsert {other : EntryKey} {name : List UInt8} {updateName : Bool}
    (found : (index.upsert probe key nameUtf8 nameUtf16 updateName).map.lookup other = some rowid)
    (named : update names key (some (nameAfter names key nameUtf8 updateName)) other = some name) :
    (updateName = true ∧ rowid = index.rowidFor key) ∧ name = nameUtf8 ∨
      ¬ (updateName = true ∧ rowid = index.rowidFor key) ∧
        (name = [] ∨ index.map.lookup other = some rowid ∧ names other = some name) := by
  rw [lookup_map_upsert] at found
  rw [update_apply] at named
  by_cases same : other = key
  · rw [if_pos same] at found named
    obtain rfl := Option.some.inj found
    obtain rfl := Option.some.inj named
    cases updateName with
    | true => exact .inl ⟨⟨rfl, rfl⟩, rfl⟩
    | false =>
      exact .inr ⟨fun both => Bool.false_ne_true both.1, same ▸ tracks.nameAfter_false key nameUtf8⟩
  · rw [if_neg same] at found named
    exact .inr ⟨fun both => tracks.rowidFor_ne same found both.2, .inr ⟨found, named⟩⟩

/-- **An upsert makes the tables those of the changed name.** -/
theorem Tracks.upsert (key : EntryKey) (decoded : utf8ToUtf16 nameUtf8 = nameUtf16)
    (updateName : Bool) :
    Tracks probe (index.upsert probe key nameUtf8 nameUtf16 updateName)
      (update names key (some (nameAfter names key nameUtf8 updateName))) where
  mapped other := by
    rw [lookup_map_upsert, update_apply]
    by_cases same : other = key
    · simp [same]
    · simpa [same] using tracks.mapped other
  injective left right rowid foundLeft foundRight := by
    rw [lookup_map_upsert] at foundLeft foundRight
    split_ifs at foundLeft foundRight with leftKey rightKey rightKey
    · rw [leftKey, rightKey]
    · exact absurd (Option.some.inj foundLeft).symm (tracks.rowidFor_ne rightKey foundRight)
    · exact absurd (Option.some.inj foundRight).symm (tracks.rowidFor_ne leftKey foundLeft)
    · exact tracks.injective left right rowid foundLeft foundRight
  term other rowid name found named := by
    rw [lookup_terms_upsert]
    rcases tracks.row_upsert found named with ⟨here, rfl⟩ | ⟨apart, rfl | ⟨found, named⟩⟩
    · exact .inr (if_pos here)
    · exact .inl rfl
    · rw [if_neg apart]
      exact tracks.term other rowid name found named
  exceptional other rowid name found named required := by
    rw [mem_exceptions_upsert]
    rcases tracks.row_upsert found named with ⟨here, rfl⟩ | ⟨apart, rfl | ⟨found, named⟩⟩
    · rw [if_pos here, ← decoded]
      exact required
    · rw [utf8ToUtf16] at required
      exact absurd required Bool.false_ne_true
    · rw [if_neg apart]
      exact tracks.exceptional other rowid name found named required

/-- **A removal takes the name away.** -/
theorem Tracks.remove (key : EntryKey) :
    Tracks probe (index.remove key) (update names key none) := by
  unfold CandidateIndex.remove
  cases present : index.map.lookup key with
  | none =>
    rw [← tracks.absent present, update_eq_self]
    exact tracks
  | some own =>
    have others {other : EntryKey} {rowid : Nat}
        (found : (index.map.erase key).lookup other = some rowid) :
        other ≠ key ∧ index.map.lookup other = some rowid ∧ rowid ≠ own := by
      have differs : other ≠ key := by
        rintro rfl
        rw [AList.lookup_erase] at found
        cases found
      rw [AList.lookup_erase_ne differs] at found
      refine ⟨differs, found, ?_⟩
      rintro rfl
      exact differs (tracks.injective other key rowid found present)
    constructor
    · intro other
      by_cases same : other = key
      · subst same
        simp [AList.lookup_erase]
      · simpa [same, AList.lookup_erase_ne same] using tracks.mapped other
    · intro left right rowid foundLeft foundRight
      exact tracks.injective left right rowid (others foundLeft).2.1 (others foundRight).2.1
    · intro other rowid name found named
      obtain ⟨differs, before, apart⟩ := others found
      rw [update_of_ne differs] at named
      show name = [] ∨ (index.terms.erase own).lookup rowid = _
      rw [AList.lookup_erase_ne apart]
      exact tracks.term other rowid name before named
    · intro other rowid name found named required
      obtain ⟨differs, before, apart⟩ := others found
      rw [update_of_ne differs] at named
      exact Finset.mem_erase.mpr ⟨apart, tracks.exceptional other rowid name before named required⟩

theorem Tracks.foldl_remove (keys : List EntryKey) :
    Tracks probe (keys.foldl CandidateIndex.remove index)
      fun key => if key ∈ keys then none else names key := by
  induction keys generalizing index names with
  | nil => simpa using tracks
  | cons first keys ih =>
    refine (ih (tracks.remove first)).congr fun key => ?_
    by_cases here : key = first <;> simp [here]

/-- **A forgotten volume has no names.** -/
theorem Tracks.removeVolume (volumeRowId : VolumeRowId) :
    Tracks probe (index.removeVolume volumeRowId)
      fun key => if key.volumeRowId = volumeRowId then none else names key := by
  refine (tracks.foldl_remove (index.map.keys.filter (·.volumeRowId == volumeRowId))).congr
    fun key => ?_
  by_cases own : key.volumeRowId = volumeRowId
  · by_cases listed : key ∈ index.map.keys
    · simp [own, listed]
    · -- A key of the volume that is not in the map has no name.
      simp [own, listed, tracks.absent (AList.lookup_eq_none.mpr listed)]
  · simp [own]

end

@[simp] theorem upsert_marker (key : EntryKey) (nameUtf8 : List UInt8) (nameUtf16 : Text)
    (updateName : Bool) :
    (index.upsert probe key nameUtf8 nameUtf16 updateName).marker = index.marker := by
  cases updateName <;> rfl

@[simp] theorem remove_marker (key : EntryKey) : (index.remove key).marker = index.marker := by
  unfold remove
  cases index.map.lookup key <;> rfl

@[simp] theorem removeVolume_marker (volumeRowId : VolumeRowId) :
    (index.removeVolume volumeRowId).marker = index.marker := by
  unfold removeVolume
  induction index.map.keys.filter (·.volumeRowId == volumeRowId) generalizing index with
  | nil => rfl
  | cons key keys ih => exact ih.trans (remove_marker key)

theorem foldl_applyChange_marker (volumeRowId : VolumeRowId) (changes : List EntryChange) :
    (changes.foldl (applyChange probe volumeRowId) index).marker = index.marker := by
  induction changes generalizing index with
  | nil => rfl
  | cons change changes ih =>
    refine ih.trans ?_
    unfold applyChange
    cases change.kind
    · exact upsert_marker ..
    · exact remove_marker _

end CandidateIndex

/-! ## The names of the store -/

/-- The name an upsert stores. -/
theorem StoredEntry.name_upsert (fields : EntryFieldMask) (record : EntryRecord)
    (existing : Option StoredEntry) :
    (StoredEntry.upsert fields record existing).name =
      if hasEntryField fields entryFieldName then utf16ToUtf8 record.name
      else (existing.map (·.name)).getD [] := by
  by_cases named : hasEntryField fields entryFieldName = true <;> cases existing <;>
    simp [StoredEntry.upsert, StoredEntry.excluded, StoredEntry.conflict, named]

namespace Store

/-- The stored name of an entry. -/
def names (store : Store) (key : EntryKey) : Option (List UInt8) :=
  ((store.entries key.volumeRowId).lookup key.frn).map (·.name)

/-- The stored names are encoded texts. -/
def Encoded (store : Store) : Prop :=
  ∀ key name, store.names key = some name → ∃ text, utf16ToUtf8 text = name

end Store

variable {rows : StoredRows}

section

variable
  (encoded : ∀ frn name, (rows.lookup frn).map (·.name) = some name → ∃ text, utf16ToUtf8 text = name)

include encoded

/-- A change stores an encoded name or keeps the one that is there. -/
theorem StoredRows.encoded_apply {change : EntryChange} (frn : FileId) (name : List UInt8)
    (found : ((rows.apply change).lookup frn).map (·.name) = some name) :
    ∃ text, utf16ToUtf8 text = name := by
  unfold apply at found
  cases kind : change.kind with
  | upsert =>
    rw [kind] at found
    by_cases here : frn = change.record.id
    · subst here
      simp only [AList.lookup_insert, Option.map_some, StoredEntry.name_upsert,
        Option.some.injEq] at found
      split_ifs at found
      · exact ⟨_, found⟩
      · cases before : (rows.lookup change.record.id).map (·.name) with
        | none => exact ⟨[], by rw [← found, before]; rfl⟩
        | some old =>
          obtain ⟨text, is⟩ := encoded _ old before
          exact ⟨text, by rw [← found, before, is]; rfl⟩
    · simp only [AList.lookup_insert_ne here] at found
      exact encoded frn name found
  | remove =>
    rw [kind] at found
    by_cases here : frn = change.record.id
    · subst here
      simp [AList.lookup_erase] at found
    · simp only [AList.lookup_erase_ne here] at found
      exact encoded frn name found

theorem StoredRows.encoded_foldl (changes : List EntryChange) (frn : FileId) (name : List UInt8)
    (found : ((changes.foldl apply rows).lookup frn).map (·.name) = some name) :
    ∃ text, utf16ToUtf8 text = name := by
  induction changes generalizing rows with
  | nil => exact encoded frn name found
  | cons change changes ih => exact ih (encoded_apply encoded) found

end

open CandidateIndex (Tracks)

variable {names : EntryKey → Option (List UInt8)}

section

variable {probe : Probe} {index : CandidateIndex} (tracks : Tracks probe index names)
  {volumeRowId : VolumeRowId}
  (own : ∀ frn, names ⟨volumeRowId, frn⟩ = (rows.lookup frn).map (·.name))

include tracks own

/-- **A change keeps the tables those of the rows of the volume.** -/
theorem CandidateIndex.Tracks.applyChange (change : EntryChange) :
    ∃ after, Tracks probe (index.applyChange probe volumeRowId change) after ∧
      (∀ frn, after ⟨volumeRowId, frn⟩ = ((rows.apply change).lookup frn).map (·.name)) ∧
      ∀ key, key.volumeRowId ≠ volumeRowId → after key = names key := by
  have apart {key : EntryKey} (differs : key.volumeRowId ≠ volumeRowId) :
      key ≠ ⟨volumeRowId, change.record.id⟩ := fun same => differs (congrArg EntryKey.volumeRowId same)
  have elsewhere {frn : FileId} (differs : frn ≠ change.record.id) :
      (⟨volumeRowId, frn⟩ : EntryKey) ≠ ⟨volumeRowId, change.record.id⟩ :=
    fun same => differs (congrArg EntryKey.frn same)
  unfold CandidateIndex.applyChange apply
  cases change.kind with
  | upsert =>
    refine ⟨_, tracks.upsert _ (utf8ToUtf16_utf16ToUtf8 _) _, fun frn => ?_, fun key differs => ?_⟩
    · by_cases here : frn = change.record.id
      · subst here
        rw [update_self, AList.lookup_insert, CandidateIndex.nameAfter, own,
          Option.map_some, StoredEntry.name_upsert]
      · rw [update_of_ne (elsewhere here), AList.lookup_insert_ne here, own]
    · exact update_of_ne (apart differs) _ _
  | remove =>
    refine ⟨_, tracks.remove _, fun frn => ?_, fun key differs => ?_⟩
    · by_cases here : frn = change.record.id
      · subst here
        rw [update_self, AList.lookup_erase]
        rfl
      · rw [update_of_ne (elsewhere here), AList.lookup_erase_ne here, own]
    · exact update_of_ne (apart differs) _ _

theorem CandidateIndex.Tracks.foldl_applyChange (changes : List EntryChange) :
    ∃ after, Tracks probe (changes.foldl (CandidateIndex.applyChange probe volumeRowId) index) after ∧
      (∀ frn, after ⟨volumeRowId, frn⟩ =
        ((changes.foldl apply rows).lookup frn).map (·.name)) ∧
      ∀ key, key.volumeRowId ≠ volumeRowId → after key = names key := by
  induction changes generalizing index names rows with
  | nil => exact ⟨names, tracks, own, fun _ _ => rfl⟩
  | cons change changes ih =>
    obtain ⟨middle, first, ownMiddle, otherMiddle⟩ := tracks.applyChange own change
    obtain ⟨after, last, ownAfter, otherAfter⟩ := ih first ownMiddle
    exact ⟨after, last, ownAfter, fun key differs =>
      (otherAfter key differs).trans (otherMiddle key differs)⟩

end

/-! ## Transactions -/

structure Database where
  store : Store
  index : CandidateIndex

namespace Database

variable (probe : Probe) (database : Database)

/-- The entries and the tables of the index change in one transaction. -/
def applyBatch (committed : Bool) (volumeRowId : VolumeRowId) (changes : List EntryChange) :
    Option Database :=
  (database.store.applyBatch committed volumeRowId changes).map fun store =>
    { store, index := changes.foldl (CandidateIndex.applyChange probe volumeRowId) database.index }

def forgetVolume (committed : Bool) (volumeRowId : VolumeRowId) : Option Database :=
  (database.store.forgetVolume committed volumeRowId).map fun store =>
    { store, index := database.index.removeVolume volumeRowId }

/-- The tables are those of the stored names. -/
def Indexed : Prop :=
  Tracks probe database.index database.store.names

variable {probe : Probe} {database next : Database} {committed : Bool} {volumeRowId : VolumeRowId}

/-- A write that keeps the store sound, the marker and the index. -/
structure Writes (probe : Probe) (before after : Database) : Prop where
  sound : before.store.Sound → after.store.Sound
  encoded : before.store.Encoded → after.store.Encoded
  marker : after.index.marker = before.index.marker
  indexed : before.Indexed probe → after.Indexed probe

variable {store : Store}

/-- A write of the table of volumes. -/
theorem writes_volumes (sound : database.store.Sound → store.Sound)
    (entries : store.entries = database.store.entries) :
    Writes probe database { database with store } where
  sound := sound
  encoded encoded key name found := encoded key name (by rwa [names, ← entries])
  marker := rfl
  indexed indexed := Tracks.congr indexed fun key => by rw [names, names, entries]

/-- **A batch keeps the index.** -/
theorem writes_applyBatch {changes : List EntryChange}
    (applied : database.applyBatch probe committed volumeRowId changes = some next) :
    Writes probe database next := by
  obtain ⟨store, stored, rfl⟩ := Option.map_eq_some_iff.mp applied
  refine ⟨(edits_applyBatch stored).sound, fun encoded key name found => ?_,
    CandidateIndex.foldl_applyChange_marker volumeRowId changes, fun indexed => ?_⟩
  · rw [names] at found
    by_cases same : key.volumeRowId = volumeRowId
    · rw [same, entries_applyBatch_self stored] at found
      have before : ∀ frn name, ((database.store.entries volumeRowId).lookup frn).map (·.name) =
          some name → ∃ text, utf16ToUtf8 text = name := fun frn => encoded ⟨volumeRowId, frn⟩
      exact encoded_foldl before changes key.frn name found
    · rw [(applyBatch_frame stored).2.2 _ same] at found
      exact encoded key name found
  have rows (frn : FileId) : database.store.names ⟨volumeRowId, frn⟩ =
      ((database.store.entries volumeRowId).lookup frn).map (·.name) := rfl
  obtain ⟨after, tracks, own, others⟩ := Tracks.foldl_applyChange indexed rows changes
  refine tracks.congr fun key => ?_
  by_cases same : key.volumeRowId = volumeRowId
  · subst same
    rw [own key.frn, names, entries_applyBatch_self stored]
  · rw [others key same, names, (applyBatch_frame stored).2.2 _ same]
    rfl

/-- **A forget keeps the index of the other volumes.** -/
theorem writes_forgetVolume (forgotten : database.forgetVolume committed volumeRowId = some next) :
    Writes probe database next := by
  obtain ⟨store, stored, rfl⟩ := Option.map_eq_some_iff.mp forgotten
  have names (key : EntryKey) : store.names key =
      if key.volumeRowId = volumeRowId then none else database.store.names key := by
    obtain ⟨-, rfl⟩ := forgetVolume_eq_some stored
    show ((update database.store.entries volumeRowId ∅ key.volumeRowId).lookup
      key.frn).map _ = _
    by_cases own : key.volumeRowId = volumeRowId
    · rw [if_pos own, own, update_self]
      rfl
    · rw [if_neg own, update_of_ne own]
      rfl
  refine ⟨fun sound => sound.forgetVolume stored, fun encoded key name found => ?_,
    CandidateIndex.removeVolume_marker volumeRowId, fun indexed =>
      (Tracks.removeVolume indexed volumeRowId).congr names⟩
  have before := found
  rw [names] at before
  split_ifs at before
  exact encoded key name before

/-! ## Rebuilds -/

section Rebuild

variable (probe : Probe) (store : Store)

/-- The rows of a volume are entered one by one. -/
def rebuildVolume (index : CandidateIndex) (volumeRowId : VolumeRowId) : CandidateIndex :=
  (store.entries volumeRowId).entries.foldl (fun index row =>
    index.upsert probe ⟨volumeRowId, row.1⟩ row.2.name (utf8ToUtf16 row.2.name) true) index

/-- One transaction for each volume: the tables, the outcomes that are left and whether all
committed. -/
def rebuildVolumes : List VolumeRowId → List Bool → CandidateIndex →
    CandidateIndex × List Bool × Bool
  | [], commits, index => (index, commits, true)
  | volumeRowId :: volumes, commits, index =>
    if commits.headD true then
      rebuildVolumes volumes commits.tail (rebuildVolume probe store index volumeRowId)
    else (index, commits.tail, false)

end Rebuild

def entryCount (store : Store) : Nat :=
  (store.volumes.map fun metadata => (store.entries metadata.rowId).entries.length).sum

/-- The tables after the first transaction. -/
def cleared : CandidateIndex := { CandidateIndex.empty with marker := some ⟨false, 0⟩ }

/-- `RebuildCandidateIndex`: the marker goes first and comes back last. -/
def rebuildCandidateIndex (probe : Probe) (database : Database) (commits : List Bool) :
    Database × Bool :=
  if !commits.headD true then (database, false)
  else
    let (index, rest, built) := rebuildVolumes probe database.store
      (database.store.volumes.map (·.rowId)) commits.tail cleared
    if built && index.map.entries.length == entryCount database.store && rest.headD true then
      ({ database with index := { index with marker := some ⟨true, hostFoldSignature probe⟩ } }, true)
    else ({ database with index }, false)

/-- Whether the tables must be rebuilt when a database of the current version is opened. -/
def rebuildNeeded (probe : Probe) (database : Database) : Bool :=
  match database.index.marker with
  | none => true
  | some marker =>
    !marker.ready || database.index.map.entries.length != entryCount database.store ||
      marker.foldSignature != hostFoldSignature probe

/-- The end of `Store::Open`.  `forced` stands for an older schema and for a marker that could not be
read. -/
def openCandidateIndex (probe : Probe) (database : Database) (forced : Bool) (commits : List Bool) :
    Database × Bool :=
  if forced || rebuildNeeded probe database then rebuildCandidateIndex probe database commits
  else (database, true)

/-- The names of the volumes that were entered. -/
def namesOf (store : Store) (volumes : List VolumeRowId) (key : EntryKey) : Option (List UInt8) :=
  if key.volumeRowId ∈ volumes then store.names key else none

variable {index : CandidateIndex} {done : List VolumeRowId}

/-- Rows entered one after the other: a key has the name of its row, or the one it had. -/
theorem tracks_foldl_upsert (tracks : Tracks probe index names) (volumeRowId : VolumeRowId)
    {rows : List (Sigma fun _ : FileId => StoredEntry)} (distinct : rows.NodupKeys) :
    Tracks probe
      (rows.foldl (fun index row =>
        index.upsert probe ⟨volumeRowId, row.1⟩ row.2.name (utf8ToUtf16 row.2.name) true) index)
      fun key =>
        if key.volumeRowId = volumeRowId then ((rows.dlookup key.frn).map (·.name)).or (names key)
        else names key := by
  induction rows generalizing index names with
  | nil => exact tracks.congr fun key => by simp
  | cons row rows ih =>
    obtain ⟨fresh, rest⟩ := List.nodupKeys_cons.mp distinct
    refine (ih (tracks.upsert _ rfl true) rest).congr fun key => ?_
    by_cases own : key.volumeRowId = volumeRowId
    · subst own
      by_cases here : key.frn = row.1
      · have absent : rows.dlookup row.1 = none := List.dlookup_eq_none.mpr fresh
        have same : (⟨key.volumeRowId, row.1⟩ : EntryKey) = key := by rw [← here]
        rw [if_pos rfl, if_pos rfl, same, update_self, here, absent, List.dlookup_cons_eq]
        rfl
      · have differs : key ≠ ⟨key.volumeRowId, row.1⟩ := fun same => here (congrArg EntryKey.frn same)
        rw [if_pos rfl, if_pos rfl, update_of_ne differs, List.dlookup_cons_ne _ _ here]
    · have differs : key ≠ ⟨volumeRowId, row.1⟩ :=
        fun same => own (congrArg EntryKey.volumeRowId same)
      rw [if_neg own, if_neg own, update_of_ne differs]

theorem tracks_rebuildVolume (tracks : Tracks probe index (namesOf store done))
    (volumeRowId : VolumeRowId) :
    Tracks probe (rebuildVolume probe store index volumeRowId)
      (namesOf store (volumeRowId :: done)) := by
  have entered := tracks_foldl_upsert tracks volumeRowId (store.entries volumeRowId).nodupKeys
  refine entered.congr fun key => ?_
  by_cases own : key.volumeRowId = volumeRowId
  · subst own
    have stored : store.names key =
        ((store.entries key.volumeRowId).entries.dlookup key.frn).map (·.name) := rfl
    rw [if_pos rfl, namesOf, namesOf, if_pos List.mem_cons_self, stored]
    cases (store.entries key.volumeRowId).entries.dlookup key.frn with
    | none => simp
    | some entry => rfl
  · simp [namesOf, own]

theorem tracks_rebuildVolumes (tracks : Tracks probe index (namesOf store done))
    (volumes : List VolumeRowId) (commits : List Bool)
    (built : (rebuildVolumes probe store volumes commits index).2.2 = true) :
    Tracks probe (rebuildVolumes probe store volumes commits index).1
      (namesOf store (volumes ++ done)) := by
  induction volumes generalizing index done commits with
  | nil => exact tracks
  | cons volumeRowId volumes ih =>
    unfold rebuildVolumes at built ⊢
    split_ifs at built ⊢
    refine (ih (tracks_rebuildVolume tracks volumeRowId) commits.tail built).congr fun key => ?_
    simp [namesOf, or_left_comm]

theorem rebuildVolumes_marker (volumes : List VolumeRowId) (commits : List Bool) :
    (rebuildVolumes probe store volumes commits index).1.marker = index.marker := by
  have volume (index : CandidateIndex) (volumeRowId : VolumeRowId) :
      (rebuildVolume probe store index volumeRowId).marker = index.marker := by
    unfold rebuildVolume
    induction (store.entries volumeRowId).entries generalizing index with
    | nil => rfl
    | cons row rows ih => exact (ih _).trans (CandidateIndex.upsert_marker ..)
  induction volumes generalizing index commits with
  | nil => rfl
  | cons volumeRowId volumes ih =>
    unfold rebuildVolumes
    split_ifs
    · exact (ih _).trans (volume index volumeRowId)
    · rfl

/-- With every volume entered, the names are those of the store. -/
theorem namesOf_volumes (sound : store.Sound) (key : EntryKey) :
    store.names key = namesOf store (store.volumes.map (·.rowId)) key := by
  unfold namesOf
  split_ifs with listed
  · rfl
  · have absent : store.hasVolume key.volumeRowId = false := by
      rw [hasVolume, List.any_eq_false]
      intro metadata mem is
      exact listed (List.mem_map.mpr ⟨metadata, mem, eq_of_beq is⟩)
    rw [names, sound.owned _ absent]
    rfl

/-- **What a rebuild can do**: nothing, stop with the marker gone, or make the index of the stored
names. -/
theorem rebuildCandidateIndex_cases {database : Database} (sound : database.store.Sound)
    (commits : List Bool) :
    rebuildCandidateIndex probe database commits = (database, false) ∨
    (∃ index, rebuildCandidateIndex probe database commits = ({ database with index }, false) ∧
      index.marker = some ⟨false, 0⟩) ∨
    ∃ index, rebuildCandidateIndex probe database commits = ({ database with index }, true) ∧
      index.marker = some ⟨true, hostFoldSignature probe⟩ ∧ Tracks probe index database.store.names := by
  unfold rebuildCandidateIndex
  split_ifs with stops
  · exact .inl rfl
  · refine .inr ?_
    dsimp only
    split_ifs with complete
    · rw [Bool.and_eq_true, Bool.and_eq_true] at complete
      have start : Tracks probe cleared (namesOf database.store []) :=
        (CandidateIndex.tracks_nothing _).congr fun key => by simp [namesOf]
      have entered := tracks_rebuildVolumes start _ _ complete.1.1
      rw [List.append_nil] at entered
      refine .inr ⟨_, rfl, rfl, (entered.withMarker _).congr fun key => ?_⟩
      exact namesOf_volumes sound key
    · exact .inl ⟨_, rfl, rebuildVolumes_marker _ _⟩

/-- A database that needs no rebuild has the marker of the host. -/
theorem marker_of_not_needed {database : Database} (current : rebuildNeeded probe database = false) :
    database.index.marker = some ⟨true, hostFoldSignature probe⟩ := by
  unfold rebuildNeeded at current
  cases marked : database.index.marker with
  | none => simp [marked] at current
  | some marker =>
    rw [marked] at current
    simp only [Bool.or_eq_false_iff, Bool.not_eq_false', bne_eq_false_iff_eq] at current
    obtain ⟨⟨ready, -⟩, signed⟩ := current
    rw [← ready, ← signed]

end Database

/-! ## Sessions -/

/-- The database file, and the host of the process that has it open. -/
structure Session where
  database : Database
  opened : Option Probe

inductive SessionAction where
  | openStore (probe : Probe) (forced : Bool) (commits : List Bool)
  | close
  | getOrCreateVolume (inserted : Bool) (key : VolumeKey)
  | setVolumeAvailable (volumeRowId : VolumeRowId) (available : Bool)
  | applyBatch (committed : Bool) (volumeRowId : VolumeRowId) (changes : List EntryChange)
  | forgetVolume (committed : Bool) (volumeRowId : VolumeRowId)

namespace Session

def initial : Session where
  database := { store := .empty, index := .empty }
  opened := none

/-- Nothing is written through a store that is not open. -/
def perform (session : Session) (action : SessionAction) : Session :=
  match action, session.opened with
  | .openStore probe forced commits, _ =>
    let (database, ready) := session.database.openCandidateIndex probe forced commits
    { database, opened := if ready then some probe else none }
  | .close, _ => { session with opened := none }
  | _, none => session
  | .getOrCreateVolume inserted key, some _ =>
    match session.database.store.getOrCreateVolume inserted key with
    | none => session
    | some (_, _, store) => { session with database := { session.database with store } }
  | .setVolumeAvailable volumeRowId available, some _ =>
    { session with
      database := { session.database with
        store := (session.database.store.setVolumeAvailable volumeRowId available).1 } }
  | .applyBatch committed volumeRowId changes, some probe =>
    { session with
      database := (session.database.applyBatch probe committed volumeRowId changes).getD
        session.database }
  | .forgetVolume committed volumeRowId, some _ =>
    { session with
      database := (session.database.forgetVolume committed volumeRowId).getD session.database }

def run (session : Session) (actions : List SessionAction) : Session := actions.foldl perform session

/-- The hosts that open the database. -/
def hosts (actions : List SessionAction) : List Probe :=
  actions.filterMap fun
    | .openStore probe _ _ => some probe
    | _ => none

/-- Hosts with one signature classify every unit alike. -/
def Distinguished (hosts : List Probe) : Prop :=
  ∀ probe ∈ hosts, ∀ other ∈ hosts, hostFoldSignature probe = hostFoldSignature other →
    unitMayFoldToAscii probe = unitMayFoldToAscii other

/-- A marker that is ready belongs to the index of the stored names under its host, and an open store
has the marker of its own host. -/
structure Valid (hosts : List Probe) (session : Session) : Prop where
  sound : session.database.store.Sound
  encoded : session.database.store.Encoded
  marked : ∀ signature, session.database.index.marker = some ⟨true, signature⟩ →
    ∃ probe ∈ hosts, signature = hostFoldSignature probe ∧ session.database.Indexed probe
  opened : ∀ probe, session.opened = some probe → probe ∈ hosts ∧
    session.database.index.marker = some ⟨true, hostFoldSignature probe⟩ ∧
      session.database.Indexed probe

variable {hosts : List Probe} {session : Session}

theorem valid_initial : Valid hosts initial where
  sound := ⟨fun _ mem => (nomatch mem), fun _ _ => rfl⟩
  encoded _ _ found := nomatch found
  marked _ marker := nomatch marker
  opened _ isOpen := nomatch isOpen

variable {probe : Probe}

/-- **What an action can do**: open the store, close it, nothing, or write through an open store and
leave it open. -/
theorem perform_cases (session : Session) (action : SessionAction) :
    (∃ opener forced commits, action = .openStore opener forced commits) ∨ action = .close ∨
    session.perform action = session ∨
    ∃ probe database, session.opened = some probe ∧
      session.perform action = { session with database } ∧
        Database.Writes probe session.database database := by
  obtain ⟨before, _ | probe⟩ := session
  · cases action with
    | openStore opener forced commits => exact .inl ⟨opener, forced, commits, rfl⟩
    | close => exact .inr (.inl rfl)
    | _ => exact .inr (.inr (.inl rfl))
  cases action with
  | openStore opener forced commits => exact .inl ⟨opener, forced, commits, rfl⟩
  | close => exact .inr (.inl rfl)
  | getOrCreateVolume inserted key =>
    refine .inr (.inr ?_)
    simp only [perform]
    cases resolved : before.store.getOrCreateVolume inserted key with
    | none => exact .inl rfl
    | some result =>
      obtain ⟨volumeRowId, created, store⟩ := result
      refine .inr ⟨probe, { before with store }, rfl, rfl, Database.writes_volumes ?_ ?_⟩
      · exact fun sound => sound.getOrCreateVolume resolved
      · exact entries_getOrCreateVolume resolved
  | setVolumeAvailable volumeRowId available =>
    refine .inr (.inr (.inr ⟨probe, _, rfl, rfl, Database.writes_volumes ?_ rfl⟩))
    exact fun sound => sound.setVolumeAvailable volumeRowId available
  | applyBatch committed volumeRowId changes =>
    refine .inr (.inr ?_)
    simp only [perform]
    cases applied : before.applyBatch probe committed volumeRowId changes with
    | none => exact .inl rfl
    | some next => exact .inr ⟨probe, next, rfl, rfl, Database.writes_applyBatch applied⟩
  | forgetVolume committed volumeRowId =>
    refine .inr (.inr ?_)
    simp only [perform]
    cases forgotten : before.forgetVolume committed volumeRowId with
    | none => exact .inl rfl
    | some next => exact .inr ⟨probe, next, rfl, rfl, Database.writes_forgetVolume forgotten⟩

/-- **Opening a database**: a store that opens has the index of its host. -/
theorem Valid.openStore (valid : Valid hosts session) (distinguished : Distinguished hosts)
    (member : probe ∈ hosts) (forced : Bool) (commits : List Bool) :
    Valid hosts (session.perform (.openStore probe forced commits)) := by
  have step : session.perform (.openStore probe forced commits) =
      { database := (session.database.openCandidateIndex probe forced commits).1
        opened := if (session.database.openCandidateIndex probe forced commits).2 then some probe
          else none } := rfl
  rw [step]
  cases needed : forced || session.database.rebuildNeeded probe with
  | true =>
    have rebuilds : session.database.openCandidateIndex probe forced commits =
        session.database.rebuildCandidateIndex probe commits := if_pos needed
    rw [rebuilds]
    rcases Database.rebuildCandidateIndex_cases valid.sound commits with
      same | ⟨index, stopped, marker⟩ | ⟨index, rebuilt, marker, tracks⟩
    · rw [same]
      exact ⟨valid.sound, valid.encoded, valid.marked, fun _ isOpen => by cases isOpen⟩
    · rw [stopped]
      refine ⟨valid.sound, valid.encoded, fun signature ready => ?_, fun _ isOpen => by cases isOpen⟩
      cases marker.symm.trans ready
    · rw [rebuilt]
      refine ⟨valid.sound, valid.encoded, fun signature ready => ?_, fun other isOpen => ?_⟩
      · have same := Option.some.inj (marker.symm.trans ready)
        exact ⟨probe, member, (congrArg IndexMarker.foldSignature same).symm, tracks⟩
      · cases isOpen
        exact ⟨member, marker, tracks⟩
  | false =>
    have keeps : session.database.openCandidateIndex probe forced commits =
        (session.database, true) := if_neg (by rw [needed]; exact Bool.false_ne_true)
    have own := Database.marker_of_not_needed (Bool.or_eq_false_iff.mp needed).2
    rw [keeps]
    refine ⟨valid.sound, valid.encoded, valid.marked, fun other isOpen => ?_⟩
    cases isOpen
    obtain ⟨builder, builds, signature, indexed⟩ := valid.marked _ own
    exact ⟨member, own, indexed.host (distinguished builder builds probe member signature.symm)⟩

/-- A write of the open store. -/
theorem Valid.write (valid : Valid hosts session)
    (isOpen : session.opened = some probe) {database : Database}
    (writes : Database.Writes probe session.database database) :
    Valid hosts { session with database } := by
  obtain ⟨member, own, indexed⟩ := valid.opened probe isOpen
  refine ⟨writes.sound valid.sound, writes.encoded valid.encoded, fun signature ready => ?_, fun other opensOther => ?_⟩
  · have same := Option.some.inj ((writes.marker.trans own).symm.trans ready)
    exact ⟨probe, member, (congrArg IndexMarker.foldSignature same).symm, writes.indexed indexed⟩
  · cases isOpen.symm.trans opensOther
    exact ⟨member, writes.marker.trans own, writes.indexed indexed⟩

/-- Every action keeps the session valid. -/
theorem Valid.perform (valid : Valid hosts session) (distinguished : Distinguished hosts)
    {action : SessionAction}
    (listed : ∀ probe forced commits, action = .openStore probe forced commits → probe ∈ hosts) :
    Valid hosts (session.perform action) := by
  rcases session.perform_cases action with
    ⟨opener, forced, commits, rfl⟩ | rfl | same | ⟨probe, database, isOpen, result, writes⟩
  · exact valid.openStore distinguished (listed opener forced commits rfl) forced commits
  · exact ⟨valid.sound, valid.encoded, valid.marked, fun _ isOpen => by cases isOpen⟩
  · rwa [same]
  · rw [result]
    exact valid.write isOpen writes

/-- **The index of a database that was reached by any actions, whatever of them failed.** -/
theorem valid_run (distinguished : Distinguished hosts) {actions : List SessionAction}
    (listed : ∀ probe ∈ Session.hosts actions, probe ∈ hosts) (valid : Valid hosts session) :
    Valid hosts (session.run actions) := by
  induction actions generalizing session with
  | nil => exact valid
  | cons action actions ih =>
    refine ih (fun probe mem => listed probe ?_) (valid.perform distinguished ?_)
    · rw [Session.hosts, List.filterMap_cons]
      split
      · exact mem
      · exact .tail _ mem
    · rintro probe forced commits rfl
      exact listed probe (.head _)

end Session

end FastFiles.Index
