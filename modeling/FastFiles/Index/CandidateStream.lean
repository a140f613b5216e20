import FastFiles.Index.CandidateIndex

/-!
# Streaming candidates

`StoreReadSession::ForEachEntryWithAsciiNameUntil`: the rows that may contain an ASCII needle, from the
candidate tables if they are usable and the needle is selective, from a scan of `entries` otherwise.
What the statements of a session meet is a `StreamOutcome`.

The candidate rows are collected before any is delivered, so a run of the candidate query that fails
has delivered nothing and the scan starts afresh: a stream delivers a part of the candidate rows or of
the scanned rows, never of both (`stream_cases`).
-/

namespace FastFiles.Index

open Database

open CandidateIndex (Tracks)
open FilenameIndex (CaseFold Contains)

/-- What a visitor says to the records delivered so far: whether it wants another one. -/
abbrev EntryVisitorUntil := List EntryRecord → Bool

/-- Which statements of a stream succeed, and after how many rows a query fails. -/
structure StreamOutcome where
  globalCounted : Bool
  volumeCounted : Bool
  candidatesPrepared : Bool
  candidatesFail : Option Nat
  scanPrepared : Bool
  scanFails : Option Nat
deriving DecidableEq

def candidateFallbackCap : Nat := 16384

/-- Records are delivered until the visitor has enough: what was delivered, and whether it was all. -/
def deliver (visitor : EntryVisitorUntil) : List EntryRecord → List EntryRecord →
    List EntryRecord × Bool
  | sent, [] => (sent, true)
  | sent, record :: rest =>
    if visitor (sent ++ [record]) then deliver visitor (sent ++ [record]) rest
    else (sent ++ [record], false)

namespace Database

section Stream

variable (probe : Probe) (database : Database) (volumeRowId : VolumeRowId) (needle : List UInt8)

/-- `CandidateIndexUsable`. -/
def candidateIndexUsable : Bool :=
  match database.index.marker with
  | none => false
  | some marker => marker.ready && marker.foldSignature == hostFoldSignature probe

/-- At least three characters, all ASCII. -/
def needleEligible : Bool :=
  decide (3 ≤ needle.length) && needle.all fun byte => decide (byte.toNat < 0x80)

/-- The term rows that match the folded needle. -/
def matchingTerms : List Nat :=
  (database.index.terms.entries.filter fun term =>
    phraseMatches (foldAsciiUtf8 needle) term.2).map (·.1)

/-- The entry of a term row. -/
def keyOfTerm (rowid : Nat) : Option EntryKey :=
  (database.index.map.entries.find? (·.2 == rowid)).map (·.1)

def inVolume (rowid : Nat) : Bool :=
  (database.keyOfTerm rowid).any (·.volumeRowId == volumeRowId)

/-- The matching rows and the exceptional ones, joined with the entries of the volume. -/
def candidateRows : List EntryRecord :=
  (((database.matchingTerms needle).toFinset ∪ database.index.exceptions).sort (· ≤ ·)).filterMap
    fun rowid => (database.keyOfTerm rowid).bind fun key =>
      if key.volumeRowId = volumeRowId then database.store.findEntry volumeRowId key.frn else none

/-- A count that stops behind the cap. -/
def boundedCount (rowids : List Nat) : Nat := min rowids.length (candidateFallbackCap + 1)

variable (outcome : StreamOutcome) (visitor : EntryVisitorUntil)

/-- The admission of the candidate route.  A zero in the needle ends the phrase, which is then no
phrase, so nothing is counted. -/
def useCandidateRoute : Bool :=
  let terms := database.matchingTerms needle
  let exceptions := database.index.exceptions.sort (· ≤ ·)
  let phrase := decide ((0 : UInt8) ∉ needle)
  if (outcome.globalCounted && phrase) &&
      decide (boundedCount terms + boundedCount exceptions ≤ candidateFallbackCap) then true
  else
    (outcome.volumeCounted && phrase) &&
      decide (boundedCount (terms.filter (database.inVolume volumeRowId)) +
        boundedCount (exceptions.filter (database.inVolume volumeRowId)) ≤ candidateFallbackCap)

/-- The staged run of the candidate query; `none` when it is abandoned. -/
def stagedCandidates : Option (List EntryRecord) :=
  if !outcome.candidatesPrepared || outcome.candidatesFail.isSome then none
  else
    let rows := database.candidateRows volumeRowId needle
    if candidateFallbackCap < rows.length then none else some rows

/-- The rows of the canonical scan. -/
def scannedRows : List EntryRecord :=
  ((database.store.entries volumeRowId).entries.filter fun row =>
    streamAdmits needle row.2.name).map fun row => row.2.record row.1

/-- The canonical scan: what was delivered, and what is returned. -/
def scan : List EntryRecord × Bool :=
  if !outcome.scanPrepared then ([], false)
  else
    let rows := database.scannedRows volumeRowId needle
    let (sent, all) := deliver visitor [] (rows.take (outcome.scanFails.getD rows.length))
    (sent, !all || outcome.scanFails.isNone)

def forEachEntryWithAsciiNameUntil : List EntryRecord × Bool :=
  if needleEligible needle && database.candidateIndexUsable probe &&
      database.useCandidateRoute volumeRowId needle outcome then
    match database.stagedCandidates volumeRowId needle outcome with
    | some staged => ((deliver visitor [] staged).1, true)
    | none => database.scan volumeRowId needle outcome visitor
  else database.scan volumeRowId needle outcome visitor

end Stream

end Database

/-! ## Delivery -/

/-- What is delivered is an initial part of the rows. -/
theorem deliver_sent (visitor : EntryVisitorUntil) (sent rows : List EntryRecord) :
    (deliver visitor sent rows).1 <+: sent ++ rows := by
  induction rows generalizing sent with
  | nil => exact List.prefix_append sent []
  | cons record rows ih =>
    rw [deliver]
    split_ifs
    · simpa using ih (sent ++ [record])
    · exact ⟨rows, by simp⟩

variable {visitor : EntryVisitorUntil}

/-- A visitor that always wants more gets all. -/
theorem deliver_all (wants : ∀ records, visitor records = true)
    (sent rows : List EntryRecord) : deliver visitor sent rows = (sent ++ rows, true) := by
  induction rows generalizing sent with
  | nil => simp [deliver]
  | cons record rows ih => simp [deliver, wants, ih]

namespace Database

variable {probe : Probe} {database : Database} {volumeRowId : VolumeRowId} {needle : List UInt8}

/-- **What a stream delivers from**: the candidate rows, if the index is usable, or the scan. -/
theorem stream_cases (probe : Probe) (database : Database) (volumeRowId : VolumeRowId)
    (needle : List UInt8) (outcome : StreamOutcome) (visitor : EntryVisitorUntil) :
    (database.candidateIndexUsable probe = true ∧ 3 ≤ needle.length ∧ (0 : UInt8) ∉ needle ∧
      database.forEachEntryWithAsciiNameUntil probe volumeRowId needle outcome visitor =
        ((deliver visitor [] (database.candidateRows volumeRowId needle)).1, true)) ∨
    database.forEachEntryWithAsciiNameUntil probe volumeRowId needle outcome visitor =
      database.scan volumeRowId needle outcome visitor := by
  unfold forEachEntryWithAsciiNameUntil
  split_ifs with route
  · rw [Bool.and_eq_true, Bool.and_eq_true, needleEligible, Bool.and_eq_true] at route
    obtain ⟨⟨⟨long, -⟩, usable⟩, admitted⟩ := route
    unfold stagedCandidates
    dsimp only
    split_ifs
    · exact .inr rfl
    · exact .inr rfl
    · refine .inl ⟨usable, of_decide_eq_true long, ?_, rfl⟩
      unfold useCandidateRoute at admitted
      dsimp only at admitted
      split_ifs at admitted with whole
      · rw [Bool.and_eq_true, Bool.and_eq_true] at whole
        exact of_decide_eq_true whole.1.2
      · rw [Bool.and_eq_true, Bool.and_eq_true] at admitted
        exact of_decide_eq_true admitted.1.2
  · exact .inr rfl

/-! ## Rows of the volume, each once -/

/-- Rows of a volume, no id twice. -/
structure OnceEach (database : Database) (volumeRowId : VolumeRowId) (rows : List EntryRecord) :
    Prop where
  distinct : (rows.map (·.id)).Nodup
  stored : ∀ record ∈ rows, database.store.table volumeRowId record.id = some record

theorem OnceEach.sublist {rows part : List EntryRecord} (once : OnceEach database volumeRowId rows)
    (sub : part.Sublist rows) : OnceEach database volumeRowId part where
  distinct := (sub.map _).nodup once.distinct
  stored record mem := once.stored record (sub.subset mem)

theorem onceEach_scannedRows : OnceEach database volumeRowId (database.scannedRows volumeRowId needle) := by
  have all : OnceEach database volumeRowId (database.store.entries volumeRowId).records := by
    refine ⟨StoredRows.nodup_records _, fun record mem => ?_⟩
    exact StoredRows.table_eq_some.mpr ⟨mem, rfl⟩
  exact all.sublist (List.filter_sublist.map _)

/-- A row of the join comes from the map row of its term. -/
theorem keyOfTerm_eq_some {rowid : Nat} {key : EntryKey} (found : database.keyOfTerm rowid = some key) :
    database.index.map.lookup key = some rowid := by
  obtain ⟨row, first, rfl⟩ := Option.map_eq_some_iff.mp found
  have is := List.find?_some first
  rw [← eq_of_beq is]
  exact AList.mem_lookup_iff.mpr (List.mem_of_find?_eq_some first)

theorem onceEach_candidateRows :
    OnceEach database volumeRowId (database.candidateRows volumeRowId needle) := by
  have joined {rowid : Nat} {record : EntryRecord}
      (found : ((database.keyOfTerm rowid).bind fun key =>
        if key.volumeRowId = volumeRowId then database.store.findEntry volumeRowId key.frn
        else none) = some record) :
      database.index.map.lookup ⟨volumeRowId, record.id⟩ = some rowid ∧
        database.store.table volumeRowId record.id = some record := by
    obtain ⟨key, term, row⟩ := Option.bind_eq_some_iff.mp found
    split_ifs at row with own
    have is : record.id = key.frn := (StoredRows.normal_table _ _ _ row).1
    subst own
    rw [is]
    exact ⟨keyOfTerm_eq_some term, row⟩
  refine ⟨?_, fun record mem => ?_⟩
  · rw [candidateRows, List.map_filterMap]
    refine List.Nodup.filterMap ?_ (Finset.sort_nodup _ _)
    intro left right id leftMem rightMem
    obtain ⟨leftRecord, leftFound, rfl⟩ := Option.map_eq_some_iff.mp leftMem
    obtain ⟨rightRecord, rightFound, same⟩ := Option.map_eq_some_iff.mp rightMem
    have leftRow := (joined leftFound).1
    have rightRow := (joined rightFound).1
    rw [same, leftRow] at rightRow
    exact Option.some.inj rightRow
  · obtain ⟨rowid, -, found⟩ := List.mem_filterMap.mp mem
    exact (joined found).2

/-! ## Every match -/

section Matches

variable {same : UInt16 → UInt16 → Prop} {id : FileId} {record : EntryRecord}

/-- A stored row and the text of its name. -/
theorem exists_text (encoded : database.store.Encoded)
    (stored : database.store.table volumeRowId id = some record) :
    ∃ entry, (database.store.entries volumeRowId).lookup id = some entry ∧
      database.store.names ⟨volumeRowId, id⟩ = some entry.name ∧
      record = entry.record id ∧ entry.name = utf16ToUtf8 record.name := by
  obtain ⟨entry, found, rfl⟩ := Option.map_eq_some_iff.mp stored
  have named : database.store.names ⟨volumeRowId, id⟩ = some entry.name := by
    show ((database.store.entries volumeRowId).lookup id).map _ = _
    rw [found]
    rfl
  obtain ⟨text, is⟩ := encoded _ _ named
  refine ⟨entry, found, named, rfl, ?_⟩
  show entry.name = utf16ToUtf8 (utf8ToUtf16 entry.name)
  rw [← is, utf8ToUtf16_utf16ToUtf8]

/-- The map finds the entry of a term row. -/
theorem keyOfTerm_of_lookup (indexed : database.Indexed probe) {key : EntryKey} {rowid : Nat}
    (found : database.index.map.lookup key = some rowid) : database.keyOfTerm rowid = some key := by
  cases term : database.keyOfTerm rowid with
  | none =>
    rw [keyOfTerm, Option.map_eq_none_iff, List.find?_eq_none] at term
    exact absurd (beq_self_eq_true rowid) (term ⟨key, rowid⟩ (AList.mem_lookup_iff.mp found))
  | some other => rw [indexed.injective other key rowid (keyOfTerm_eq_some term) found]

variable (encoded : database.store.Encoded) (folds : CaseFold probe same)
  (ascii : ∀ byte ∈ needle, byte.toNat < 0x80)
  (stored : database.store.table volumeRowId id = some record)
  (contains : Contains same (unitsOf needle) record.name)

include encoded folds ascii stored contains

/-- **No match is missing from the candidate rows.** -/
theorem mem_candidateRows (indexed : database.Indexed probe) (clean : (0 : UInt8) ∉ needle)
    (long : 3 ≤ needle.length) : record ∈ database.candidateRows volumeRowId needle := by
  obtain ⟨entry, -, named, isRecord, isName⟩ := exists_text encoded stored
  obtain ⟨rowid, mapped⟩ := Option.isSome_iff_exists.mp
    ((indexed.mapped ⟨volumeRowId, id⟩).mpr (by rw [named]; rfl))
  have decoded : utf8ToUtf16 entry.name = record.name := by rw [isRecord]; rfl
  have selected : rowid ∈ (database.matchingTerms needle).toFinset ∪ database.index.exceptions := by
    rw [Finset.mem_union, List.mem_toFinset]
    cases required : nameRequiresCandidateSideSet probe record.name with
    | true =>
      refine .inr (indexed.exceptional _ _ _ mapped named ?_)
      rw [decoded]
      exact required
    | false =>
      refine .inl ?_
      rw [nameRequiresCandidateSideSet_eq] at required
      have matched := phraseMatches_of_contains folds ascii contains clean long required
      rw [← isName] at matched
      rcases indexed.term _ _ _ mapped named with empty | term
      · -- An empty name has no window of three units.
        obtain ⟨window, part, windowMatches⟩ := contains
        rw [← decoded, empty, show utf8ToUtf16 [] = [] from rfl, List.infix_nil] at part
        rw [part, List.forall₂_nil_left_iff, unitsOf, List.map_eq_nil_iff] at windowMatches
        rw [windowMatches] at long
        exact absurd long (by simp)
      · exact List.mem_map.mpr ⟨⟨rowid, _⟩, List.mem_filter.mpr
          ⟨AList.mem_lookup_iff.mp term, matched⟩, rfl⟩
  refine List.mem_filterMap.mpr ⟨rowid, (Finset.mem_sort _).mpr selected, ?_⟩
  rw [keyOfTerm_of_lookup indexed mapped, Option.bind_some, if_pos rfl]
  exact stored

/-- **No match in a name without zeros is missing from the scan.** -/
theorem mem_scannedRows (clean : (0 : UInt16) ∉ record.name) :
    record ∈ database.scannedRows volumeRowId needle := by
  obtain ⟨entry, found, -, isRecord, isName⟩ := exists_text encoded stored
  have admitted := streamAdmits_of_contains folds ascii contains clean
  rw [← isName] at admitted
  exact List.mem_map.mpr ⟨⟨id, entry⟩,
    List.mem_filter.mpr ⟨AList.mem_lookup_iff.mp found, admitted⟩, isRecord.symm⟩

end Matches

/-- **A stream delivers rows of the volume, each at most once.** -/
theorem onceEach_stream (outcome : StreamOutcome) (visitor : EntryVisitorUntil) :
    OnceEach database volumeRowId
      (database.forEachEntryWithAsciiNameUntil probe volumeRowId needle outcome visitor).1 := by
  rcases stream_cases probe database volumeRowId needle outcome visitor with ⟨-, -, -, same⟩ | same
  · rw [same]
    exact onceEach_candidateRows.sublist (deliver_sent visitor [] _).sublist
  · rw [same, scan]
    split_ifs
    · exact ⟨List.nodup_nil, fun _ mem => (nomatch mem)⟩
    · exact onceEach_scannedRows.sublist
        ((deliver_sent visitor [] _).sublist.trans (List.take_sublist _ _))

variable {outcome : StreamOutcome}

/-- **A stream that returns and is not stopped delivers every match.** -/
theorem mem_stream (encoded : database.store.Encoded)
    (indexed : database.candidateIndexUsable probe = true → database.Indexed probe)
    {same : UInt16 → UInt16 → Prop} (folds : CaseFold probe same)
    (ascii : ∀ byte ∈ needle, byte.toNat < 0x80) (wants : ∀ records, visitor records = true)
    (returns : (database.forEachEntryWithAsciiNameUntil probe volumeRowId needle outcome visitor).2 =
      true) {id : FileId} {record : EntryRecord}
    (stored : database.store.table volumeRowId id = some record) (clean : (0 : UInt16) ∉ record.name)
    (contains : Contains same (unitsOf needle) record.name) :
    record ∈ (database.forEachEntryWithAsciiNameUntil probe volumeRowId needle outcome visitor).1 := by
  rcases stream_cases probe database volumeRowId needle outcome visitor with
    ⟨usable, long, cleanNeedle, result⟩ | result
  · rw [result, deliver_all wants]
    exact mem_candidateRows encoded folds ascii stored contains (indexed usable) cleanNeedle long
  · have row := mem_scannedRows encoded folds ascii stored contains clean
    rw [result, scan] at returns ⊢
    split_ifs at returns ⊢
    simp only [deliver_all wants] at returns ⊢
    cases fails : outcome.scanFails with
    | some count => simp [fails] at returns
    | none => simpa [fails] using row

/-- A stream whose scan does not fail returns. -/
theorem stream_returns (prepared : outcome.scanPrepared = true)
    (whole : outcome.scanFails = none) (visitor : EntryVisitorUntil) :
    (database.forEachEntryWithAsciiNameUntil probe volumeRowId needle outcome visitor).2 = true := by
  rcases stream_cases probe database volumeRowId needle outcome visitor with ⟨-, -, -, same⟩ | same
  · rw [same]
  · simp [same, scan, prepared, whole]

/-- If the candidate query fails, the scan takes over. -/
theorem stream_of_fails (fails : outcome.candidatesFail.isSome = true)
    (visitor : EntryVisitorUntil) :
    database.forEachEntryWithAsciiNameUntil probe volumeRowId needle outcome visitor =
      database.scan volumeRowId needle outcome visitor := by
  have abandoned : database.stagedCandidates volumeRowId needle outcome = none :=
    if_pos (by rw [fails, Bool.or_true])
  rw [forEachEntryWithAsciiNameUntil, abandoned]
  exact ite_self _

/-! ## Several volumes -/

/-- The volumes of a search, one after the other until a stream fails. -/
def streamVolumes (probe : Probe) (database : Database) (needle : List UInt8)
    (outcomes : VolumeRowId → StreamOutcome) (visitors : VolumeRowId → EntryVisitorUntil) :
    List VolumeRowId → List (VolumeRowId × EntryRecord) × Bool
  | [] => ([], true)
  | volumeRowId :: selection =>
    let (sent, returned) := database.forEachEntryWithAsciiNameUntil probe volumeRowId needle
      (outcomes volumeRowId) (visitors volumeRowId)
    if returned then
      let (rest, all) := streamVolumes probe database needle outcomes visitors selection
      (sent.map (volumeRowId, ·) ++ rest, all)
    else (sent.map (volumeRowId, ·), false)

variable {outcomes : VolumeRowId → StreamOutcome} {visitors : VolumeRowId → EntryVisitorUntil}

/-- What the streams of several volumes may deliver: rows of theirs, each once. -/
structure OnceEachOf (database : Database) (selection : List VolumeRowId)
    (deliveries : List (VolumeRowId × EntryRecord)) : Prop where
  distinct : (deliveries.map fun delivery => (delivery.1, delivery.2.id)).Nodup
  stored : ∀ delivery ∈ deliveries, delivery.1 ∈ selection ∧
    database.store.table delivery.1 delivery.2.id = some delivery.2

theorem onceEachOf_nil (selection : List VolumeRowId) : OnceEachOf database selection [] :=
  ⟨List.nodup_nil, fun _ mem => (nomatch mem)⟩

variable {selection : List VolumeRowId}

/-- The rows of a volume that is not among the others come before theirs. -/
theorem OnceEachOf.cons
    {deliveries : List (VolumeRowId × EntryRecord)} (once : OnceEachOf database selection deliveries)
    (fresh : volumeRowId ∉ selection) {rows : List EntryRecord}
    (first : OnceEach database volumeRowId rows) :
    OnceEachOf database (volumeRowId :: selection) (rows.map (volumeRowId, ·) ++ deliveries) := by
  have own : ((rows.map (volumeRowId, ·)).map fun delivery => (delivery.1, delivery.2.id)) =
      (rows.map (·.id)).map (volumeRowId, ·) := by
    rw [List.map_map, List.map_map]
    rfl
  constructor
  · rw [List.map_append, own, List.nodup_append]
    refine ⟨first.distinct.map (Prod.mk_right_injective volumeRowId), once.distinct, ?_⟩
    rintro pair here _ there rfl
    obtain ⟨id, -, rfl⟩ := List.mem_map.mp here
    obtain ⟨delivery, mem, same⟩ := List.mem_map.mp there
    have other : delivery.1 = volumeRowId := congrArg Prod.fst same
    exact fresh (other ▸ (once.stored delivery mem).1)
  · intro delivery mem
    rcases List.mem_append.mp mem with here | there
    · obtain ⟨record, row, rfl⟩ := List.mem_map.mp here
      exact ⟨.head _, first.stored record row⟩
    · obtain ⟨listed, stored⟩ := once.stored delivery there
      exact ⟨.tail _ listed, stored⟩

theorem onceEachOf_streamVolumes (distinct : selection.Nodup) :
    OnceEachOf database selection
      (streamVolumes probe database needle outcomes visitors selection).1 := by
  induction selection with
  | nil => exact onceEachOf_nil []
  | cons volumeRowId selection ih =>
    obtain ⟨fresh, later⟩ := List.nodup_cons.mp distinct
    have first : OnceEach database volumeRowId (database.forEachEntryWithAsciiNameUntil probe
        volumeRowId needle (outcomes volumeRowId) (visitors volumeRowId)).1 := onceEach_stream _ _
    rw [streamVolumes]
    dsimp only
    split_ifs
    · exact (ih later).cons fresh first
    · simpa using (onceEachOf_nil selection).cons fresh first

/-- A run over the volumes that returns has every stream's rows. -/
theorem mem_streamVolumes
    (returns : (streamVolumes probe database needle outcomes visitors selection).2 = true)
    {volumeRowId : VolumeRowId} (listed : volumeRowId ∈ selection) :
    (database.forEachEntryWithAsciiNameUntil probe volumeRowId needle (outcomes volumeRowId)
        (visitors volumeRowId)).2 = true ∧
      ∀ record ∈ (database.forEachEntryWithAsciiNameUntil probe volumeRowId needle
          (outcomes volumeRowId) (visitors volumeRowId)).1,
        (volumeRowId, record) ∈
          (streamVolumes probe database needle outcomes visitors selection).1 := by
  induction selection with
  | nil => cases listed
  | cons first selection ih =>
    rw [streamVolumes] at returns ⊢
    dsimp only at returns ⊢
    split_ifs at returns ⊢ with returned
    rcases List.mem_cons.mp listed with rfl | later
    · exact ⟨returned, fun record mem =>
        List.mem_append_left _ (List.mem_map.mpr ⟨record, mem, rfl⟩)⟩
    · obtain ⟨own, rows⟩ := ih returns later
      exact ⟨own, fun record mem => List.mem_append_right _ (rows record mem)⟩

theorem streamVolumes_returns (prepared : ∀ volumeRowId, (outcomes volumeRowId).scanPrepared = true)
    (whole : ∀ volumeRowId, (outcomes volumeRowId).scanFails = none) (selection : List VolumeRowId) :
    (streamVolumes probe database needle outcomes visitors selection).2 = true := by
  induction selection with
  | nil => rfl
  | cons volumeRowId selection ih =>
    rw [streamVolumes]
    dsimp only
    rw [if_pos (stream_returns (prepared volumeRowId) (whole volumeRowId) _)]
    exact ih

end Database

/-! ## Every database that can be reached -/

variable (probe : Probe) (record : EntryRecord)

namespace Session

/-- A usable index is that of the host that asks. -/
theorem Valid.indexed {hosts : List Probe} {session : Session} (valid : Valid hosts session)
    (distinguished : Distinguished hosts) {probe : Probe} (member : probe ∈ hosts)
    (usable : session.database.candidateIndexUsable probe = true) :
    session.database.Indexed probe := by
  unfold candidateIndexUsable at usable
  cases marked : session.database.index.marker with
  | none => simp [marked] at usable
  | some marker =>
    rw [marked] at usable
    obtain ⟨ready, signed⟩ := (Bool.and_eq_true _ _).mp usable
    have own : session.database.index.marker = some ⟨true, hostFoldSignature probe⟩ := by
      rw [marked, ← ready, ← eq_of_beq signed]
    obtain ⟨builder, builds, signature, indexed⟩ := valid.marked _ own
    exact indexed.host (distinguished builder builds probe member signature.symm)

/-- **Candidates are neither missed nor repeated.**  In every database that opens, batches, forgets and
rebuilds lead to, whichever of their transactions are rolled back, and whatever the statements of the
streams meet: the rows of the selected volumes are delivered at most once, and when the streams return
and nobody stops them, every row whose name has no zero and contains the needle is delivered. -/
theorem candidates_exactly_once {actions : List SessionAction} {probe : Probe}
    {same : UInt16 → UInt16 → Prop} (folds : CaseFold probe same)
    (distinguished : Distinguished (probe :: hosts actions)) {needle : List UInt8}
    (ascii : ∀ byte ∈ needle, byte.toNat < 0x80) {selection : List VolumeRowId}
    (distinct : selection.Nodup) (outcomes : VolumeRowId → StreamOutcome)
    (visitors : VolumeRowId → EntryVisitorUntil) :
    let database := (initial.run actions).database
    let result := database.streamVolumes probe needle outcomes visitors selection
    (result.1.map fun delivery => (delivery.1, delivery.2.id)).Nodup ∧
      (∀ delivery ∈ result.1, delivery.1 ∈ selection ∧
        database.store.table delivery.1 delivery.2.id = some delivery.2) ∧
      (result.2 = true → (∀ volumeRowId records, visitors volumeRowId records = true) →
        ∀ volumeRowId ∈ selection, ∀ id record,
          database.store.table volumeRowId id = some record → (0 : UInt16) ∉ record.name →
          Contains same (unitsOf needle) record.name → (volumeRowId, record) ∈ result.1) := by
  intro database result
  have valid : Valid (probe :: hosts actions) (initial.run actions) :=
    valid_run distinguished (fun _ mem => .tail _ mem) valid_initial
  have once : OnceEachOf database selection result.1 :=
    onceEachOf_streamVolumes distinct
  refine ⟨once.distinct, once.stored, ?_⟩
  intro returns wants volumeRowId listed id record stored clean contains
  obtain ⟨returned, rows⟩ := mem_streamVolumes returns listed
  refine rows record (mem_stream valid.encoded ?_ folds ascii (wants volumeRowId) returned
    stored clean contains)
  exact valid.indexed distinguished (.head _)

/-! ## One file -/

namespace OneFile

/-- A host that folds nothing beyond ASCII. -/
def plainHost : Probe := fun _ _ => false

/-- The case fold of that host. -/
def plainFold (left right : UInt16) : Prop :=
  left.toNat ≤ 0x7f ∧ Search.foldAsciiChar left = Search.foldAsciiChar right

theorem caseFold_plainFold : CaseFold plainHost plainFold :=
  ⟨fun _ _ small _ => and_iff_right small, fun _ _ large _ both => absurd both.1 (Nat.not_le.mpr large)⟩

/-- A database of one volume with one file. -/
def actions : List SessionAction :=
  [.openStore probe false [], .getOrCreateVolume true ⟨[0x43, 0x3A], 7⟩,
    .applyBatch true 1 [{ kind := .upsert, record }]]

def needle : List UInt8 := [0x62, 0x63, 0x64]

/-- A file with a name that contains the needle. -/
def named (name : Text) : EntryRecord := { EntryRecord.blank ⟨6, 0⟩ with parentId := ⟨5, 0⟩, name }

theorem entries_run :
    (initial.run (actions probe record)).database.store.entries 1 =
      StoredRows.apply ∅ { kind := .upsert, record } := rfl

theorem table_run (name : Text) :
    (initial.run (actions probe (named name))).database.store.table 1 ⟨6, 0⟩ = some (named name) := by
  rw [Store.table, entries_run, StoredRows.table_apply _ fun _ => rfl]
  simp only [Table.apply, named, EntryRecord.blank]
  rfl

theorem usable_run :
    (initial.run (actions probe record)).database.candidateIndexUsable probe = true := by
  have marked : (initial.run (actions probe record)).database.index.marker =
      some ⟨true, hostFoldSignature probe⟩ :=
    CandidateIndex.foldl_applyChange_marker 1 [{ kind := .upsert, record }]
  simp [candidateIndexUsable, marked]

/-- The candidate query fails in its first step and the scan does not. -/
def fallsBack : StreamOutcome where
  globalCounted := true
  volumeCounted := true
  candidatesPrepared := true
  candidatesFail := some 0
  scanPrepared := true
  scanFails := none

theorem contains_needle (front : Text) : Contains plainFold (unitsOf needle) (front ++ unitsOf needle) := by
  refine ⟨unitsOf needle, (List.suffix_append front _).isInfix, ?_⟩
  exact .cons ⟨by decide, rfl⟩ (.cons ⟨by decide, rfl⟩ (.cons ⟨by decide, rfl⟩ .nil))

/-- Three files; one of the names that contain the needle comes with a second batch. -/
def severalFiles : List SessionAction :=
  [.openStore plainHost false [], .getOrCreateVolume true ⟨[0x43, 0x3A], 7⟩,
    .applyBatch true 1 [{ kind := .upsert, record := named (0x61 :: unitsOf needle) },
      { kind := .upsert, record := { named [0x79] with id := ⟨7, 0⟩ } },
      { kind := .upsert, record := { named [0x7a] with id := ⟨8, 0⟩ } }],
    .applyBatch true 1 [{ kind := .upsert, record := { named (unitsOf needle) with id := ⟨7, 0⟩ } }]]

/-- The scan takes over and delivers the files, each once. -/
theorem candidates_exactly_once_fallback :
    let result := (initial.run severalFiles).database.streamVolumes plainHost needle
      (fun _ => fallsBack) (fun _ _ => true) [1]
    (1, named (0x61 :: unitsOf needle)) ∈ result.1 ∧
      (1, { named (unitsOf needle) with id := ⟨7, 0⟩ }) ∈ result.1 ∧
      (result.1.map fun delivery => (delivery.1, delivery.2.id)).Nodup := by
  have one : Distinguished (plainHost :: hosts severalFiles) := by
    intro probe mem other otherMem _
    have own (probe : Probe) (mem : probe ∈ [plainHost, plainHost]) : probe = plainHost := by
      simpa using mem
    rw [own probe mem, own other otherMem]
  obtain ⟨once, -, complete⟩ := candidates_exactly_once caseFold_plainFold one
    (show ∀ byte ∈ needle, byte.toNat < 0x80 by simp [needle]) (List.nodup_singleton 1)
    (fun _ => fallsBack) (fun _ _ => true)
  have delivered := complete (streamVolumes_returns (fun _ => rfl) (fun _ => rfl) _) (fun _ _ => rfl)
    1 (.head _)
  exact ⟨delivered ⟨6, 0⟩ _ (by decide +kernel) (by decide) (contains_needle [0x61]),
    delivered ⟨7, 0⟩ _ (by decide +kernel) (by decide) (contains_needle []), once⟩

/-- The text of a name ends for `LIKE` and `GLOB` at a zero. -/
theorem streamAdmits_zero :
    streamAdmits needle (utf16ToUtf8 (0x61 :: 0 :: unitsOf needle)) = false := by
  have text : utf16ToUtf8 (0x61 :: 0 :: unitsOf needle) = [0x61, 0, 0x62, 0x63, 0x64] := by decide
  have read : codepoints (cString [0x61, 0, 0x62, 0x63, 0x64]) = [0x61] := by decide
  have pattern : likeItems (codepoints (cString (likePatternForLiteralNeedle needle))) =
      [.star, .literal 0x62, .literal 0x63, .literal 0x64, .star] := by decide
  have printable : globUnprintable [0x61, 0, 0x62, 0x63, 0x64] = false := by decide
  rw [text, streamAdmits, like, read, pattern, printable]
  simp [Wildcard.scan, likeSame, lowerCodepoint]
  decide

theorem scannedRows_zero :
    (initial.run (actions probe (named (0x61 :: 0 :: unitsOf needle)))).database.scannedRows 1 needle =
      [] := by
  rw [scannedRows, entries_run]
  refine List.map_eq_nil_iff.mpr (List.filter_eq_nil_iff.mpr fun row mem => ?_)
  obtain rfl := List.mem_singleton.mp mem
  exact ne_true_of_eq_false streamAdmits_zero

/-- A scan without rows has nothing to deliver. -/
theorem streamVolumes_nothing {database : Database} (scanned : database.scannedRows 1 needle = [])
    (probe : Probe) :
    database.streamVolumes probe needle (fun _ => fallsBack) (fun _ _ => true) [1] = ([], true) := by
  have stream : database.forEachEntryWithAsciiNameUntil probe 1 needle fallsBack (fun _ => true) =
      ([], true) := by
    rw [stream_of_fails rfl]
    simp [scan, scanned, fallsBack, deliver]
  simp [streamVolumes, stream]

/-- **A name with a zero is missed.**  The index is usable and would find the file; the query fails, the
scan takes over and succeeds without delivering it. -/
theorem zero_in_name_missed :
    let database := (initial.run (actions plainHost (named (0x61 :: 0 :: unitsOf needle)))).database
    CaseFold plainHost plainFold ∧ database.candidateIndexUsable plainHost = true ∧
      (∀ byte ∈ needle, byte.toNat < 0x80) ∧
      database.store.table 1 ⟨6, 0⟩ = some (named (0x61 :: 0 :: unitsOf needle)) ∧
      Contains plainFold (unitsOf needle) (0x61 :: 0 :: unitsOf needle) ∧
      database.streamVolumes plainHost needle (fun _ => fallsBack) (fun _ _ => true) [1] =
        ([], true) := by
  exact ⟨caseFold_plainFold, usable_run _ _, by simp [needle], table_run _ _, contains_needle [0x61, 0],
    streamVolumes_nothing (scannedRows_zero _) _⟩

end OneFile

end Session

end FastFiles.Index
