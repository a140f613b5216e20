import FastFiles.Engine.DirectoryListing
import FastFiles.Search.Accumulator
import FastFiles.Search.Parser

/-!
# Ranking of known storage

`RankKnownStorageSnapshot` of `StorageRanking.h` without a cancellation callback: the files of all
successful listings in a scope are offered to a search accumulator that keeps the hundred largest.

`ResultLess` leaves out the name that its comment puts first, and browsed files have neither volume
nor identity.  So two of one size in one folder tie, and `ranking_follows_listing` has them in the
order of the listing.  `ranking_reordered_iff` shows that the order of the entries matters in no
other way, and matters exactly if a tie is reached: by `Algorithms.exists_swap` one of two that tie
is then among the hundred, and with their entries in each other's place (`exists_reordered`) the
other stands there.

The snapshot is a map from folders to listings.  The engine publishes it with keys that differ
without regard to case, which is what `ranking_reordered_iff` asks of the folders.
-/

namespace FastFiles.Ui

open Index (Text backslash)
open Search Selection
open WideText (wide)

/-! ## Scopes -/

structure StorageRankingScope where
  matchPath : Text
  indexedSupported : Bool
deriving DecidableEq

section Scope

variable (ordinal : Search.Ordinal)

/-- What lies between separators; after one at the end there is nothing. -/
def pathComponents (path : Text) : List Text :=
  let parts := path.splitOn backslash
  if parts.getLast? = some [] then parts.dropLast else parts

def isPlainComponent (part : Text) : Bool :=
  !part.isEmpty && part != wide "." && part != wide ".." && !part.contains 0x3a

def isDriveLetter (unit : UInt16) : Bool :=
  0x41 ≤ unit && unit ≤ 0x5a || 0x61 ≤ unit && unit ≤ 0x7a

def normalizeStorageRankingScope (path : Text) : Option StorageRankingScope :=
  let slashed := path.map fun unit => if unit = 0x2f then backslash else unit
  let normalized :=
    if 8 ≤ slashed.length ∧ ordinal (slashed.take 8) extendedUncMark = .eq then
      [backslash, backslash] ++ slashed.drop 8
    else if extendedMark.isPrefixOf slashed then slashed.drop 4
    else slashed
  let drive := normalized[0]?.any isDriveLetter && normalized[1]? == some 0x3a &&
    normalized[2]? == some backslash
  let unc := [backslash, backslash].isPrefixOf normalized && 4 < normalized.length
  let components := pathComponents (normalized.drop (if drive then 3 else 2))
  if !drive && !unc then none
  else if !components.all isPlainComponent then none
  else if unc && components.length < 2 then none
  else some ⟨normalized.take (max 3 (normalized.rdropWhile (· == backslash)).length), drive⟩

def storageRankingContains (scope : StorageRankingScope) (folder : Text) : Bool :=
  let size := scope.matchPath.length
  if scope.matchPath.isEmpty then false
  else
    match normalizeStorageRankingScope ordinal folder with
    | none => false
    | some normalized =>
      if normalized.matchPath.length < size then false
      else if ordinal scope.matchPath (normalized.matchPath.take size) ≠ .eq then false
      else normalized.matchPath.length == size || scope.matchPath.getLast? == some backslash ||
        normalized.matchPath[size]? == some backslash

def storageRankingItemPath (folder name : Text) : Text :=
  if (normalizeStorageRankingScope ordinal folder).isNone || name.isEmpty || name == wide "." ||
      name == wide ".." || name.any fun unit => isSeparator unit || unit == 0x3a then []
  else if folder.getLast?.any isSeparator then folder ++ name
  else folder ++ backslash :: name

end Scope

/-! ## The ranking -/

structure SnapshotDirectoryEntry where
  name : Text
  isDirectory : Bool
  sizeBytes : UInt64
  allocatedSizeBytes : UInt64
  allocatedSizeKnown : Bool
  creationTime : UInt64
  lastModifiedTime : UInt64
  volumeRowId : Int
  fileIdLow : UInt64
  parentIdLow : UInt64
deriving DecidableEq

structure SnapshotDirectory where
  status : Engine.EnumerationStatus
  entries : List SnapshotDirectoryEntry

/-- The published listings, in the order of their folders. -/
abbrev Snapshot := List (Text × SnapshotDirectory)

def SnapshotDirectoryEntry.candidate (folder : Text) (entry : SnapshotDirectoryEntry) :
    Candidate where
  name := entry.name
  folder
  sizeBytes := entry.sizeBytes
  modifiedTime := entry.lastModifiedTime
  isDirectory := false
  createdTime := entry.creationTime
  volumeId := entry.volumeRowId
  id := entry.fileIdLow
  parentId := entry.parentIdLow
  persistentIndexed := entry.volumeRowId ≠ 0
  allocatedSizeBytes := entry.allocatedSizeBytes
  allocatedSizeKnown := entry.allocatedSizeKnown

section Ranking

variable (host : Host) (ordinal : Search.Ordinal) (locale : Search.Locale) (scope : StorageRankingScope)

def rankingRequest : SearchRequest where
  query := parseQuery host ordinal (wide "kind:file")
  scope := .allIndexedLocations
  scopePath := []
  sortField := .size
  descending := true
  chunkSize := 1024
  maxResults := 100
  persistentOnly := false
  candidateFilter := some fun item => storageRankingContains ordinal scope item.folder &&
    !(storageRankingItemPath ordinal item.folder item.name).isEmpty
  candidateFilterRequiresFolder := false

/-- The files of one listing that are offered. -/
def knownFiles (listing : Text × SnapshotDirectory) : List Candidate :=
  if listing.2.status ≠ .success ∨ !storageRankingContains ordinal scope listing.1 then []
  else (listing.2.entries.filter (!·.isDirectory)).map (·.candidate listing.1)

def rankKnownStorageSnapshot
    (algorithms : Algorithms ((rankingRequest host ordinal scope).less ordinal))
    (snapshot : Snapshot) : SearchResponse :=
  searchAll ordinal locale (rankingRequest host ordinal scope) algorithms (fun _ => false) none
    (snapshot.flatMap (knownFiles ordinal scope))

end Ranking

/-! ## Other orders of the entries -/

/-- The same listings with their entries in another order. -/
def Reordered : Snapshot → Snapshot → Prop :=
  List.Forall₂ fun left right =>
    left.1 = right.1 ∧ left.2.status = right.2.status ∧ left.2.entries.Perm right.2.entries

/-- Two files that neither size, folder, volume nor identity tells apart. -/
def Ties (ordinal : Search.Ordinal) (a b : Candidate) : Prop :=
  a.sizeBytes = b.sizeBytes ∧ ordinal a.folder b.folder = .eq ∧ a.key = b.key

section Ranked

variable (host : Host) (ordinal : Search.Ordinal) (locale : Search.Locale)
  (scope : StorageRankingScope)

/-- The files of a snapshot that match. -/
def matchingFiles (snapshot : Snapshot) : List Candidate :=
  (snapshot.flatMap (knownFiles ordinal scope)).filter fun file =>
    ((rankingRequest host ordinal scope).matched ordinal locale none file).isSome

/-- How many of some files are ranked before a file: the larger ones, and those of its size in
folders before its own. -/
def ahead (files : List Candidate) (file : Candidate) : Nat :=
  files.countP fun other => (rankingRequest host ordinal scope).less ordinal
    ((rankingRequest host ordinal scope).result ordinal other)
    ((rankingRequest host ordinal scope).result ordinal file)

end Ranked

section Reordering

variable {host : Host} {ordinal : Search.Ordinal} {locale : Search.Locale}
  {scope : StorageRankingScope}

theorem Reordered.perm {snapshot reordered : Snapshot} (order : Reordered snapshot reordered) :
    (snapshot.flatMap (knownFiles ordinal scope)).Perm
      (reordered.flatMap (knownFiles ordinal scope)) := by
  induction order with
  | nil => exact .nil
  | cons same _ ih =>
    obtain ⟨folder, status, entries⟩ := same
    rw [List.flatMap_cons, List.flatMap_cons]
    refine List.Perm.append ?_ ih
    unfold knownFiles
    rw [folder, status]
    split_ifs
    · exact .nil
    · exact (entries.filter _).map _

theorem result_injective (request : SearchRequest) :
    Function.Injective (request.result ordinal) :=
  fun _ _ same => congrArg SearchResult.candidate same

/-- A file that matches is shown as it was offered. -/
theorem matchList_eq_map (request : SearchRequest) (files : List Candidate) :
    request.matchList ordinal locale none files =
      (files.filter fun file => (request.matched ordinal locale none file).isSome).map
        (request.result ordinal) := by
  induction files with
  | nil => rfl
  | cons file files ih =>
    unfold SearchRequest.matchList at ih ⊢
    have shown : request.matched ordinal locale none file = none ∨
        request.matched ordinal locale none file = some (request.result ordinal file) := by
      rw [SearchRequest.matched, materialized, Option.bind_some, ite_self]
      split_ifs
      · exact .inr rfl
      · exact .inl rfl
    obtain missed | found := shown
    · simp [missed, ih]
    · simp [found, ih]

/-- The ranking is made of the library's offers of the matching files. -/
theorem rankKnownStorageSnapshot_results
    (algorithms : Algorithms ((rankingRequest host ordinal scope).less ordinal))
    (snapshot : Snapshot) :
    (rankKnownStorageSnapshot host ordinal locale scope algorithms snapshot).results =
      algorithms.ranked 100 ((matchingFiles host ordinal locale scope snapshot).map
        ((rankingRequest host ordinal scope).result ordinal)) := by
  have compiled : (rankingRequest host ordinal scope).query.Compiled :=
    compiled_parseQuery host ordinal (wide "kind:file")
  have going := @foldl_add_going ordinal locale (rankingRequest host ordinal scope) algorithms none
    .initial (snapshot.flatMap (knownFiles ordinal scope)) rfl
  have kept := kept_foldl_add going
  rw [funext (SearchRequest.evaluate_eq_matched locale compiled)] at kept
  rw [rankKnownStorageSnapshot, searchAll, finish, if_neg (by simp [going])]
  show algorithms.sort _ = algorithms.sort _
  rw [matchingFiles, ← matchList_eq_map]
  exact congrArg (algorithms.sort ·.items) kept

variable [Std.TransCmp ordinal]

/-- Results tie exactly if their files do. -/
theorem less_eq_false_iff (a b : Candidate) :
    let request := rankingRequest host ordinal scope
    (request.less ordinal (request.result ordinal a) (request.result ordinal b) = false ∧
      request.less ordinal (request.result ordinal b) (request.result ordinal a) = false) ↔
      Ties ordinal a b := by
  intro request
  constructor
  · rintro ⟨not_before, not_after⟩
    have tie := resultOrder_eq_of_tie not_before not_after
    simp only [resultOrder, compareLex, Ordering.then_eq_eq] at tie
    obtain ⟨-, size, folder, -⟩ := tie
    have sizes : b.sizeBytes = a.sizeBytes :=
      @Std.LawfulEqCmp.eq_of_compare _ compare _ _ _ size
    exact ⟨sizes.symm, folder, key_eq_of_tie not_before not_after⟩
  · rintro ⟨size, folder, key⟩
    have tie (x y : Candidate) (size : x.sizeBytes = y.sizeBytes)
        (folder : ordinal x.folder y.folder = .eq) (key : x.key = y.key) :
        request.less ordinal (request.result ordinal x) (request.result ordinal y) = false := by
      obtain ⟨volume, id⟩ := Prod.mk.inj key
      rw [SearchRequest.less, resultLess_eq]
      have by_size : (SortField.size == SortField.allocatedSize) = false := rfl
      simp [resultOrder, compareLex, knownFirst, directed, primaryOrder, byText, compareOn, size,
        folder, volume, id, request, rankingRequest, SearchRequest.result, by_size]
    exact ⟨tie a b size folder key,
      tie b a size.symm (Std.OrientedCmp.eq_comm.mp folder) key.symm⟩

/-- No tie of results shows exactly if none of files does. -/
theorem separatedWithin_iff (files : List Candidate) :
    SeparatedWithin ((rankingRequest host ordinal scope).less ordinal) 100
      (files.map ((rankingRequest host ordinal scope).result ordinal)) ↔
    ∀ a ∈ files, ∀ b ∈ files, Ties ordinal a b → ahead host ordinal scope files a < 100 → a = b := by
  simp only [SeparatedWithin, List.forall_mem_map, List.countP_map]
  constructor
  · intro within a a_mem b b_mem tie few
    obtain ⟨first, second⟩ := less_eq_false_iff a b |>.mpr tie
    exact result_injective _ (within a a_mem b b_mem first second few)
  · intro within a a_mem b b_mem first second few
    rw [within a a_mem b b_mem (less_eq_false_iff a b |>.mp ⟨first, second⟩) few]

end Reordering

/-! ### Two entries change places -/

section Swapping

/-- The listing of `folder` with two entries in each other's place. -/
def swapped (folder : Text) (e f : SnapshotDirectoryEntry) (listing : Text × SnapshotDirectory) :
    Text × SnapshotDirectory :=
  if listing.1 = folder then
    (listing.1, { listing.2 with entries := listing.2.entries.map (Equiv.swap e f) })
  else listing

theorem perm_map_swap {α : Type*} [DecidableEq α] {items : List α} (nodup : items.Nodup) {a b : α}
    (a_mem : a ∈ items) (b_mem : b ∈ items) : items.Perm (items.map (Equiv.swap a b)) := by
  have kept (x : α) (member : x ∈ items) : Equiv.swap a b x ∈ items := by
    rw [Equiv.swap_apply_def]
    split_ifs
    · exact b_mem
    · exact a_mem
    · exact member
  refine (List.perm_ext_iff_of_nodup nodup (nodup.map (Equiv.injective _))).mpr fun x => ?_
  rw [List.mem_map]
  exact ⟨fun member => ⟨_, kept x member, Equiv.swap_apply_self a b x⟩,
    fun ⟨y, member, same⟩ => same ▸ kept y member⟩

/-- Files of one folder keep apart the entries they are made from. -/
theorem candidate_inj {folder : Text} {e f : SnapshotDirectoryEntry} (e_file : e.isDirectory = false)
    (f_file : f.isDirectory = false) (same : e.candidate folder = f.candidate folder) : e = f := by
  simp only [SnapshotDirectoryEntry.candidate, Candidate.mk.injEq] at same
  obtain ⟨_, _, _, _, _, _, _, _, _, _⟩ := e
  obtain ⟨_, _, _, _, _, _, _, _, _, _⟩ := f
  simp_all

variable {host : Host} {ordinal : Search.Ordinal} {locale : Search.Locale}
  {scope : StorageRankingScope} {snapshot : Snapshot} {listing : Text × SnapshotDirectory}
  {e f : SnapshotDirectoryEntry}

/-- Where two entries change places, the files offered do. -/
theorem knownFiles_swapped (e_file : e.isDirectory = false) (f_file : f.isDirectory = false)
    (folder : Text) (other : Text × SnapshotDirectory) :
    knownFiles ordinal scope (swapped folder e f other) =
      (knownFiles ordinal scope other).map
        (Equiv.swap (e.candidate folder) (f.candidate folder)) := by
  unfold swapped
  split_ifs with here
  · subst here
    have files : (fun entry : SnapshotDirectoryEntry => !entry.isDirectory) ∘ Equiv.swap e f =
        fun entry => !entry.isDirectory := by
      funext entry
      rw [Function.comp_apply, Equiv.swap_apply_def]
      split_ifs with is_e is_f
      · rw [is_e, e_file, f_file]
      · rw [is_f, e_file, f_file]
      · rfl
    unfold knownFiles
    dsimp only
    split_ifs
    · rfl
    · rw [List.filter_map, List.map_map, List.map_map, files]
      refine List.map_congr_left fun entry member => ?_
      have file : entry.isDirectory = false := by simpa using (List.mem_filter.mp member).2
      simp only [Function.comp_apply]
      by_cases is_e : entry = e
      · rw [is_e, Equiv.swap_apply_left, Equiv.swap_apply_left]
      · by_cases is_f : entry = f
        · rw [is_f, Equiv.swap_apply_right, Equiv.swap_apply_right]
        · rw [Equiv.swap_apply_of_ne_of_ne is_e is_f, Equiv.swap_apply_of_ne_of_ne
            (fun same => is_e (candidate_inj file e_file same))
            (fun same => is_f (candidate_inj file f_file same))]
  · have elsewhere (file : Candidate) (member : file ∈ knownFiles ordinal scope other) :
        file.folder = other.1 := by
      unfold knownFiles at member
      split_ifs at member with left_out
      · exact absurd member List.not_mem_nil
      · obtain ⟨entry, -, rfl⟩ := List.mem_map.mp member
        rfl
    refine (List.map_id' _).symm.trans (List.map_congr_left fun file member => ?_)
    have differs (entry : SnapshotDirectoryEntry) : file ≠ entry.candidate folder := by
      rintro rfl
      exact here (elsewhere _ member).symm
    exact (Equiv.swap_apply_of_ne_of_ne (differs e) (differs f)).symm

/-- A matching file is made from an entry of its folder's listing. -/
theorem mem_matchingFiles {file : Candidate}
    (member : file ∈ matchingFiles host ordinal locale scope snapshot) :
    ((rankingRequest host ordinal scope).matched ordinal locale none file).isSome = true ∧
      ∃ listing ∈ snapshot, ∃ entry ∈ listing.2.entries, entry.isDirectory = false ∧
        entry.candidate listing.1 = file := by
  obtain ⟨known, matched⟩ := List.mem_filter.mp member
  obtain ⟨listing, listing_mem, known⟩ := List.mem_flatMap.mp known
  refine ⟨matched, listing, listing_mem, ?_⟩
  unfold knownFiles at known
  split_ifs at known with left_out
  · exact absurd known List.not_mem_nil
  · obtain ⟨entry, entry_mem, made⟩ := List.mem_map.mp known
    obtain ⟨entry_mem, file⟩ := List.mem_filter.mp entry_mem
    exact ⟨entry, entry_mem, by simpa using file, made⟩

variable [Std.TransCmp ordinal]

theorem eq_of_folder (folders : snapshot.Pairwise fun a b => ordinal a.1 b.1 ≠ .eq)
    {other : Text × SnapshotDirectory} (other_mem : other ∈ snapshot) (mem : listing ∈ snapshot)
    (same : ordinal other.1 listing.1 = .eq) : other = listing := by
  by_contra differ
  have apart : Std.Symm fun a b : Text × SnapshotDirectory => ordinal a.1 b.1 ≠ .eq :=
    ⟨fun _ _ ne eq => ne (Std.OrientedCmp.eq_comm.mp eq)⟩
  exact folders.forall other_mem mem differ same

theorem reordered_swapped
    (names : ∀ listing ∈ snapshot, (listing.2.entries.map (·.name)).Nodup)
    (folders : snapshot.Pairwise fun a b => ordinal a.1 b.1 ≠ .eq) (mem : listing ∈ snapshot)
    (e_mem : e ∈ listing.2.entries) (f_mem : f ∈ listing.2.entries) :
    Reordered snapshot (snapshot.map (swapped listing.1 e f)) := by
  rw [Reordered, List.forall₂_map_right_iff, List.forall₂_same]
  intro other other_mem
  unfold swapped
  split_ifs with here
  · obtain rfl := eq_of_folder folders other_mem mem (by rw [here]; exact Std.ReflCmp.compare_self)
    exact ⟨rfl, rfl, perm_map_swap (names other mem).of_map e_mem f_mem⟩
  · exact ⟨rfl, rfl, .refl _⟩

/-- Two matching files that tie can be offered in each other's place. -/
theorem exists_reordered
    (names : ∀ listing ∈ snapshot, (listing.2.entries.map (·.name)).Nodup)
    (folders : snapshot.Pairwise fun a b => ordinal a.1 b.1 ≠ .eq) {a b : Candidate}
    (a_mem : a ∈ matchingFiles host ordinal locale scope snapshot)
    (b_mem : b ∈ matchingFiles host ordinal locale scope snapshot) (tie : Ties ordinal a b) :
    ∃ reordered, Reordered snapshot reordered ∧
      matchingFiles host ordinal locale scope reordered =
        (matchingFiles host ordinal locale scope snapshot).map (Equiv.swap a b) := by
  obtain ⟨a_matches, listing, mem, e, e_mem, e_file, rfl⟩ := mem_matchingFiles a_mem
  obtain ⟨b_matches, other, other_mem, f, f_mem, f_file, rfl⟩ := mem_matchingFiles b_mem
  obtain rfl := eq_of_folder folders mem other_mem tie.2.1
  refine ⟨_, reordered_swapped names folders mem e_mem f_mem, ?_⟩
  unfold matchingFiles
  rw [List.flatMap_map, funext (knownFiles_swapped e_file f_file listing.1), ← List.map_flatMap,
    List.filter_map]
  congr 2
  funext file
  rw [Function.comp_apply, Equiv.swap_apply_def]
  split_ifs with is_a is_b
  · rw [is_a, a_matches, b_matches]
  · rw [is_b, a_matches, b_matches]
  · rfl

end Swapping

/-- **The order of the entries shows exactly in ties.**  If each folder is listed once and names
its entries differently, the ranking is the same for every order of the entries, whatever the
library does with ties, exactly if no two matching files tie with fewer than a hundred ahead. -/
theorem ranking_reordered_iff (host : Host) (ordinal : Search.Ordinal) [Std.TransCmp ordinal]
    (locale : Search.Locale) (scope : StorageRankingScope) (snapshot : Snapshot)
    (names : ∀ listing ∈ snapshot, (listing.2.entries.map (·.name)).Nodup)
    (folders : snapshot.Pairwise fun a b => ordinal a.1 b.1 ≠ .eq) :
    (∀ algorithms reordered, Reordered snapshot reordered →
      (rankKnownStorageSnapshot host ordinal locale scope algorithms reordered).results =
        (rankKnownStorageSnapshot host ordinal locale scope algorithms snapshot).results) ↔
    ∀ a ∈ matchingFiles host ordinal locale scope snapshot,
      ∀ b ∈ matchingFiles host ordinal locale scope snapshot, Ties ordinal a b →
        ahead host ordinal scope (matchingFiles host ordinal locale scope snapshot) a < 100 →
          a = b := by
  have order := strictWeak_resultLess ordinal SortField.size true
  simp only [rankKnownStorageSnapshot_results]
  rw [← separatedWithin_iff]
  constructor
  · intro same
    by_contra shown
    obtain ⟨left, left_mem, right, right_mem, -, first, second, moved⟩ :=
      Algorithms.exists_swap order (by decide) shown
    obtain ⟨a, a_mem, rfl⟩ := List.mem_map.mp left_mem
    obtain ⟨b, b_mem, rfl⟩ := List.mem_map.mp right_mem
    have tie : Ties ordinal a b := less_eq_false_iff a b |>.mp ⟨first, second⟩
    obtain ⟨reordered, reordering, files⟩ := exists_reordered names folders a_mem b_mem tie
    have unmoved := same (.reference order) reordered reordering
    rw [files, List.map_map] at unmoved
    refine moved (Eq.trans ?_ unmoved)
    rw [List.map_map]
    congr 2
    funext file
    exact (result_injective _).swap_apply a b file
  · intro within algorithms reordered reordering
    exact algorithms.ranked_congr order algorithms (by decide) within
      ((reordering.perm.symm.filter _).map _)

/-! Browsed files on one drive. -/

def browsedFile (name : String) (size : UInt64) : SnapshotDirectoryEntry :=
  ⟨wide name, false, size, 0, false, 0, 0, 0, 0, 0⟩

def browsedFolder (entries : List SnapshotDirectoryEntry) : Snapshot :=
  [(wide "C:\\x", ⟨.success, entries⟩)]

def driveRequest : SearchRequest := rankingRequest plainHost foldOrdinal ⟨wide "C:\\", true⟩

def driveRanking (snapshot : Snapshot) : List SearchResult :=
  (rankKnownStorageSnapshot plainHost foldOrdinal asciiLocale ⟨wide "C:\\", true⟩
    (referenceAlgorithms driveRequest) snapshot).results

def browsedResult (name : String) : SearchResult :=
  driveRequest.result foldOrdinal ((browsedFile name 5).candidate (wide "C:\\x"))

/-- Two results that tie stay in the order in which they are offered. -/
theorem results_of_tie {a b : Candidate} {first second : SearchResult}
    (a_found : driveRequest.evaluate foldOrdinal asciiLocale none false a = some first)
    (b_found : driveRequest.evaluate foldOrdinal asciiLocale none false b = some second)
    (tie : driveRequest.less foldOrdinal first second = false)
    (tie' : driveRequest.less foldOrdinal second first = false) :
    (searchAll foldOrdinal asciiLocale driveRequest (referenceAlgorithms driveRequest)
      (fun _ => false) none [a, b]).results = [first, second] := by
  have limit : driveRequest.maxResults = 100 := rfl
  simp [searchAll, add, addImpl, a_found, b_found, SearchResponse.keep, SearchResponse.initial,
    Algorithms.offer, finish, referenceAlgorithms, Algorithms.reference, limit, List.mergeSort,
    List.MergeSort.Internal.splitInTwo, tie, tie']

/-- Two files of one size are ranked as they are listed. -/
theorem ranking_follows_listing :
    let listed := browsedFolder [browsedFile "a" 5, browsedFile "b" 5]
    let reordered := browsedFolder [browsedFile "b" 5, browsedFile "a" 5]
    Reordered listed reordered ∧ driveRanking listed = [browsedResult "a", browsedResult "b"] ∧
      driveRanking reordered = [browsedResult "b", browsedResult "a"] ∧
      browsedResult "a" ≠ browsedResult "b" := by
  refine ⟨.cons ⟨rfl, rfl, .swap _ _ _⟩ .nil, results_of_tie ?_ ?_ ?_ ?_,
    results_of_tie ?_ ?_ ?_ ?_, ?_⟩
  all_goals decide +kernel

/-- Two files of five bytes tie behind a hundred larger ones, and each order of the entries gives
the same ranking. -/
theorem ranking_reordered_iff_hidden :
    let larger := (List.range 100).map fun n => browsedFile (toString n) (1000 + n).toUInt64
    let listed := browsedFolder (browsedFile "a" 5 :: browsedFile "b" 5 :: larger)
    let reordered := browsedFolder (browsedFile "b" 5 :: browsedFile "a" 5 :: larger)
    driveRanking reordered = driveRanking listed := by
  intro larger listed reordered
  refine (ranking_reordered_iff plainHost foldOrdinal asciiLocale _ listed ?_ ?_).mpr ?_
    (referenceAlgorithms driveRequest) reordered (.cons ⟨rfl, rfl, .swap _ _ _⟩ .nil)
  · decide +kernel
  · exact List.pairwise_singleton _ _
  · unfold Ties
    decide +kernel

end FastFiles.Ui
