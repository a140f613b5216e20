import FastFiles.Search.Order
import FastFiles.Search.Parser
import FastFiles.Search.Path

/-!
# The search accumulator

`SearchAccumulator` of `Search.cpp`.  Candidates are offered one at a time; those that match
the request are kept in a bounded heap, and `Finish` sorts what is kept.

* `topN_exact`: what is returned is the beginning of the sorted list of all matches, whatever
  the order of the offers, and the response is truncated exactly if there are more.
* `admission_same`: asking `AdmitView` first, and offering only what it admits, changes neither
  the results nor the truncated flag, if all candidates are in the durable index whenever the
  request is restricted to it.  The engine's enumeration offers no others; for one that did, the
  flag may be set although all matches fit (`admission_truncates`), since `AdmitView` does not
  look at the restriction.

The sort and the heap are the library's (`Algorithms`).  A materializer is given by the folder
it writes.  The cancellation callback is a function of the number of candidates visited.
-/

namespace FastFiles.Search

open Index (Text backslash)
open Selection

/-! ## Requests and responses -/

inductive SearchScope where
  | currentFolder | currentFolderAndSubfolders | currentDrive | allIndexedLocations
deriving DecidableEq

structure SearchRequest where
  query : Query
  scope : SearchScope
  scopePath : Text
  sortField : SortField
  descending : Bool
  chunkSize : Nat
  /-- Zero is no limit. -/
  maxResults : Nat
  persistentOnly : Bool
  candidateFilter : Option (Candidate → Bool)
  candidateFilterRequiresFolder : Bool

structure SearchResponse where
  results : List SearchResult
  cancelled : Bool
  truncated : Bool
  candidatesVisited : Nat
deriving DecidableEq

def SearchResponse.initial : SearchResponse := ⟨[], false, false, 0⟩

/-- The folder written into a candidate, unless it could not be found. -/
abbrev CandidateMaterializer := Candidate → Option Text

/-- A candidate with its folder; without a materializer it has one. -/
def materialized (materialize : Option CandidateMaterializer) (candidate : Candidate) :
    Option Candidate :=
  match materialize with
  | none => some candidate
  | some folderOf => (folderOf candidate).map fun folder => { candidate with folder }

namespace SearchRequest

variable (ordinal : Ordinal) (locale : Locale) (request : SearchRequest)

def folderNeededForEvaluation : Bool :=
  request.scope ≠ .allIndexedLocations || request.query.requiresFolder

/-- Whether the folder is written before the filter looks at a candidate. -/
def materializesEarly : Bool :=
  request.folderNeededForEvaluation || request.candidateFilterRequiresFolder

def passesFilter (candidate : Candidate) : Bool :=
  match request.candidateFilter with
  | none => true
  | some keep => keep candidate

def inScope (candidate : Candidate) : Bool :=
  if request.persistentOnly && !candidate.persistentIndexed then false
  else
    match request.scope with
    | .allIndexedLocations => true
    | .currentFolder => ordinalEqual ordinal candidate.folder request.scopePath
    | .currentDrive => sameVolume ordinal locale request.scopePath candidate.folder
    | .currentFolderAndSubfolders =>
      if ordinalEqual ordinal candidate.folder request.scopePath then true
      else if !ordinalStartsWith ordinal candidate.folder request.scopePath then false
      else request.scopePath.isEmpty || request.scopePath.getLast? == some backslash ||
        candidate.folder[request.scopePath.length]? == some backslash

def result (candidate : Candidate) : SearchResult :=
  ⟨candidate, classifyMatch ordinal candidate.name request.query.primaryTerm⟩

/-- What `AddImpl` does with a candidate before the heap: the checks, in the source's order,
and the writing of the folder. -/
def evaluate (materialize : Option CandidateMaterializer) (alreadyEvaluated : Bool)
    (candidate : Candidate) : Option SearchResult :=
  if !alreadyEvaluated && !request.query.acceptsWithoutFolder candidate then none
  else
    match if request.materializesEarly then materialized materialize candidate else some candidate with
    | none => none
    | some candidate =>
      if !request.passesFilter candidate then none
      else if !request.inScope ordinal locale candidate then none
      else if !alreadyEvaluated && !request.query.accepts candidate then none
      else
        match if request.materializesEarly then some candidate
          else materialized materialize candidate with
        | none => none
        | some candidate => some (request.result ordinal candidate)

/-- The order of the results of a request. -/
abbrev less : SearchResult → SearchResult → Bool :=
  resultLess ordinal request.sortField request.descending

end SearchRequest

/-! ## The accumulator -/

section Accumulator

variable (ordinal : Ordinal) (locale : Locale) (request : SearchRequest)
  (algorithms : Algorithms (request.less ordinal)) (cancelled : Nat → Bool)
  (materialize : Option CandidateMaterializer)

variable (response : SearchResponse) (offered : List Candidate)

/-- A result joins those kept. -/
def SearchResponse.keep (result : SearchResult) : SearchResponse :=
  let kept := algorithms.offer request.maxResults ⟨response.results, response.truncated⟩ result
  { response with results := kept.items, truncated := kept.overflowed }

/-- `AddImpl`; it reports `false` exactly if the response is cancelled afterwards. -/
def addImpl (alreadyEvaluated : Bool) (response : SearchResponse) (candidate : Candidate) :
    SearchResponse :=
  if response.cancelled then response
  else if response.candidatesVisited % max 1 request.chunkSize = 0 ∧
      cancelled response.candidatesVisited then
    { response with cancelled := true, results := [] }
  else
    let response := { response with candidatesVisited := response.candidatesVisited + 1 }
    match request.evaluate ordinal locale materialize alreadyEvaluated candidate with
    | none => response
    | some result => response.keep ordinal request algorithms result

def add : SearchResponse → Candidate → SearchResponse :=
  addImpl ordinal locale request algorithms cancelled materialize false

def addViewMatched : SearchResponse → Candidate → SearchResponse :=
  addImpl ordinal locale request algorithms cancelled materialize true

/-- The comparison of `AdmitView`: whether a view may enter although `worst` is the last
result kept. -/
def admits (worst : SearchResult) (view : CandidateView) : Bool :=
  let verdict (primary : Int) : Bool :=
    if request.descending then decide (0 ≤ primary) else decide (primary ≤ 0)
  match request.sortField with
  | .relevance =>
    let byTier : Int :=
      (classifyMatchView ordinal view.name request.query.primaryTerm).rank - worst.tier.rank
    let byName : Int := view.name.length - worst.candidate.name.length
    verdict (if byTier = 0 then byName else byTier)
  | .filename => verdict (compareOrdinal ordinal view.name worst.candidate.name)
  | .size => verdict (threeWay view.sizeBytes worst.candidate.sizeBytes)
  | .modified => verdict (threeWay view.modifiedTime worst.candidate.modifiedTime)
  | .created => verdict (threeWay view.createdTime worst.candidate.createdTime)
  | .allocatedSize =>
    if view.allocatedSizeKnown ≠ worst.candidate.allocatedSizeKnown then view.allocatedSizeKnown
    else if !view.allocatedSizeKnown then true
    else verdict (threeWay view.allocatedSizeBytes worst.candidate.allocatedSizeBytes)
  | .path => true

/-- `AdmitView`: the verdict on a view, apart from the flag it sets. -/
def admitView (view : CandidateView) : Bool :=
  if response.cancelled then false
  else if request.maxResults = 0 then true
  else if response.results.length < request.maxResults then true
  else if request.candidateFilter.isSome || request.candidateFilterRequiresFolder ||
      request.folderNeededForEvaluation then true
  else
    match response.results with
    | [] => true
    | worst :: _ => admits ordinal request worst view

/-- One candidate of the enumeration that asks `AdmitView` first: one that is turned away
makes the response truncated, unless the search was cancelled. -/
def addAdmitted (candidate : Candidate) : SearchResponse :=
  if admitView ordinal request response candidate.view then
    addViewMatched ordinal locale request algorithms cancelled materialize response candidate
  else if response.cancelled then response
  else { response with truncated := true }

def finish : SearchResponse :=
  if response.cancelled then { response with results := [] }
  else { response with results := algorithms.sort response.results }

/-- Every candidate is offered. -/
def searchAll : SearchResponse :=
  finish ordinal request algorithms
    (offered.foldl (add ordinal locale request algorithms cancelled materialize) .initial)

/-- The candidates whose views are admitted are offered. -/
def searchAdmitted : SearchResponse :=
  finish ordinal request algorithms
    (offered.foldl (addAdmitted ordinal locale request algorithms cancelled materialize) .initial)

end Accumulator

/-! ## What a match is -/

section Matches

variable (ordinal : Ordinal) (locale : Locale) (request : SearchRequest)
  (materialize : Option CandidateMaterializer)

/-- A candidate matches if, with its folder, the query accepts it and it is in scope, and the
filter passes it; the filter sees the folder only if it asks for it or the query or scope
does. -/
def SearchRequest.matched (candidate : Candidate) : Option SearchResult :=
  (materialized materialize candidate).bind fun shown =>
    if request.query.accepts shown ∧ request.inScope ordinal locale shown ∧
        request.passesFilter (if request.materializesEarly then shown else candidate) then
      some (request.result ordinal shown)
    else none

/-- The list of all matches. -/
def SearchRequest.matchList (candidates : List Candidate) : List SearchResult :=
  candidates.filterMap (request.matched ordinal locale materialize)

variable {materialize}

theorem materialized_eq_some {candidate shown : Candidate}
    (found : materialized materialize candidate = some shown) :
    ∃ folder, shown = { candidate with folder } := by
  cases materialize with
  | none => exact ⟨candidate.folder, (Option.some.inj found).symm⟩
  | some folderOf =>
    obtain ⟨folder, -, rfl⟩ := Option.map_eq_some_iff.mp found
    exact ⟨folder, rfl⟩

variable {request}

theorem SearchRequest.inScope_folder (everywhere : request.scope = .allIndexedLocations)
    (candidate : Candidate) (folder : Text) :
    request.inScope ordinal locale { candidate with folder } =
      request.inScope ordinal locale candidate := by
  unfold inScope
  rw [everywhere]

theorem SearchRequest.folderNeededForEvaluation_eq_false
    (not_needed : request.folderNeededForEvaluation = false) :
    request.scope = .allIndexedLocations ∧ request.query.requiresFolder = false := by
  simpa [folderNeededForEvaluation] using not_needed

variable {ordinal}

/-- The checks of `Add`, in whatever order they are made, decide whether a candidate matches. -/
theorem SearchRequest.evaluate_eq_matched (compiled : request.query.Compiled)
    (candidate : Candidate) :
    request.evaluate ordinal locale materialize false candidate =
      request.matched ordinal locale materialize candidate := by
  unfold evaluate matched
  cases found : materialized materialize candidate with
  | none => cases request.materializesEarly <;> simp [found]
  | some shown =>
    obtain ⟨folder, written⟩ := materialized_eq_some found
    -- what needs no folder is subsumed by the whole query
    cases accepted : request.query.acceptsWithoutFolder candidate with
    | false =>
      have rejected : request.query.accepts shown = false := by
        by_contra taken
        have whole := Bool.eq_true_of_not_eq_false taken
        rw [written] at whole
        rw [compiled.acceptsWithoutFolder_of_accepts whole] at accepted
        exact Bool.noConfusion accepted
      simp [rejected]
    | true =>
      cases early : request.materializesEarly with
      | true =>
        simp only [Bool.not_true, Bool.and_false, Bool.false_eq_true, if_false, if_true,
          Option.bind_some]
        cases request.passesFilter shown <;> cases request.inScope ordinal locale shown <;>
          cases request.query.accepts shown <;> rfl
      | false =>
        have needed : request.folderNeededForEvaluation = false := by
          simp_all [materializesEarly]
        obtain ⟨everywhere, no_folder⟩ := folderNeededForEvaluation_eq_false needed
        have same_query : request.query.accepts shown = request.query.accepts candidate :=
          written ▸ compiled.accepts_folder no_folder candidate folder
        have same_scope : request.inScope ordinal locale shown =
            request.inScope ordinal locale candidate :=
          written ▸ inScope_folder ordinal locale everywhere candidate folder
        simp only [Bool.not_true, Bool.and_false, Bool.false_eq_true, if_false, Option.bind_some,
          same_query, same_scope, found]
        cases request.passesFilter candidate <;>
          cases request.inScope ordinal locale candidate <;>
          cases request.query.accepts candidate <;> rfl

variable {candidate : Candidate}

/-- So do the checks that are left when the view was accepted. -/
theorem SearchRequest.evaluate_alreadyEvaluated (compiled : request.query.Compiled)
    (needed : request.folderNeededForEvaluation = false)
    (accepted : request.query.accepts candidate = true) :
    request.evaluate ordinal locale materialize true candidate =
      request.matched ordinal locale materialize candidate := by
  obtain ⟨-, no_folder⟩ := folderNeededForEvaluation_eq_false needed
  rw [← evaluate_eq_matched locale compiled candidate]
  have without : request.query.acceptsWithoutFolder candidate = true := by
    rw [Query.acceptsWithoutFolder, compiled.all no_folder]
    exact accepted
  unfold evaluate
  rw [without]
  cases early : request.materializesEarly with
  | true =>
    cases found : materialized materialize candidate with
    | none => rfl
    | some shown =>
      obtain ⟨folder, rfl⟩ := materialized_eq_some found
      simp [compiled.accepts_folder no_folder, accepted]
  | false => simp [accepted]

/-- A match shows its candidate with the folder that was written. -/
theorem SearchRequest.matched_eq_some {result : SearchResult}
    (found : request.matched ordinal locale materialize candidate = some result) :
    ∃ folder, result = request.result ordinal { candidate with folder } := by
  obtain ⟨shown, written, accepted⟩ := Option.bind_eq_some_iff.mp found
  obtain ⟨folder, rfl⟩ := materialized_eq_some written
  obtain ⟨-, same⟩ := Option.ite_none_right_eq_some.mp accepted
  exact ⟨folder, (Option.some.inj same).symm⟩

end Matches

/-! ## Runs of offers -/

section Runs

variable {ordinal : Ordinal} {locale : Locale} {request : SearchRequest}
  {algorithms : Algorithms (request.less ordinal)} {cancelled : Nat → Bool}
  {materialize : Option CandidateMaterializer}

/-- The results of a response are the first of the matches so far. -/
def Tracks (ordinal : Ordinal) (request : SearchRequest) (found : List SearchResult)
    (response : SearchResponse) : Prop :=
  ∃ dropped, Selected (request.less ordinal) request.maxResults found
    ⟨response.results, response.truncated⟩ dropped

theorem tracks_initial : Tracks ordinal request [] .initial := ⟨[], Selected.empty⟩

variable {response : SearchResponse}

variable {alreadyEvaluated : Bool} {candidate : Candidate}

variable {found : List SearchResult}

/-- One offer that is not cancelled. -/
theorem tracks_addImpl [Std.TransCmp ordinal] (tracks : Tracks ordinal request found response)
    (going : (addImpl ordinal locale request algorithms cancelled materialize alreadyEvaluated response
      candidate).cancelled = false) :
    Tracks ordinal request
      (found ++ (request.evaluate ordinal locale materialize alreadyEvaluated candidate).toList)
      (addImpl ordinal locale request algorithms cancelled materialize alreadyEvaluated response
        candidate) := by
  unfold addImpl at going ⊢
  split_ifs at going ⊢ with stopped polled
  · exact absurd stopped (by simp [going])
  · dsimp only
    cases request.evaluate ordinal locale materialize alreadyEvaluated candidate with
    | none =>
      rw [Option.toList_none, List.append_nil]
      exact tracks
    | some result =>
      obtain ⟨dropped, selected⟩ := tracks
      exact selected.offer (strictWeak_resultLess ordinal request.sortField request.descending)
        algorithms result

variable {offered : List Candidate}

theorem cancelled_foldl_add (stopped : response.cancelled = true) :
    (offered.foldl (add ordinal locale request algorithms cancelled materialize) response).cancelled
      = true := by
  induction offered with
  | nil => exact stopped
  | cons candidate rest ih =>
    rw [List.foldl_cons, add, addImpl, if_pos stopped]
    exact ih

/-- A whole run of offers that is not cancelled makes the library's offers, one for each candidate
that evaluates to a result. -/
theorem kept_foldl_add
    (going : (offered.foldl (add ordinal locale request algorithms cancelled materialize)
      response).cancelled = false) :
    let last := offered.foldl (add ordinal locale request algorithms cancelled materialize) response
    (⟨last.results, last.truncated⟩ : Kept SearchResult) =
      (offered.filterMap (request.evaluate ordinal locale materialize false)).foldl
        (algorithms.offer request.maxResults) ⟨response.results, response.truncated⟩ := by
  induction offered generalizing response with
  | nil => rfl
  | cons candidate rest ih =>
    rw [List.foldl_cons] at going ⊢
    have step : (add ordinal locale request algorithms cancelled materialize response
        candidate).cancelled = false := by
      by_contra stopped
      rw [cancelled_foldl_add (Bool.eq_true_of_not_eq_false stopped)] at going
      exact Bool.noConfusion going
    refine (ih going).trans ?_
    rw [List.filterMap_cons]
    unfold add addImpl at step ⊢
    split_ifs at step ⊢ with stopped polled
    · exact absurd stopped (by simp [step])
    · cases request.evaluate ordinal locale materialize false candidate <;> rfl

/-- From the start, for a query that was compiled. -/
theorem tracks_matchList [Std.TransCmp ordinal] (compiled : request.query.Compiled)
    (going : (offered.foldl (add ordinal locale request algorithms cancelled materialize)
      .initial).cancelled = false) :
    Tracks ordinal request (request.matchList ordinal locale materialize offered)
      (offered.foldl (add ordinal locale request algorithms cancelled materialize) .initial) := by
  unfold Tracks
  rw [kept_foldl_add going, funext (SearchRequest.evaluate_eq_matched locale compiled)]
  exact Selected.offers (strictWeak_resultLess ordinal request.sortField request.descending)
    algorithms request.maxResults _

/-- Matches of different rows do not tie. -/
theorem separated_matchList [Std.TransCmp ordinal] {candidates : List Candidate}
    (rows : ∀ a ∈ candidates, ∀ b ∈ candidates, a.key = b.key → a = b) :
    Separated (request.less ordinal) (request.matchList ordinal locale materialize candidates) := by
  intro left left_mem right right_mem not_before not_after
  obtain ⟨a, a_mem, a_found⟩ := List.mem_filterMap.mp left_mem
  obtain ⟨b, b_mem, b_found⟩ := List.mem_filterMap.mp right_mem
  have same : a.key = b.key := by
    obtain ⟨_, rfl⟩ := SearchRequest.matched_eq_some locale a_found
    obtain ⟨_, rfl⟩ := SearchRequest.matched_eq_some locale b_found
    exact key_eq_of_tie not_before not_after
  obtain rfl := rows a a_mem b b_mem same
  exact Option.some.inj (a_found.symm.trans b_found)

/-- The first elements of a list, all of them if the limit is zero. -/
def firstOf {α : Type*} (limit : Nat) (items : List α) : List α :=
  if limit = 0 then items else items.take limit

/-- What `Finish` returns is the beginning of the sorted matches, whatever the flag. -/
theorem finish_of_tracks (algorithms : Algorithms (request.less ordinal)) {flag : Bool}
    (tracks : Tracks ordinal request found { response with truncated := flag }) (going : response.cancelled = false)
    (separated : Separated (request.less ordinal) found) :
    (finish ordinal request algorithms response).results =
      firstOf request.maxResults (algorithms.sort found) := by
  obtain ⟨dropped, selected⟩ := tracks
  unfold finish
  rw [if_neg (by simp [going])]
  exact selected.sort_eq algorithms separated

theorem truncated_of_tracks (tracks : Tracks ordinal request found response) :
    response.truncated = true ↔ request.maxResults ≠ 0 ∧ request.maxResults < found.length := by
  obtain ⟨dropped, selected⟩ := tracks
  exact selected.overflowed_iff

theorem finish_flags (response : SearchResponse) :
    (finish ordinal request algorithms response).cancelled = response.cancelled ∧
      (finish ordinal request algorithms response).truncated = response.truncated := by
  unfold finish
  split_ifs <;> exact ⟨rfl, rfl⟩

end Runs

/-- Whatever the order in which candidates of different rows are offered, the accumulator
returns the beginning of the sorted list of the matches among them, and reports whether there
are more. -/
theorem topN_exact (host : Host) (ordinal : Ordinal) [Std.TransCmp ordinal] (locale : Locale)
    (text : Text) (request : SearchRequest) (parsed : request.query = parseQuery host ordinal text)
    (algorithms : Algorithms (request.less ordinal)) (cancelled : Nat → Bool)
    (materialize : Option CandidateMaterializer) (candidates offered : List Candidate)
    (rows : (candidates.map Candidate.key).Nodup) (order : offered.Perm candidates)
    (going : (searchAll ordinal locale request algorithms cancelled materialize offered).cancelled
      = false) :
    let found := request.matchList ordinal locale materialize candidates
    let response := searchAll ordinal locale request algorithms cancelled materialize offered
    response.results = firstOf request.maxResults (algorithms.sort found) ∧
      (response.truncated = true ↔ request.maxResults ≠ 0 ∧ request.maxResults < found.length) := by
  intro found response
  have same_row : ∀ a ∈ candidates, ∀ b ∈ candidates, a.key = b.key → a = b :=
    fun a a_mem b b_mem => List.inj_on_of_nodup_map rows a_mem b_mem
  have separated : Separated (request.less ordinal) found := separated_matchList same_row
  have perm : (request.matchList ordinal locale materialize offered).Perm found :=
    order.filterMap _
  rw [searchAll, (finish_flags _).1] at going
  have compiled : request.query.Compiled := parsed ▸ compiled_parseQuery host ordinal text
  have tracks := tracks_matchList compiled going
  constructor
  · have results := finish_of_tracks algorithms tracks going
      (separated_matchList fun a a_mem b b_mem =>
        same_row a (order.mem_iff.mp a_mem) b (order.mem_iff.mp b_mem))
    rw [algorithms.sort_congr separated perm] at results
    exact results
  · have truncated := truncated_of_tracks tracks
    rw [perm.length_eq] at truncated
    rw [← truncated]
    show (finish ordinal request algorithms _).truncated = true ↔ _
    rw [(finish_flags _).2]

/-! A search for the largest entry of the durable index with an `a` in its name; texts are ordered
as ASCII folds them. -/

/-- The order of texts folded as ASCII. -/
def foldOrdinal : Ordinal := compareOn foldAscii16

instance foldOrdinal_trans : Std.TransCmp foldOrdinal :=
  inferInstanceAs (Std.TransCmp (compareOn foldAscii16))

/-- The largest entry of the durable index with an `a` in its name. -/
def largestIndexed : SearchRequest where
  query := parseQuery plainHost foldOrdinal [0x61]
  scope := .allIndexedLocations
  scopePath := []
  sortField := .size
  descending := true
  chunkSize := 1024
  maxResults := 1
  persistentOnly := true
  candidateFilter := none
  candidateFilterRequiresFolder := false

/-- A file of the given name in `C:\`. -/
def row (name : Text) (id size : UInt64) (persistentIndexed : Bool) : Candidate where
  name
  folder := [0x43, 0x3a, 0x5c]
  sizeBytes := size
  modifiedTime := 0
  isDirectory := false
  createdTime := 0
  volumeId := 1
  id
  parentId := 5
  persistentIndexed
  allocatedSizeBytes := 0
  allocatedSizeKnown := false

def asciiLocale : Locale := ⟨fun unit => decide (0x41 ≤ (foldAsciiChar unit).toNat), id⟩

def referenceAlgorithms (request : SearchRequest) : Algorithms (request.less foldOrdinal) :=
  .reference (strictWeak_resultLess foldOrdinal request.sortField request.descending)

theorem sort_pair {request : SearchRequest} {first second : SearchResult}
    (before : request.less foldOrdinal second first = true) :
    (referenceAlgorithms request).sort [first, second] = [second, first] := by
  simp [referenceAlgorithms, Algorithms.reference, List.mergeSort,
    List.MergeSort.Internal.splitInTwo, before]

/-- Of `ba`, `A` and `b`, where the last is the largest, the second is found. -/
theorem topN_exact_largest :
    let candidates := [row [0x62, 0x61] 7 5 true, row [0x41] 6 10 true, row [0x62] 8 20 true]
    let response := searchAll foldOrdinal asciiLocale largestIndexed
      (referenceAlgorithms largestIndexed) (fun _ => false) none candidates.reverse
    response.results = [largestIndexed.result foldOrdinal (row [0x41] 6 10 true)] ∧
      response.truncated = true := by
  intro candidates response
  obtain ⟨results, truncated⟩ := topN_exact plainHost foldOrdinal asciiLocale [0x61] largestIndexed
    rfl (referenceAlgorithms largestIndexed) (fun _ => false) none candidates candidates.reverse
    (by decide) (List.reverse_perm _) (by decide +kernel)
  have found : largestIndexed.matchList foldOrdinal asciiLocale none candidates =
      [largestIndexed.result foldOrdinal (row [0x62, 0x61] 7 5 true),
        largestIndexed.result foldOrdinal (row [0x41] 6 10 true)] := by decide +kernel
  rw [found, sort_pair (by decide +kernel)] at results
  exact ⟨results, truncated.mpr (by rw [found]; decide)⟩

/-! ## Admission -/

section Admission

variable {ordinal : Ordinal} {locale : Locale} {request : SearchRequest}
  {algorithms : Algorithms (request.less ordinal)} {materialize : Option CandidateMaterializer}

theorem threeWay_neg (left right : UInt64) : threeWay left right = -threeWay right left := by
  unfold threeWay
  split_ifs with less more more
  all_goals first | rfl | exact absurd more (UInt64.lt_asymm less)

theorem compareOrdinal_neg [Std.TransCmp ordinal] (left right : Text) :
    compareOrdinal ordinal left right = -compareOrdinal ordinal right left := by
  have swapped : ordinal left right = (ordinal right left).swap := Std.OrientedCmp.eq_swap
  unfold compareOrdinal
  rw [swapped]
  cases ordinal right left <;> rfl

variable {descending : Bool} {key : Int} {right worst : SearchResult}

/-- A primary key that differs decides. -/
theorem resultLess_of_primary {field : SortField} {left : SearchResult}
    (comparable : ¬ (field = .allocatedSize ∧
      left.candidate.allocatedSizeKnown ≠ right.candidate.allocatedSizeKnown))
    (opposite : primary ordinal field left right = -key)
    (turned_away : (if descending then decide (0 ≤ key) else decide (key ≤ 0)) = false) :
    resultLess ordinal field descending left right = true := by
  unfold resultLess
  rw [if_neg comparable, opposite]
  cases descending with
  | false =>
    have positive : ¬ key ≤ 0 := by simpa using turned_away
    rw [if_pos (by omega)]
    exact decide_eq_true (by omega)
  | true =>
    have negative : ¬ 0 ≤ key := by simpa using turned_away
    rw [if_pos (by omega)]
    exact decide_eq_true (by omega)

/-- Ties are admitted. -/
theorem key_ne_zero_of_turned_away
    (turned_away : (if descending then decide (0 ≤ key) else decide (key ≤ 0)) = false) :
    key ≠ 0 := by
  rintro rfl
  cases descending <;> exact Bool.noConfusion turned_away

theorem primary_relevance {byTier byName : Int} (tier : byTier = right.tier.rank - worst.tier.rank)
    (name : byName = right.candidate.name.length - worst.candidate.name.length)
    (decided : (if byTier = 0 then byName else byTier) ≠ 0) :
    primary ordinal .relevance worst right = -(if byTier = 0 then byName else byTier) := by
  unfold primary
  dsimp only
  split_ifs at decided ⊢ <;> omega

variable {candidate : Candidate}

/-- The last result kept comes strictly before one whose view is turned away. -/
theorem less_of_not_admits [Std.TransCmp ordinal] (folder : Text)
    (turned_away : admits ordinal request worst candidate.view = false) :
    request.less ordinal worst (request.result ordinal { candidate with folder }) = true := by
  unfold admits at turned_away
  unfold SearchRequest.less
  generalize request.sortField = field at turned_away ⊢
  cases field with
  | relevance =>
    dsimp only at turned_away
    refine resultLess_of_primary (by simp)
      (primary_relevance ?_ rfl (key_ne_zero_of_turned_away turned_away)) turned_away
    rw [classifyMatchView_eq]
    rfl
  | filename => exact resultLess_of_primary (by simp) (compareOrdinal_neg _ _) turned_away
  | path => exact Bool.noConfusion turned_away
  | size | modified | created =>
    exact resultLess_of_primary (by simp) (threeWay_neg _ _) turned_away
  | allocatedSize =>
    dsimp only at turned_away
    by_cases differs : worst.candidate.allocatedSizeKnown = candidate.allocatedSizeKnown
    · rw [if_neg (by simpa [Candidate.view] using differs.symm)] at turned_away
      cases known : candidate.view.allocatedSizeKnown with
      | false =>
        rw [known] at turned_away
        exact Bool.noConfusion turned_away
      | true =>
        rw [known] at turned_away
        refine resultLess_of_primary (fun h => h.2 differs) ?_ turned_away
        have worst_known : worst.candidate.allocatedSizeKnown = true := differs.trans known
        unfold primary
        dsimp only
        rw [if_pos worst_known]
        exact threeWay_neg _ _
    · rw [if_pos (by simpa [Candidate.view, eq_comm] using differs)] at turned_away
      unfold resultLess
      rw [if_pos ⟨rfl, differs⟩]
      have unknown : candidate.allocatedSizeKnown = false := turned_away
      simpa [unknown] using differs

variable {response : SearchResponse}

/-- What `AdmitView` saw when it turned a view away. -/
theorem admitView_eq_false {view : CandidateView}
    (going : response.cancelled = false) (turned_away : admitView ordinal request response view = false) :
    request.maxResults ≠ 0 ∧ request.maxResults ≤ response.results.length ∧
      request.candidateFilter = none ∧ request.candidateFilterRequiresFolder = false ∧
      ∃ worst rest, response.results = worst :: rest ∧ admits ordinal request worst view = false := by
  unfold admitView at turned_away
  rw [if_neg (by simp [going])] at turned_away
  split_ifs at turned_away with unbounded room unseen
  simp only [Bool.or_eq_true, not_or, Option.isSome_iff_ne_none, ne_eq, not_not,
    Bool.not_eq_true] at unseen
  refine ⟨unbounded, Nat.le_of_not_lt room, unseen.1.1, unseen.1.2, ?_⟩
  cases kept : response.results with
  | nil =>
    rw [kept] at turned_away
    exact Bool.noConfusion turned_away
  | cons worst rest =>
    rw [kept] at turned_away
    exact ⟨worst, rest, rfl, turned_away⟩

/-- A candidate of the enumeration: its view was accepted, the query says the same of the
candidate, its folder is found, and it is in the durable index if the request asks for that. -/
structure Offered (ordinal : Ordinal) (request : SearchRequest)
    (materialize : Option CandidateMaterializer) (candidate : Candidate) : Prop where
  view_accepted : request.query.acceptsView ordinal candidate.view = true
  agrees : request.query.acceptsView ordinal candidate.view = request.query.accepts candidate
  folder_found : (materialized materialize candidate).isSome
  indexed : request.persistentOnly = true → candidate.persistentIndexed = true

theorem Offered.accepted (offered : Offered ordinal request materialize candidate) :
    request.query.accepts candidate = true :=
  offered.agrees ▸ offered.view_accepted

variable (compiled : request.query.Compiled) (needed : request.folderNeededForEvaluation = false)

include compiled needed

/-- Without a filter, nothing keeps a candidate of the enumeration out. -/
theorem Offered.matched_isSome (offered : Offered ordinal request materialize candidate)
    (no_filter : request.candidateFilter = none) :
    ∃ result, request.matched ordinal locale materialize candidate = some result := by
  obtain ⟨everywhere, no_folder⟩ := SearchRequest.folderNeededForEvaluation_eq_false needed
  obtain ⟨shown, found⟩ := Option.isSome_iff_exists.mp offered.folder_found
  obtain ⟨folder, rfl⟩ := materialized_eq_some found
  have inside : request.inScope ordinal locale candidate = true := by
    unfold SearchRequest.inScope
    rw [everywhere]
    cases only : request.persistentOnly with
    | false => rfl
    | true => simp [offered.indexed only]
  unfold SearchRequest.matched
  rw [found, Option.bind_some, compiled.accepts_folder no_folder, offered.accepted,
    SearchRequest.inScope_folder ordinal locale everywhere, inside]
  exact ⟨_, if_pos ⟨rfl, rfl, by simp [SearchRequest.passesFilter, no_filter]⟩⟩

omit compiled needed in
/-- An uncancelled callback leaves an offer uncancelled. -/
theorem cancelled_addImpl {alreadyEvaluated : Bool} (going : response.cancelled = false) :
    (addImpl ordinal locale request algorithms (fun _ => false) materialize alreadyEvaluated response
      candidate).cancelled = false := by
  unfold addImpl
  rw [if_neg (by simp [going]), if_neg (by simp)]
  dsimp only
  cases request.evaluate ordinal locale materialize alreadyEvaluated candidate <;> exact going

/-- One candidate of the enumeration that asks first.  One that is turned away comes behind the
last result of a full heap, so it only makes the response truncated, as its offer would. -/
theorem tracks_addAdmitted [Std.TransCmp ordinal] {found : List SearchResult}
    (tracks : Tracks ordinal request found response) (going : response.cancelled = false)
    (offered : Offered ordinal request materialize candidate) :
    let next := addAdmitted ordinal locale request algorithms (fun _ => false) materialize response
      candidate
    next.cancelled = false ∧ Tracks ordinal request
      (found ++ (request.matched ordinal locale materialize candidate).toList) next := by
  intro next
  cases verdict : admitView ordinal request response candidate.view with
  | true =>
    have made : next = addViewMatched ordinal locale request algorithms (fun _ => false) materialize
        response candidate := if_pos verdict
    rw [made, addViewMatched]
    refine ⟨cancelled_addImpl going, ?_⟩
    rw [← SearchRequest.evaluate_alreadyEvaluated locale compiled needed offered.accepted]
    exact tracks_addImpl tracks (cancelled_addImpl going)
  | false =>
    obtain ⟨bound, no_room, no_filter, -, worst, rest, front, worse⟩ :=
      admitView_eq_false going verdict
    obtain ⟨result, matched⟩ := offered.matched_isSome compiled needed no_filter
    have made : next = { response with truncated := true } := by
      simp [next, addAdmitted, verdict, going]
    rw [made, matched, Option.toList_some]
    refine ⟨going, ?_⟩
    obtain ⟨dropped, selected⟩ := tracks
    obtain ⟨folder, rfl⟩ := SearchRequest.matched_eq_some locale matched
    exact ⟨_, selected.skip (strictWeak_resultLess ordinal request.sortField request.descending)
      front bound no_room (less_of_not_admits folder worse)⟩

/-- The enumeration that asks first, from any response. -/
theorem tracks_foldl_addAdmitted [Std.TransCmp ordinal] {found : List SearchResult}
    {seen : List Candidate} (tracks : Tracks ordinal request found response)
    (going : response.cancelled = false)
    (offered : ∀ candidate ∈ seen, Offered ordinal request materialize candidate) :
    let last := seen.foldl (addAdmitted ordinal locale request algorithms (fun _ => false) materialize)
      response
    last.cancelled = false ∧
      Tracks ordinal request (found ++ request.matchList ordinal locale materialize seen) last := by
  induction seen generalizing response found with
  | nil => simpa [SearchRequest.matchList] using ⟨going, tracks⟩
  | cons candidate seen ih =>
    obtain ⟨still, next⟩ := tracks_addAdmitted compiled needed tracks going (offered candidate (.head _))
    have whole := ih next still fun other member => offered other (.tail _ member)
    have matches_ : request.matchList ordinal locale materialize (candidate :: seen) =
        (request.matched ordinal locale materialize candidate).toList ++
          request.matchList ordinal locale materialize seen := by
      rw [SearchRequest.matchList, List.filterMap_cons]
      cases request.matched ordinal locale materialize candidate <;> rfl
    rwa [List.append_assoc, ← matches_] at whole

omit compiled needed

/-- An uncancelled callback leaves a run of offers uncancelled. -/
theorem foldl_add_going (offered : List Candidate) (going : response.cancelled = false) :
    (offered.foldl (add ordinal locale request algorithms (fun _ => false) materialize)
      response).cancelled = false := by
  induction offered generalizing response with
  | nil => exact going
  | cons candidate rest ih =>
    rw [List.foldl_cons]
    apply ih
    exact cancelled_addImpl going

end Admission

/-- **Asking `AdmitView` first changes nothing**, neither the results nor the truncated flag. -/
theorem admission_same (host : Host) (ordinal : Ordinal) [Std.TransCmp ordinal] (locale : Locale)
    (text : Text) (request : SearchRequest) (parsed : request.query = parseQuery host ordinal text)
    (algorithms : Algorithms (request.less ordinal)) (materialize : Option CandidateMaterializer)
    (needed : request.folderNeededForEvaluation = false) (offered : List Candidate)
    (valid : ∀ candidate ∈ offered, Offered ordinal request materialize candidate)
    (rows : ∀ a ∈ offered, ∀ b ∈ offered, a.key = b.key → a = b) :
    let reference := searchAll ordinal locale request algorithms (fun _ => false) materialize offered
    let gated := searchAdmitted ordinal locale request algorithms (fun _ => false) materialize offered
    gated.results = reference.results ∧ gated.truncated = reference.truncated := by
  intro reference gated
  have compiled : request.query.Compiled := parsed ▸ compiled_parseQuery host ordinal text
  have separated : Separated (request.less ordinal)
      (request.matchList ordinal locale materialize offered) := separated_matchList rows
  have run : (offered.foldl (addAdmitted ordinal locale request algorithms (fun _ => false)
        materialize) .initial).cancelled = false ∧ Tracks ordinal request _ _ :=
    tracks_foldl_addAdmitted compiled needed tracks_initial rfl valid
  obtain ⟨asking, admitted⟩ := run
  rw [List.nil_append] at admitted
  have going : (offered.foldl (add ordinal locale request algorithms (fun _ => false) materialize)
      .initial).cancelled = false := foldl_add_going offered rfl
  have tracks := tracks_matchList compiled going
  constructor
  · exact (finish_of_tracks algorithms admitted asking separated).trans
      (finish_of_tracks algorithms tracks going separated).symm
  · have flags := (truncated_of_tracks admitted).trans (truncated_of_tracks tracks).symm
    rw [Bool.eq_iff_iff]
    show (finish ordinal request algorithms _).truncated = true ↔
      (finish ordinal request algorithms _).truncated = true
    rw [(finish_flags _).2, (finish_flags _).2]
    exact flags

/-- The view of the smaller file is turned away, and the response is truncated as if it had been
offered. -/
theorem admission_same_indexed :
    let offered := [row [0x41] 6 10 true, row [0x62, 0x61] 7 5 true]
    let reference := searchAll foldOrdinal asciiLocale largestIndexed
      (referenceAlgorithms largestIndexed) (fun _ => false) none offered
    let gated := searchAdmitted foldOrdinal asciiLocale largestIndexed
      (referenceAlgorithms largestIndexed) (fun _ => false) none offered
    gated.candidatesVisited = 1 ∧ gated.results = reference.results ∧ reference.truncated = true := by
  intro offered reference gated
  have valid : ∀ candidate ∈ offered, Offered foldOrdinal largestIndexed none candidate := by
    intro candidate member
    rcases List.mem_pair.mp member with rfl | rfl
    all_goals exact ⟨by decide +kernel, by decide +kernel, rfl, fun _ => rfl⟩
  obtain ⟨results, truncated⟩ := admission_same plainHost foldOrdinal asciiLocale [0x61]
    largestIndexed rfl (referenceAlgorithms largestIndexed) none (by decide +kernel) offered valid
    (by decide)
  exact ⟨by decide +kernel, results, truncated.symm.trans (by decide +kernel)⟩

/-- One entry fits, and it is the only one of the durable index.  A smaller one that is not in
the index has its view turned away, and the response is truncated; offered, it is out of
scope. -/
theorem admission_truncates :
    let offered := [row [0x61] 6 10 true, row [0x61] 7 5 false]
    (searchAdmitted foldOrdinal asciiLocale largestIndexed (referenceAlgorithms largestIndexed)
      (fun _ => false) none offered).truncated = true ∧
    (searchAll foldOrdinal asciiLocale largestIndexed (referenceAlgorithms largestIndexed)
      (fun _ => false) none offered).truncated = false := by
  decide +kernel

end FastFiles.Search
