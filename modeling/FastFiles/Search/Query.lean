import FastFiles.Search.Literal

/-!
# Candidates and compiled queries

The data of `Query.h`: what is searched, and a query as the predicates it was compiled to.
A predicate is a function, as in the source; `Compiled` states what compiling ensures of the
lists of predicates.
-/

namespace FastFiles.Search

open Index (Text)

/-! ## Candidates -/

structure Candidate where
  name : Text
  folder : Text
  sizeBytes : UInt64
  modifiedTime : UInt64
  isDirectory : Bool
  createdTime : UInt64
  volumeId : Int
  id : UInt64
  parentId : UInt64
  persistentIndexed : Bool
  allocatedSizeBytes : UInt64
  allocatedSizeKnown : Bool
deriving DecidableEq

/-- What is known of a candidate before its folder is. -/
structure CandidateView where
  name : Text
  folder : Text
  sizeBytes : UInt64
  modifiedTime : UInt64
  isDirectory : Bool
  createdTime : UInt64
  volumeId : Int
  id : UInt64
  parentId : UInt64
  persistentIndexed : Bool
  allocatedSizeBytes : UInt64
  allocatedSizeKnown : Bool
  nameIsAscii : Bool
deriving DecidableEq

variable (query : Query) (candidate : Candidate)

namespace Candidate

/-- The row a candidate stands for. -/
def key : Int × UInt64 := (candidate.volumeId, candidate.id)

/-- The view of a candidate; its folder is not known yet. -/
def view : CandidateView where
  name := candidate.name
  folder := []
  sizeBytes := candidate.sizeBytes
  modifiedTime := candidate.modifiedTime
  isDirectory := candidate.isDirectory
  createdTime := candidate.createdTime
  volumeId := candidate.volumeId
  id := candidate.id
  parentId := candidate.parentId
  persistentIndexed := candidate.persistentIndexed
  allocatedSizeBytes := candidate.allocatedSizeBytes
  allocatedSizeKnown := candidate.allocatedSizeKnown
  nameIsAscii := isAscii candidate.name

end Candidate

/-! ## Queries -/

abbrev Predicate := Candidate → Bool

abbrev ViewPredicate := CandidateView → Bool

/-- The prepared term of a query that is a single literal. -/
structure SimpleLiteral where
  term : Text
  folded : Text
  anchor : UInt16
  anchorIndex : Nat
  shifts : Shifts

structure Query where
  predicates : List Predicate
  predicatesWithoutFolder : List Predicate
  viewPredicates : List ViewPredicate
  primaryTerm : Text
  requiresFolder : Bool
  viewCompatible : Bool
  simpleLiteral : Option SimpleLiteral

def ordinalContains16Prepared (ordinal : Ordinal) (haystack : Text) (literal : SimpleLiteral)
    (nameIsAscii : Bool) : Bool :=
  if literal.term.isEmpty then true
  else if haystack.length < literal.term.length then false
  else if !literal.folded.isEmpty && nameIsAscii then
    if 4 ≤ literal.folded.length then
      if haystack.length < literal.folded.length then false
      else horspoolScan haystack literal.folded literal.shifts haystack.length (literal.folded.length - 1)
    else
      if haystack.length < literal.folded.length then false
      else anchorScan haystack literal.folded literal.anchor literal.anchorIndex literal.anchorIndex
  else (alignments haystack literal.term.length).any fun start =>
    ordinal ((haystack.drop start).take literal.term.length) literal.term == .eq

namespace Query

/-- `Matches`: every predicate holds. -/
def accepts : Bool :=
  query.predicates.all fun predicate => predicate candidate

/-- `MatchesWithoutFolder`. -/
def acceptsWithoutFolder : Bool :=
  query.predicatesWithoutFolder.all fun predicate => predicate candidate

/-- `MatchesView`. -/
def acceptsView (ordinal : Ordinal) (query : Query) (view : CandidateView) : Bool :=
  match query.viewCompatible, query.simpleLiteral with
  | true, some literal => ordinalContains16Prepared ordinal view.name literal view.nameIsAscii
  | true, none => query.viewPredicates.all fun predicate => predicate view
  | false, _ => false

/-- What compiling ensures: the predicates that need no folder are among all of them and read
none, and they are all if the query needs no folder. -/
structure Compiled (query : Query) : Prop where
  among : ∀ predicate ∈ query.predicatesWithoutFolder, predicate ∈ query.predicates
  folderless : ∀ predicate ∈ query.predicatesWithoutFolder, ∀ candidate folder,
    predicate { candidate with folder } = predicate candidate
  all : query.requiresFolder = false → query.predicatesWithoutFolder = query.predicates

namespace Compiled

variable {query : Query} (compiled : query.Compiled)

include compiled

theorem acceptsWithoutFolder_of_accepts {candidate : Candidate} {folder : Text}
    (accepted : query.accepts { candidate with folder } = true) :
    query.acceptsWithoutFolder candidate = true := by
  refine List.all_eq_true.mpr fun predicate mem => ?_
  rw [← compiled.folderless predicate mem candidate folder]
  exact List.all_eq_true.mp accepted predicate (compiled.among predicate mem)

/-- A query that needs no folder does not look at it. -/
theorem accepts_folder (no_folder : query.requiresFolder = false) (candidate : Candidate)
    (folder : Text) : query.accepts { candidate with folder } = query.accepts candidate := by
  have same : ∀ predicate ∈ query.predicates,
      predicate { candidate with folder } = predicate candidate := by
    intro predicate mem
    rw [← compiled.all no_folder] at mem
    exact compiled.folderless predicate mem candidate folder
  rw [Bool.eq_iff_iff, accepts, accepts, List.all_eq_true, List.all_eq_true]
  exact forall₂_congr fun predicate mem => by rw [same predicate mem]

end Compiled

end Query

end FastFiles.Search
