import FastFiles.Search.Literal

/-!
# Transfer plans

`BuildTransferPlan`, `BuildLinkPlan` and `BuildRestorePlan` of `FileOperationPolicy.cpp`: which
destination every item of a batch gets, decided before anything is moved.

What `std::filesystem::path` does with a path, which paths exist, the comparison of paths and
the answers of the user are parameters.  Transfers and restores differ in where their wanted
paths come from and share one loop, `planEntries`.

`plans_never_overwrite` states, for the three plans, that destinations are pairwise different,
that only an item marked as replacing has a destination that exists, that it is marked only on
the answer to replace, and which positions contribute no item.
-/

namespace FastFiles.Ui

open Index (Text)

/-! ## Paths -/

/-- The operations of `std::filesystem::path` that the plans use. -/
structure PathOps where
  filename : Text → Text
  parentPath : Text → Text
  stem : Text → Text
  extension : Text → Text
  append : Text → Text → Text
  lexicallyNormal : Text → Text

/-- What a plan depends on besides its sources. -/
structure World where
  /-- `CompareStringOrdinal` with case ignored. -/
  ordinal : Search.Ordinal
  paths : PathOps
  present : Text → Bool

namespace World

variable (world : World)

def join (folder name : Text) : Text := world.paths.append folder name

variable (planned : List Text) (path : Text)

def destinationKey : Text := world.paths.lexicallyNormal path

/-- The equality of a set ordered by `CaseInsensitivePathLess`: neither comes first. -/
def sameKey (left right : Text) : Bool :=
  world.ordinal left right != .lt && world.ordinal right left != .lt

/-- `plannedDestinations.contains(DestinationKey(path))`. -/
def isPlanned : Bool :=
  planned.any fun key => world.sameKey key (world.destinationKey path)

def isOccupied : Bool :=
  world.isPlanned planned path || world.present path

def reserve : List Text := world.destinationKey path :: planned

/-- `std::to_wstring`. -/
def decimal (number : Nat) : Text := (Nat.toDigits 10 number).map fun digit => .ofNat digit.toNat

/-- The original name with a number before its extension. -/
def numberedName (originalName : Text) (suffix : Nat) : Text :=
  let stem := world.paths.stem originalName
  (if stem.isEmpty then originalName else stem) ++ [0x20, 0x28] ++ decimal suffix ++ [0x29] ++
    world.paths.extension originalName

/-- The suffixes from 2 to 999999 are tried; `none` stands for the empty name. -/
def generateKeepBothName (folder originalName : Text) (occupied : Text → Bool) : Option Text :=
  ((List.range' 2 999998).map (world.numberedName originalName)).find? fun candidate =>
    !occupied (world.join folder candidate)

end World

/-! ## Conflicts -/

inductive ConflictChoice where
  | replace | skip | keepBoth | cancel
deriving DecidableEq

structure ConflictDecision where
  choice : ConflictChoice
  applyToAllRemaining : Bool
deriving DecidableEq

/-- The user's answers, by the number of questions before and what is shown. -/
abbrev ConflictPrompt := Nat → Text → Text → ConflictDecision

/-- An item to be placed: the path it wants, that path's folder and name, and the path shown in
a question. -/
structure Entry where
  wanted : Text
  folder : Text
  name : Text
  shown : Text
deriving DecidableEq

/-- The empty name stands for the wanted one. -/
structure PlannedItem where
  destinationName : Text
  replacesExisting : Bool
deriving DecidableEq

/-- What became of an entry: the question asked about it, and its item. -/
structure Outcome where
  prompted : Option ConflictDecision
  item : Option PlannedItem
deriving DecidableEq

structure PlanState where
  planned : List Text
  remainingChoice : Option ConflictChoice
  prompts : Nat
deriving DecidableEq

def PlanState.initial : PlanState := ⟨[], none, 0⟩

/-- The state once a question was asked: an answer for all remaining conflicts is remembered. -/
def PlanState.remember (state : PlanState) (decision : ConflictDecision) : PlanState :=
  { state with
    prompts := state.prompts + 1
    remainingChoice :=
      if decision.applyToAllRemaining ∧ decision.choice ≠ .cancel then some decision.choice
      else state.remainingChoice }

section Plans

variable (world : World) (prompt : ConflictPrompt)

variable (state : PlanState) (entry : Entry)

/-- An entry that keeps both: a name that is free, or the end of the plan. -/
def keepBoth (prompted : Option ConflictDecision) : Option (Outcome × PlanState) :=
  match world.generateKeepBothName entry.folder entry.name (world.isOccupied state.planned) with
  | none => none
  | some name => some (⟨prompted, some ⟨name, false⟩⟩,
      { state with planned := world.reserve state.planned (world.join entry.folder name) })

/-- What is done about a conflict; an item of this batch is never replaced. -/
def settle (prompted : Option ConflictDecision) (choice : ConflictChoice) :
    Option (Outcome × PlanState) :=
  match choice with
  | .cancel => none
  | .skip => some (⟨prompted, none⟩, state)
  | .keepBoth => keepBoth world state entry prompted
  | .replace =>
    if world.isPlanned state.planned entry.wanted then keepBoth world state entry prompted
    else some (⟨prompted, some ⟨[], true⟩⟩,
      { state with planned := world.reserve state.planned entry.wanted })

/-- One round of the loop; `none` ends the plan. -/
def planEntry : Option (Outcome × PlanState) :=
  if !world.isPlanned state.planned entry.wanted && !world.present entry.wanted then
    some (⟨none, some ⟨[], false⟩⟩,
      { state with planned := world.reserve state.planned entry.wanted })
  else
    match state.remainingChoice with
    | some choice => settle world state entry none choice
    | none =>
      let decision := prompt state.prompts entry.shown entry.wanted
      settle world (state.remember decision) entry (some decision) decision.choice

def planEntries : List Entry → PlanState → Option (List Outcome)
  | [], _ => some []
  | entry :: entries, state =>
    match planEntry world prompt state entry with
    | none => none
    | some (outcome, state) => (planEntries entries state).map (outcome :: ·)

/-! ## The plans -/

structure TransferPlanItem where
  source : Text
  destinationName : Text
  replacesExisting : Bool
deriving DecidableEq

variable (sources : List Text) (destinationFolder : Text)

def transferEntry (source : Text) : Entry :=
  let originalName := world.paths.filename source
  ⟨world.join destinationFolder originalName, destinationFolder, originalName, source⟩

def transferItem (source : Text) (outcome : Outcome) : Option TransferPlanItem :=
  outcome.item.map fun item => ⟨source, item.destinationName, item.replacesExisting⟩

def buildTransferPlan : Option (List TransferPlanItem) :=
  (planEntries world prompt (sources.map (transferEntry world destinationFolder)) .initial).map
    fun outcomes => (sources.zip outcomes).filterMap fun (source, outcome) =>
      transferItem source outcome

structure RestorePlanItem where
  restoreIndex : Nat
  destinationName : Text
  replacesExisting : Bool
deriving DecidableEq

def restoreEntry (originalPath : Text) : Entry :=
  ⟨originalPath, world.paths.parentPath originalPath, world.paths.filename originalPath, originalPath⟩

def restoreItem (index : Nat) (outcome : Outcome) : Option RestorePlanItem :=
  outcome.item.map fun item => ⟨index, item.destinationName, item.replacesExisting⟩

def buildRestorePlan (originalPaths : List Text) : Option (List RestorePlanItem) :=
  (planEntries world prompt (originalPaths.map (restoreEntry world)) .initial).map
    fun outcomes => outcomes.zipIdx.filterMap fun (outcome, index) => restoreItem index outcome

/-- `.lnk` -/
def linkSuffix : Text := [0x2e, 0x6c, 0x6e, 0x6b]

/-- The name of the shortcut to a source, if one is free. -/
def linkName (planned : List Text) (source : Text) : Option Text :=
  let baseName := world.paths.filename source ++ linkSuffix
  if world.isOccupied planned (world.join destinationFolder baseName) then
    world.generateKeepBothName destinationFolder baseName (world.isOccupied planned)
  else some baseName

/-- The loop of `BuildLinkPlan`: the first source without a free name ends it. -/
def linkLoop (destinationFolder : Text) : List Text → List Text → List TransferPlanItem
  | [], _ => []
  | source :: sources, planned =>
    match linkName world destinationFolder planned source with
    | none => []
    | some name => ⟨source, name, false⟩ ::
        linkLoop destinationFolder sources
          (world.reserve planned (world.join destinationFolder name))

def buildLinkPlan : List TransferPlanItem :=
  linkLoop world destinationFolder sources []

end Plans

/-! ## One entry -/

variable {choice : ConflictChoice}

section OneEntry

variable {world : World} {prompt : ConflictPrompt} {state next : PlanState} {entry : Entry}
  {outcome : Outcome}

/-- Where an item goes. -/
def Entry.destination (world : World) (entry : Entry) (item : PlannedItem) : Text :=
  if item.destinationName.isEmpty then entry.wanted
  else world.join entry.folder item.destinationName

theorem generateKeepBothName_free {folder originalName name : Text} {occupied : Text → Bool}
    (found : world.generateKeepBothName folder originalName occupied = some name) :
    name ≠ [] ∧ occupied (world.join folder name) = false := by
  have free := List.find?_some found
  obtain ⟨suffix, -, rfl⟩ := List.mem_map.mp (List.mem_of_find?_eq_some found)
  exact ⟨by simp [World.numberedName], by simpa using free⟩

/-- The choice that was made for an entry, by the answer to its question or a remembered one. -/
def AnsweredWith (remaining : Option ConflictChoice) (outcome : Outcome) (choice : ConflictChoice) :
    Prop :=
  match outcome.prompted with
  | some decision => decision.choice = choice
  | none => remaining = some choice

/-- The remembered choice after a round. -/
def remainingAfter (state : PlanState) : Option ConflictDecision → Option ConflictChoice
  | none => state.remainingChoice
  | some decision => (state.remember decision).remainingChoice

/-- What a round of the loop ensures. -/
structure Placed (world : World) (state : PlanState) (entry : Entry) (outcome : Outcome)
    (next : PlanState) : Prop where
  remembered : next.remainingChoice = remainingAfter state outcome.prompted
  unplaced : outcome.item = none → next.planned = state.planned ∧
    AnsweredWith state.remainingChoice outcome .skip
  fresh : ∀ item, outcome.item = some item →
    world.isPlanned state.planned (entry.destination world item) = false ∧
      next.planned = world.reserve state.planned (entry.destination world item)
  absent : ∀ item, outcome.item = some item → item.replacesExisting = false →
    world.present (entry.destination world item) = false
  replacing : ∀ item, outcome.item = some item → item.replacesExisting = true →
    world.present (entry.destination world item) = true ∧
      AnsweredWith state.remainingChoice outcome .replace

variable {prompted : Option ConflictDecision} {start : PlanState}

/-- An entry that keeps both goes to a free place. -/
theorem placed_keepBoth (done : keepBoth world state entry prompted = some (outcome, next))
    (same_planned : state.planned = start.planned)
    (remembered : state.remainingChoice = remainingAfter start prompted) :
    Placed world start entry outcome next := by
  unfold keepBoth at done
  cases found : world.generateKeepBothName entry.folder entry.name (world.isOccupied state.planned) with
  | none =>
    rw [found] at done
    exact absurd done.symm (Option.some_ne_none _)
  | some name =>
    rw [found] at done
    obtain ⟨rfl, rfl⟩ := Prod.mk.inj (Option.some.inj done)
    obtain ⟨nonempty, free⟩ := generateKeepBothName_free found
    obtain ⟨not_planned, not_present⟩ := Bool.or_eq_false_iff.mp free
    have place : entry.destination world ⟨name, false⟩ = world.join entry.folder name :=
      if_neg (by simpa using nonempty)
    refine ⟨remembered, fun none_placed => ?_, fun item placed => ?_, fun item placed _ => ?_,
      fun item placed replaces => ?_⟩
    · exact absurd none_placed (Option.some_ne_none _)
    · obtain rfl := Option.some.inj placed
      rw [place, ← same_planned]
      exact ⟨not_planned, rfl⟩
    · obtain rfl := Option.some.inj placed
      rw [place]
      exact not_present
    · obtain rfl := Option.some.inj placed
      exact Bool.noConfusion replaces

/-- What is done about a conflict. -/
theorem placed_settle (done : settle world state entry prompted choice = some (outcome, next))
    (conflict : world.isPlanned state.planned entry.wanted = true ∨ world.present entry.wanted = true)
    (same_planned : state.planned = start.planned)
    (remembered : state.remainingChoice = remainingAfter start prompted)
    (answered : ∀ item, AnsweredWith start.remainingChoice ⟨prompted, item⟩ choice) :
    Placed world start entry outcome next := by
  unfold settle at done
  cases choice with
  | cancel => exact absurd done.symm (Option.some_ne_none _)
  | skip =>
    obtain ⟨rfl, rfl⟩ := Prod.mk.inj (Option.some.inj done)
    refine ⟨remembered, fun _ => ⟨same_planned, answered none⟩, fun item placed => ?_,
      fun item placed => ?_, fun item placed => ?_⟩
    all_goals exact absurd placed.symm (Option.some_ne_none _)
  | keepBoth => exact placed_keepBoth done same_planned remembered
  | replace =>
    dsimp only at done
    split_ifs at done with planned
    · exact placed_keepBoth done same_planned remembered
    · obtain ⟨rfl, rfl⟩ := Prod.mk.inj (Option.some.inj done)
      have present : world.present entry.wanted = true := conflict.resolve_left planned
      refine ⟨remembered, fun none_placed => ?_, fun item placed => ?_,
        fun item placed kept => ?_, fun item placed _ => ?_⟩
      · exact absurd none_placed (Option.some_ne_none _)
      · obtain rfl := Option.some.inj placed
        rw [← same_planned]
        exact ⟨Bool.eq_false_iff.mpr planned, rfl⟩
      · obtain rfl := Option.some.inj placed
        exact Bool.noConfusion kept
      · obtain rfl := Option.some.inj placed
        exact ⟨present, answered _⟩

theorem placed_planEntry (done : planEntry world prompt state entry = some (outcome, next)) :
    Placed world state entry outcome next := by
  unfold planEntry at done
  split_ifs at done with free
  · obtain ⟨not_planned, not_present⟩ : world.isPlanned state.planned entry.wanted = false ∧
        world.present entry.wanted = false := by simpa using free
    obtain ⟨rfl, rfl⟩ := Prod.mk.inj (Option.some.inj done)
    refine ⟨rfl, fun none_placed => ?_, fun item placed => ?_, fun item placed _ => ?_,
      fun item placed replaces => ?_⟩
    · exact absurd none_placed (Option.some_ne_none _)
    · obtain rfl := Option.some.inj placed
      exact ⟨not_planned, rfl⟩
    · obtain rfl := Option.some.inj placed
      exact not_present
    · obtain rfl := Option.some.inj placed
      exact Bool.noConfusion replaces
  · have conflict : world.isPlanned state.planned entry.wanted = true ∨
        world.present entry.wanted = true := by
      by_contra none_of_both
      apply free
      simpa using none_of_both
    cases remaining : state.remainingChoice with
    | some choice =>
      rw [remaining] at done
      exact placed_settle done conflict rfl rfl fun _ => remaining
    | none =>
      rw [remaining] at done
      exact placed_settle done conflict rfl rfl fun _ => rfl

theorem settle_prompted {prompted : Option ConflictDecision}
    (done : settle world state entry prompted choice = some (outcome, next)) :
    outcome.prompted = prompted ∧ next.prompts = state.prompts := by
  have kept (done : keepBoth world state entry prompted = some (outcome, next)) :
      outcome.prompted = prompted ∧ next.prompts = state.prompts := by
    unfold keepBoth at done
    split at done
    · cases done
    · cases done
      exact ⟨rfl, rfl⟩
  unfold settle at done
  cases choice with
  | cancel => cases done
  | skip =>
    cases done
    exact ⟨rfl, rfl⟩
  | keepBoth => exact kept done
  | replace =>
    dsimp only at done
    split_ifs at done
    · exact kept done
    · cases done
      exact ⟨rfl, rfl⟩

/-- The question of a round is put to the user as the next one, about this entry. -/
theorem planEntry_prompted (done : planEntry world prompt state entry = some (outcome, next)) :
    (outcome.prompted = none ∧ next.prompts = state.prompts) ∨
      (outcome.prompted = some (prompt state.prompts entry.shown entry.wanted) ∧
        next.prompts = state.prompts + 1) := by
  unfold planEntry at done
  split_ifs at done
  · cases done
    exact .inl ⟨rfl, rfl⟩
  · split at done
    · exact .inl (settle_prompted done)
    · exact .inr (settle_prompted done)

end OneEntry

/-! ## Whole plans -/

/-- The choice that applies to an outcome after others: the answer to its own question, or an
earlier answer for all remaining conflicts. -/
def Applies (before : List Outcome) (outcome : Outcome) (choice : ConflictChoice) : Prop :=
  match outcome.prompted with
  | some decision => decision.choice = choice
  | none => ∃ earlier ∈ before, ∃ decision, earlier.prompted = some decision ∧
      decision.applyToAllRemaining = true ∧ decision.choice = choice

/-- Where the items go, in order. -/
def destinations (world : World) (entries : List Entry) (outcomes : List Outcome) : List Text :=
  (entries.zip outcomes).filterMap fun (entry, outcome) =>
    outcome.item.map (entry.destination world)

/-- No two of these paths are the same after normalisation, ignoring case. -/
def Distinct (world : World) (paths : List Text) : Prop :=
  paths.Pairwise fun left right =>
    world.sameKey (world.destinationKey left) (world.destinationKey right) = false

/-- Every answer recorded in the outcomes is what the user said: to the question of this number,
about the entry at the same position. -/
def Asked (prompt : ConflictPrompt) (prompts : Nat) (entries : List Entry)
    (outcomes : List Outcome) : Prop :=
  ∀ before outcome after decision, outcomes = before ++ outcome :: after →
    outcome.prompted = some decision → ∃ entry, entries[before.length]? = some entry ∧
      decision = prompt (prompts + before.countP (·.prompted.isSome)) entry.shown entry.wanted

/-- No item of a plan overwrites silently. -/
structure PlanSafe (world : World) (prompt : ConflictPrompt) (entries : List Entry)
    (outcomes : List Outcome) : Prop where
  asked : Asked prompt 0 entries outcomes
  /-- Every position has its one outcome. -/
  length : outcomes.length = entries.length
  distinct : Distinct world (destinations world entries outcomes)
  absent : ∀ entry outcome item, (entry, outcome) ∈ entries.zip outcomes → outcome.item = some item →
    item.replacesExisting = false → world.present (entry.destination world item) = false
  existed : ∀ entry outcome item, (entry, outcome) ∈ entries.zip outcomes → outcome.item = some item →
    item.replacesExisting = true → world.present (entry.destination world item) = true
  replace_answered : ∀ before outcome after item, outcomes = before ++ outcome :: after →
    outcome.item = some item → item.replacesExisting = true → Applies before outcome .replace
  skip_answered : ∀ before outcome after, outcomes = before ++ outcome :: after →
    outcome.item = none → Applies before outcome .skip

variable {planned : List Text}

section Runs

variable {world : World} {prompt : ConflictPrompt} {state : PlanState} {entries : List Entry}
  {outcomes : List Outcome}

/-- The choice that applies to an outcome of a run that starts with a remembered choice. -/
def AppliesFrom (remaining : Option ConflictChoice) (before : List Outcome) (outcome : Outcome)
    (choice : ConflictChoice) : Prop :=
  Applies before outcome choice ∨ (outcome.prompted = none ∧ remaining = some choice)

variable {outcome : Outcome}

theorem appliesFrom_nil {remaining : Option ConflictChoice}
    (answered : AnsweredWith remaining outcome choice) :
    AppliesFrom remaining [] outcome choice := by
  unfold AnsweredWith at answered
  unfold AppliesFrom Applies
  cases asked : outcome.prompted with
  | some decision =>
    rw [asked] at answered
    exact .inl answered
  | none =>
    rw [asked] at answered
    exact .inr ⟨rfl, answered⟩

variable {next : PlanState} {entry : Entry}

/-- A choice remembered after the first round was remembered before it or answered in it. -/
theorem AppliesFrom.cons {first outcome : Outcome} {before : List Outcome}
    (remembered : next.remainingChoice = remainingAfter state first.prompted)
    (applies : AppliesFrom next.remainingChoice before outcome choice) :
    AppliesFrom state.remainingChoice (first :: before) outcome choice := by
  have longer : Applies before outcome choice → Applies (first :: before) outcome choice := by
    unfold Applies
    cases outcome.prompted with
    | some decision => exact id
    | none =>
      rintro ⟨earlier, mem, found⟩
      exact ⟨earlier, .tail _ mem, found⟩
  obtain applies | ⟨not_asked, remaining⟩ := applies
  · exact .inl (longer applies)
  · rw [remembered] at remaining
    cases asked : first.prompted with
    | none =>
      rw [asked] at remaining
      exact .inr ⟨not_asked, remaining⟩
    | some decision =>
      rw [asked] at remaining
      unfold remainingAfter PlanState.remember at remaining
      dsimp only at remaining
      split_ifs at remaining with for_all
      · left
        unfold Applies
        rw [not_asked]
        exact ⟨first, .head _, decision, asked, for_all.1, Option.some.inj remaining⟩
      · exact .inr ⟨not_asked, remaining⟩

/-- What holds of a run from any state: destinations avoid the reserved ones too. -/
structure RunSafe (world : World) (state : PlanState) (entries : List Entry)
    (outcomes : List Outcome) : Prop where
  length : outcomes.length = entries.length
  distinct : Distinct world (destinations world entries outcomes)
  avoids : ∀ path ∈ destinations world entries outcomes, world.isPlanned state.planned path = false
  each : ∀ entry outcome item, (entry, outcome) ∈ entries.zip outcomes → outcome.item = some item →
    world.present (entry.destination world item) = item.replacesExisting
  replace_answered : ∀ before outcome after item, outcomes = before ++ outcome :: after →
    outcome.item = some item → item.replacesExisting = true →
    AppliesFrom state.remainingChoice before outcome .replace
  skip_answered : ∀ before outcome after, outcomes = before ++ outcome :: after →
    outcome.item = none → AppliesFrom state.remainingChoice before outcome .skip

theorem isPlanned_reserve {path other : Text}
    (avoids : world.isPlanned (world.reserve planned path) other = false) :
    world.sameKey (world.destinationKey path) (world.destinationKey other) = false ∧
      world.isPlanned planned other = false := by
  simpa [World.isPlanned, World.reserve] using avoids

theorem Placed.present (placed : Placed world state entry outcome next) {item : PlannedItem}
    (found : outcome.item = some item) :
    world.present (entry.destination world item) = item.replacesExisting := by
  cases replaces : item.replacesExisting with
  | false => exact placed.absent item found replaces
  | true => exact (placed.replacing item found replaces).1

/-- A round before a run. -/
theorem RunSafe.cons (placed : Placed world state entry outcome next)
    (safe : RunSafe world next entries outcomes) :
    RunSafe world state (entry :: entries) (outcome :: outcomes) := by
  have split {before : List Outcome} {found : Outcome} {after : List Outcome}
      (position : outcome :: outcomes = before ++ found :: after) :
      (before = [] ∧ found = outcome) ∨
        ∃ rest, before = outcome :: rest ∧ outcomes = rest ++ found :: after := by
    cases before with
    | nil => exact .inl ⟨rfl, (List.cons.inj position).1.symm⟩
    | cons first rest =>
      obtain ⟨rfl, rfl⟩ := List.cons.inj position
      exact .inr ⟨rest, rfl, rfl⟩
  have first : destinations world (entry :: entries) (outcome :: outcomes) =
      (outcome.item.map (entry.destination world)).toList ++ destinations world entries outcomes := by
    unfold destinations
    rw [List.zip_cons_cons, List.filterMap_cons]
    dsimp only
    cases outcome.item <;> rfl
  refine ⟨?_, ?_, ?_, ?_, ?_, ?_⟩
  · rw [List.length_cons, List.length_cons, safe.length]
  · rw [Distinct, first]
    cases found : outcome.item with
    | none => exact safe.distinct
    | some item =>
      obtain ⟨-, reserved⟩ := placed.fresh item found
      refine List.pairwise_cons.mpr ⟨fun path mem => ?_, safe.distinct⟩
      have avoids := safe.avoids path mem
      rw [reserved] at avoids
      exact (isPlanned_reserve avoids).1
  · rw [first]
    intro path mem
    cases found : outcome.item with
    | none =>
      rw [found] at mem
      have avoids := safe.avoids path mem
      rw [(placed.unplaced found).1] at avoids
      exact avoids
    | some item =>
      rw [found] at mem
      obtain ⟨free, reserved⟩ := placed.fresh item found
      obtain rfl | mem := List.mem_cons.mp mem
      · exact free
      · have avoids := safe.avoids path mem
        rw [reserved] at avoids
        exact (isPlanned_reserve avoids).2
  · intro other found item mem placed_item
    rw [List.zip_cons_cons] at mem
    obtain same | mem := List.mem_cons.mp mem
    · obtain ⟨rfl, rfl⟩ := Prod.mk.inj same
      exact placed.present placed_item
    · exact safe.each other found item mem placed_item
  · intro before found after item position placed_item replaces
    obtain ⟨rfl, rfl⟩ | ⟨rest, rfl, tail⟩ := split position
    · exact appliesFrom_nil (placed.replacing item placed_item replaces).2
    · exact (safe.replace_answered rest found after item tail placed_item replaces).cons
        placed.remembered
  · intro before found after position none_placed
    obtain ⟨rfl, rfl⟩ | ⟨rest, rfl, tail⟩ := split position
    · exact appliesFrom_nil (placed.unplaced none_placed).2
    · exact (safe.skip_answered rest found after tail none_placed).cons placed.remembered

theorem runSafe_planEntries (done : planEntries world prompt entries state = some outcomes) :
    RunSafe world state entries outcomes := by
  induction entries generalizing state outcomes with
  | nil =>
    obtain rfl := Option.some.inj done
    refine ⟨rfl, .nil, ?_, ?_, ?_, ?_⟩
    · intro path mem
      exact absurd mem List.not_mem_nil
    · intro entry outcome item mem
      exact absurd mem List.not_mem_nil
    · intro before outcome after item position
      simp at position
    · intro before outcome after position
      simp at position
  | cons entry entries ih =>
    unfold planEntries at done
    cases round : planEntry world prompt state entry with
    | none =>
      rw [round] at done
      exact absurd done.symm (Option.some_ne_none _)
    | some made =>
      obtain ⟨outcome, next⟩ := made
      rw [round] at done
      obtain ⟨rest, rest_done, rfl⟩ := Option.map_eq_some_iff.mp done
      exact (ih rest_done).cons (placed_planEntry round)

theorem asked_planEntries (done : planEntries world prompt entries state = some outcomes) :
    Asked prompt state.prompts entries outcomes := by
  induction entries generalizing state outcomes with
  | nil =>
    obtain rfl := Option.some.inj done
    intro before outcome after decision position
    simp at position
  | cons entry entries ih =>
    unfold planEntries at done
    cases round : planEntry world prompt state entry with
    | none =>
      rw [round] at done
      cases done
    | some made =>
      obtain ⟨first, next⟩ := made
      rw [round] at done
      obtain ⟨rest, rest_done, rfl⟩ := Option.map_eq_some_iff.mp done
      have asked := planEntry_prompted round
      intro before outcome after decision position prompted
      cases before with
      | nil =>
        obtain ⟨rfl, -⟩ := List.cons.inj position
        rcases asked with ⟨silent, -⟩ | ⟨now, -⟩
        · rw [silent] at prompted
          cases prompted
        · exact ⟨entry, rfl, Option.some.inj (prompted.symm.trans now)⟩
      | cons head before =>
        obtain ⟨rfl, tail⟩ := List.cons.inj position
        obtain ⟨other, there, same⟩ := ih rest_done before outcome after decision tail prompted
        refine ⟨other, there, same.trans ?_⟩
        -- the questions before are those of the first round and of the rounds behind it
        rcases asked with ⟨silent, count⟩ | ⟨now, count⟩
        · rw [count, List.countP_cons_of_neg (by simp [silent])]
        · rw [count, List.countP_cons_of_pos (by simp [now]), Nat.add_right_comm, Nat.add_assoc]

theorem planSafe_planEntries (done : planEntries world prompt entries .initial = some outcomes) :
    PlanSafe world prompt entries outcomes := by
  have safe := runSafe_planEntries done
  have from_nothing {before : List Outcome} {outcome : Outcome} {choice : ConflictChoice}
      (applies : AppliesFrom none before outcome choice) : Applies before outcome choice :=
    applies.resolve_right fun remembered => Option.some_ne_none _ remembered.2.symm
  exact ⟨asked_planEntries done, safe.length, safe.distinct,
    fun entry outcome item mem placed kept => (safe.each entry outcome item mem placed).trans kept,
    fun entry outcome item mem placed replaces =>
      (safe.each entry outcome item mem placed).trans replaces,
    fun before outcome after item position placed replaces =>
      from_nothing (safe.replace_answered before outcome after item position placed replaces),
    fun before outcome after position none_placed =>
      from_nothing (safe.skip_answered before outcome after position none_placed)⟩

end Runs

/-! ## Links -/

section Links

variable (world : World) (destinationFolder : Text)

/-- The destination of a shortcut. -/
def linkDestination (item : TransferPlanItem) : Text :=
  world.join destinationFolder item.destinationName

/-- The destinations reserved by items, and before them. -/
def linkReserved (planned : List Text) (items : List TransferPlanItem) : List Text :=
  items.foldl (fun planned item => world.reserve planned (linkDestination world destinationFolder item))
    planned

/-- Every name that is tried for a source is taken. -/
def NoFreeName (planned : List Text) (source : Text) : Prop :=
  let baseName := world.paths.filename source ++ linkSuffix
  world.isOccupied planned (world.join destinationFolder baseName) = true ∧
    ∀ suffix, 2 ≤ suffix → suffix < 1000000 →
      world.isOccupied planned
        (world.join destinationFolder (world.numberedName baseName suffix)) = true

/-- No shortcut overwrites anything, and the plan ends early only for want of a name. -/
structure LinkSafe (planned sources : List Text) (items : List TransferPlanItem) : Prop where
  in_order : items.map TransferPlanItem.source = sources.take items.length
  distinct : Distinct world (items.map (linkDestination world destinationFolder))
  avoids : ∀ item ∈ items,
    world.isPlanned planned (linkDestination world destinationFolder item) = false
  absent : ∀ item ∈ items, item.replacesExisting = false ∧
    world.present (linkDestination world destinationFolder item) = false
  complete : ∀ source, sources[items.length]? = some source →
    NoFreeName world destinationFolder (linkReserved world destinationFolder planned items) source

variable {world destinationFolder} {source : Text}

theorem linkName_free {name : Text}
    (found : linkName world destinationFolder planned source = some name) :
    world.isPlanned planned (world.join destinationFolder name) = false ∧
      world.present (world.join destinationFolder name) = false := by
  apply Bool.or_eq_false_iff.mp
  unfold linkName at found
  dsimp only at found
  split_ifs at found with taken
  · exact (generateKeepBothName_free found).2
  · obtain rfl := Option.some.inj found
    exact Bool.eq_false_iff.mpr taken

theorem noFreeName_of_linkName (missing : linkName world destinationFolder planned source = none) :
    NoFreeName world destinationFolder planned source := by
  unfold linkName at missing
  dsimp only at missing
  split_ifs at missing with taken
  refine ⟨taken, fun suffix low high => ?_⟩
  have tried : world.numberedName (world.paths.filename source ++ linkSuffix) suffix ∈
      (List.range' 2 999998).map (world.numberedName (world.paths.filename source ++ linkSuffix)) :=
    List.mem_map_of_mem (List.mem_range'_1.mpr ⟨low, by omega⟩)
  simpa using List.find?_eq_none.mp missing _ tried

theorem linkSafe_linkLoop (sources planned : List Text) :
    LinkSafe world destinationFolder planned sources
      (linkLoop world destinationFolder sources planned) := by
  induction sources generalizing planned with
  | nil =>
    refine ⟨rfl, .nil, ?_, ?_, ?_⟩
    iterate 2
      intro item mem
      exact absurd mem List.not_mem_nil
    · intro source position
      simp at position
  | cons source sources ih =>
    unfold linkLoop
    cases found : linkName world destinationFolder planned source with
    | none =>
      refine ⟨rfl, .nil, ?_, ?_, ?_⟩
      iterate 2
        intro item mem
        exact absurd mem List.not_mem_nil
      · intro other position
        obtain rfl := Option.some.inj position
        exact noFreeName_of_linkName found
    | some name =>
      obtain ⟨not_planned, not_present⟩ := linkName_free found
      have safe := ih (world.reserve planned (world.join destinationFolder name))
      dsimp only
      refine ⟨?_, ?_, ?_, ?_, ?_⟩
      · rw [List.map_cons, List.length_cons, List.take_succ_cons, safe.in_order]
      · refine List.pairwise_cons.mpr ⟨fun path mem => ?_, safe.distinct⟩
        obtain ⟨item, item_mem, rfl⟩ := List.mem_map.mp mem
        exact (isPlanned_reserve (safe.avoids item item_mem)).1
      · intro item mem
        obtain rfl | mem := List.mem_cons.mp mem
        · exact not_planned
        · exact (isPlanned_reserve (safe.avoids item mem)).2
      · intro item mem
        obtain rfl | mem := List.mem_cons.mp mem
        · exact ⟨rfl, not_present⟩
        · exact safe.absent item mem
      · intro other position
        exact safe.complete other position

end Links

/-- Of the three plans: whatever the sources, the existing paths and the answers, no item
overwrites anything silently.  The outcomes are those of the loop, and the answers in them are the
user's. -/
theorem plans_never_overwrite (world : World) (prompt : ConflictPrompt) (sources : List Text)
    (destinationFolder : Text) :
    (∀ plan, buildTransferPlan world prompt sources destinationFolder = some plan →
      ∃ outcomes, planEntries world prompt (sources.map (transferEntry world destinationFolder))
          .initial = some outcomes ∧
        PlanSafe world prompt (sources.map (transferEntry world destinationFolder)) outcomes ∧
        plan = (sources.zip outcomes).filterMap fun (source, outcome) => transferItem source outcome) ∧
    (∀ plan, buildRestorePlan world prompt sources = some plan →
      ∃ outcomes, planEntries world prompt (sources.map (restoreEntry world)) .initial =
          some outcomes ∧
        PlanSafe world prompt (sources.map (restoreEntry world)) outcomes ∧
        plan = outcomes.zipIdx.filterMap fun (outcome, index) => restoreItem index outcome) ∧
    LinkSafe world destinationFolder [] sources (buildLinkPlan world sources destinationFolder) := by
  refine ⟨fun plan built => ?_, fun plan built => ?_, linkSafe_linkLoop sources []⟩
  iterate 2
    obtain ⟨outcomes, done, rfl⟩ := Option.map_eq_some_iff.mp built
    exact ⟨outcomes, done, planSafe_planEntries done, rfl⟩

end FastFiles.Ui
