import FastFiles.Foundations.Transition

/-!
# Listings of browsed folders

`UiServer` and `DirectoryWatcher` as far as the listing of a browsed folder goes: a request
installs a watch, enumerates the folder, stores the listing and publishes all listings; a watch
worker does the same for every completed read of its changes.

Both enumerate without a lock and store under it, whatever was stored in between.  So a listing can
be replaced by one that was enumerated before it: in `older_listing_published` a request is
overtaken by the callback for a change, and its own listing, from before the change, is what stays.
`published_listing_current` shows that this is the only way: if no stored listing is replaced by an
older one and publishing succeeds, every watched folder's listing is current once all is quiet.

A folder is any type with decidable equality, since the maps of the source compare paths without
regard to case.  A listing is given by its status and by how many changes of the folder its
enumeration comes after.
-/

namespace FastFiles.Engine

universe u

/-! ## Listings -/

inductive EnumerationStatus where
  | success
  | accessDenied
  | notFound
  | ioError
  deriving DecidableEq

/-- A stored listing; `seen` counts the changes before its enumeration started. -/
structure Listing where
  status : EnumerationStatus
  seen : Nat
  deriving DecidableEq

inductive ObservationSource where
  | request
  | watchRefresh

structure PathObservation where
  source : ObservationSource
  status : EnumerationStatus
  epoch : Nat

/-- What the server keeps under `directoriesMutex_`, and the snapshot it published last. -/
structure Server (Folder : Type u) where
  directories : Folder → Option Listing := fun _ => none
  pathObservations : Folder → Option PathObservation := fun _ => none
  nextObservationEpoch : Nat := 1
  published : Folder → Option Listing := fun _ => none

namespace Server

variable {Folder : Type u} [DecidableEq Folder]

def store (server : Server Folder) (folder : Folder) (source : ObservationSource)
    (listing : Listing) : Server Folder :=
  { server with
    directories := Function.update server.directories folder (some listing)
    pathObservations := Function.update server.pathObservations folder
      (some ⟨source, listing.status, server.nextObservationEpoch⟩)
    nextObservationEpoch := server.nextObservationEpoch + 1 }

/-- `RepublishAndBroadcastGeneration`: the snapshot holds all folders. -/
def publish (server : Server Folder) : Server Folder :=
  { server with published := server.directories }

end Server

/-- What `HandleRequestDirectory` and `OnDirectoryChanged` both do, and how far it is. -/
inductive Pass where
  | enumerate
  | store (listing : Listing)
  | publish
  deriving DecidableEq

/-- What the system answers in a step of a pass. -/
structure Luck where
  status : EnumerationStatus := .success
  publishes : Bool := true

/-- One step of a pass: what is left of it, and the server. -/
def Pass.run {Folder : Type u} [DecidableEq Folder] (pass : Pass) (server : Server Folder)
    (changes : Nat) (folder : Folder) (source : ObservationSource) (luck : Luck) :
    Option Pass × Server Folder :=
  match pass with
  | .enumerate => (some (.store ⟨luck.status, changes⟩), server)
  | .store listing => (some .publish, server.store folder source listing)
  | .publish => (none, if luck.publishes then server.publish else server)

/-! ## Watches -/

def maxWatchedRoots : Nat := 32

def maxConsecutiveWatchOverflows : Nat := 8

/-- How a read of the changes of a folder ends.  A completion without bytes is an overflow. -/
inductive Completion where
  | changed
  | overflow
  | failed
  | aborted
  deriving DecidableEq

/-- The worker of a watch. -/
structure Watch where
  consecutiveOverflows : Nat := 0
  stopRequested : Bool := false
  finished : Bool := false
  /-- The callback in progress, and whether the loop goes on after it. -/
  callback : Option (Pass × Bool) := none
  /-- The folder changed since the last callback started. -/
  owed : Bool := false

namespace Watch

/-- The watch is in the map and will report further changes. -/
def delivers (watch : Watch) : Bool :=
  !watch.stopRequested && !watch.finished && watch.callback.all Prod.snd

def startCallback (watch : Watch) (overflows : Nat) (continues : Bool) : Watch :=
  { watch with
    consecutiveOverflows := overflows, callback := some (.enumerate, continues), owed := false }

def processCompletion (watch : Watch) (completion : Completion) : Watch :=
  if watch.stopRequested then { watch with finished := true }
  else
    match completion with
    | .aborted => { watch with finished := true }
    | .changed => watch.startCallback 0 true
    | .overflow =>
      watch.startCallback (watch.consecutiveOverflows + 1)
        (decide (watch.consecutiveOverflows + 1 < maxConsecutiveWatchOverflows))
    | .failed => watch.startCallback watch.consecutiveOverflows false

/-- The loop after a step of its callback. -/
def proceed (watch : Watch) (next : Option Pass) : Watch :=
  match next with
  | some pass => { watch with callback := watch.callback.map fun callback => (pass, callback.2) }
  | none =>
    { watch with
      callback := none
      finished := watch.finished || watch.stopRequested || !watch.callback.all Prod.snd }

end Watch

/-! ## Threads -/

inductive Task where
  /-- A request before its call of `Watch`. -/
  | asked
  /-- A request whose call of `Watch` failed and refreshes the folder. -/
  | refreshing (pass : Pass)
  | serving (pass : Pass)
  | done
  | watching (watch : Watch)

structure Thread (Folder : Type u) where
  folder : Folder
  task : Task

namespace Task

def pass? : Task → Option Pass
  | refreshing pass => some pass
  | serving pass => some pass
  | watching watch => watch.callback.map Prod.fst
  | _ => none

def source : Task → ObservationSource
  | serving _ => .request
  | _ => .watchRefresh

def proceed (task : Task) (next : Option Pass) : Task :=
  match task with
  | refreshing _ => (next.map refreshing).getD (serving .enumerate)
  | serving _ => (next.map serving).getD done
  | watching watch => watching (watch.proceed next)
  | other => other

/-- The task is a watch of the map `watches_`. -/
def inMap : Task → Bool
  | watching watch => !watch.stopRequested
  | _ => false

def isFinished : Task → Bool
  | watching watch => watch.finished
  | _ => false

def delivers : Task → Bool
  | watching watch => watch.delivers
  | _ => false

def owed : Task → Bool
  | watching watch => watch.owed
  | _ => false

/-- `StopEntry`, without the wait for the worker. -/
def stop : Task → Task
  | watching watch => watching { watch with stopRequested := true }
  | other => other

/-- A change of the folder that a watch will report. -/
def noteChange : Task → Task
  | watching watch => watching (if watch.delivers then { watch with owed := true } else watch)
  | other => other

/-- An enumeration of the folder is still to start. -/
def willEnumerate : Task → Bool
  | asked => true
  | refreshing _ => true
  | other => other.pass? = some .enumerate

/-- Nothing is left to do, and no change is left to report. -/
def idle : Task → Bool
  | done => true
  | watching watch => watch.callback.isNone && !(watch.delivers && watch.owed)
  | _ => false

end Task

/-! ## The system -/

structure Browsing (Folder : Type u) where
  /-- How often each folder changed. -/
  changes : Folder → Nat
  server : Server Folder := {}
  /-- Requests and watch workers.  The watches of the map stand in the order of their last use. -/
  threads : List (Thread Folder) := []

/-- How a call of `Watch` for a folder without a live watch ends. -/
inductive WatchOutcome where
  | installed
  | openFailed
  | stopEventFailed

inductive BrowsingAction (Folder : Type u) where
  | change (folder : Folder)
  | request (folder : Folder)
  | callWatch (thread : Nat) (outcome : WatchOutcome)
  | complete (thread : Nat) (completion : Completion)
  | advance (thread : Nat) (luck : Luck)

namespace Browsing

variable {Folder : Type u} [DecidableEq Folder]

variable (s : Browsing Folder) (folder : Folder)

/-- The thread is the watch of a folder in the map. -/
def isWatchOf (thread : Thread Folder) : Bool :=
  thread.task.inMap && thread.folder = folder

/-- The first thread that meets a condition is stopped. -/
def stopFirst (wanted : Thread Folder → Bool) : List (Thread Folder) → List (Thread Folder)
  | [] => []
  | thread :: rest =>
    if wanted thread then { thread with task := thread.task.stop } :: rest
    else thread :: stopFirst wanted rest

/-- The watch that was not used for the longest time makes room for another one. -/
def evict (threads : List (Thread Folder)) : List (Thread Folder) :=
  if maxWatchedRoots ≤ threads.countP (·.task.inMap) then stopFirst (·.task.inMap) threads
  else threads

/-- The watch of a folder becomes the one used last; a folder has one watch in the map. -/
def touch (threads : List (Thread Folder)) : List (Thread Folder) :=
  threads.filter (fun thread => !isWatchOf folder thread) ++ threads.filter (isWatchOf folder)

/-- `DirectoryWatcher::Watch` in the request of a thread, which then goes on to enumerate. -/
def watch (threads : List (Thread Folder)) (i : Nat) (folder : Folder) (outcome : WatchOutcome) :
    List (Thread Folder) :=
  if threads.any fun thread => isWatchOf folder thread && !thread.task.isFinished then
    touch folder (threads.set i ⟨folder, .serving .enumerate⟩)
  else
    -- a worker that gave up is still in the map
    let cleared := stopFirst (isWatchOf folder) threads
    match outcome with
    | .installed =>
      (evict cleared).set i ⟨folder, .serving .enumerate⟩ ++ [⟨folder, .watching {}⟩]
    | .openFailed => cleared.set i ⟨folder, .refreshing .enumerate⟩
    | .stopEventFailed => (evict cleared).set i ⟨folder, .refreshing .enumerate⟩

def step : BrowsingAction Folder → Option (Browsing Folder)
  | .change folder =>
    some { s with
      changes := Function.update s.changes folder (s.changes folder + 1)
      threads := s.threads.map fun thread =>
        if thread.folder = folder then { thread with task := thread.task.noteChange }
        else thread }
  | .request folder => some { s with threads := s.threads ++ [⟨folder, .asked⟩] }
  | .callWatch i outcome =>
    s.threads[i]?.bind fun thread =>
      match thread.task with
      | .asked => some { s with threads := watch s.threads i thread.folder outcome }
      | _ => none
  | .complete i completion =>
    s.threads[i]?.bind fun thread =>
      match thread.task with
      | .watching worker =>
        if worker.finished || worker.callback.isSome then none
        else
          some { s with
            threads := s.threads.set i
              ⟨thread.folder, .watching (worker.processCompletion completion)⟩ }
      | _ => none
  | .advance i luck =>
    s.threads[i]?.bind fun thread =>
      thread.task.pass?.map fun pass =>
        let result := pass.run s.server (s.changes thread.folder) thread.folder
          thread.task.source luck
        { s with
          server := result.2
          threads := s.threads.set i ⟨thread.folder, thread.task.proceed result.1⟩ }

/-- No request was made yet. -/
def Fresh : Prop := s.threads = [] ∧ s.server = {}

/-- Every request and callback has finished, and every change was reported. -/
def Quiet : Prop := ∀ thread ∈ s.threads, thread.task.idle = true

/-- A watch of the folder is installed. -/
def Watched : Prop :=
  ∃ thread ∈ s.threads, thread.folder = folder ∧ thread.task.delivers = true

/-- The listing of the folder that clients see comes after its last change. -/
def Current : Prop :=
  ∃ listing, s.server.published folder = some listing ∧ s.changes folder ≤ listing.seen

/-- No older listing replaces a newer one, and publishing succeeds. -/
def careful : BrowsingAction Folder → Bool
  | .advance i luck =>
    match s.threads[i]? with
    | none => true
    | some thread =>
      match thread.task.pass? with
      | some (.store listing) =>
        (s.server.directories thread.folder).all fun stored => stored.seen ≤ listing.seen
      | some .publish => luck.publishes
      | _ => true
  | _ => true

end Browsing

/-! ## What a step does to a task -/

namespace Task

/-- The task will store a listing that comes after `n` changes, or has yet to enumerate. -/
def promises (task : Task) (n : Nat) : Bool :=
  task.willEnumerate ||
    match task.pass? with
    | some (.store listing) => n ≤ listing.seen
    | _ => false

variable {task : Task} {pass : Pass} {worker : Watch}

theorem promises_of_willEnumerate (will : task.willEnumerate = true) (n : Nat) :
    task.promises n = true := by
  rw [promises, will, Bool.true_or]

theorem promises_of_store {listing : Listing} {n : Nat}
    (storing : task.pass? = some (.store listing)) (recent : n ≤ listing.seen) :
    task.promises n = true := by
  simp [promises, storing, decide_eq_true recent]

/-- A task that promises a listing and is not to enumerate is about to store it. -/
theorem promises_iff (task : Task) (n : Nat) :
    task.promises n = true ↔ task.willEnumerate = true ∨
      ∃ listing, task.pass? = some (.store listing) ∧ n ≤ listing.seen := by
  constructor
  · intro promised
    rw [promises, Bool.or_eq_true] at promised
    refine promised.imp_right fun stores => ?_
    split at stores
    · rename_i listing storing
      exact ⟨listing, storing, of_decide_eq_true stores⟩
    · exact absurd stores Bool.false_ne_true
  · rintro (will | ⟨listing, storing, recent⟩)
    · exact promises_of_willEnumerate will n
    · exact promises_of_store storing recent

@[simp] theorem pass?_stop (task : Task) : task.stop.pass? = task.pass? := by
  cases task <;> rfl

@[simp] theorem pass?_noteChange (task : Task) : task.noteChange.pass? = task.pass? := by
  cases task with
  | watching watch =>
    show (if watch.delivers then { watch with owed := true } else watch).callback.map Prod.fst = _
    split_ifs <;> rfl
  | _ => rfl

/-- A change leaves no watch that will report it without the debt to do so. -/
theorem owed_noteChange (delivering : task.noteChange.delivers = true) :
    task.noteChange.owed = true := by
  cases task with
  | watching watch =>
    by_cases active : watch.delivers = true
    · simp only [noteChange, active, ↓reduceIte, owed]
    · simp only [noteChange, active, Bool.false_eq_true, ↓reduceIte, delivers] at delivering
  | _ => exact absurd delivering Bool.false_ne_true

/-- A callback that moves on does not change what a watch reports and owes. -/
theorem delivers_of_proceed {next : Option Pass}
    (delivering : (task.proceed next).delivers = true) :
    task.delivers = true ∧ (task.proceed next).owed = task.owed := by
  cases task with
  | watching watch =>
    cases next with
    | some pass =>
      have same : (watch.callback.map fun callback => (pass, callback.2)).all Prod.snd =
          watch.callback.all Prod.snd := by
        cases watch.callback <;> rfl
      refine ⟨?_, rfl⟩
      simpa [proceed, delivers, Watch.delivers, Watch.proceed, same] using delivering
    | none =>
      refine ⟨?_, rfl⟩
      simp only [proceed, delivers, Watch.delivers, Watch.proceed, Option.all_none,
        Bool.and_true, Bool.and_eq_true, Bool.not_eq_true', Bool.or_eq_false_iff,
        Bool.not_eq_false'] at delivering ⊢
      exact ⟨⟨delivering.1, delivering.2.1.1⟩, delivering.2.2⟩
  | refreshing _ | serving _ => cases next <;> exact absurd delivering Bool.false_ne_true
  | _ => exact absurd delivering Bool.false_ne_true

theorem pass?_proceed (running : task.pass? = some pass) (next : Pass) :
    (task.proceed (some next)).pass? = some next := by
  cases task with
  | watching watch =>
    obtain ⟨callback, present, -⟩ := Option.map_eq_some_iff.mp running
    simp [proceed, pass?, Watch.proceed, present]
  | refreshing _ => rfl
  | serving _ => rfl
  | _ => exact absurd running (Option.some_ne_none _).symm

/-- A request that refreshes the folder in place of its watch enumerates once more. -/
theorem willEnumerate_proceed (running : task.pass? = some pass) (later : pass ≠ .enumerate)
    (will : task.willEnumerate = true) (next : Option Pass) :
    (task.proceed next).willEnumerate = true := by
  have notNow : ¬ task.pass? = some .enumerate := by
    rw [running]
    exact fun same => later (Option.some.inj same)
  cases task with
  | refreshing _ => cases next <;> rfl
  | serving _ | watching _ => exact absurd (of_decide_eq_true will) notNow
  | _ => exact absurd running (Option.some_ne_none _).symm

/-- A worker between two callbacks promises nothing. -/
theorem not_promises_of_resting (resting : (watching worker).pass? = none) (n : Nat) :
    ¬ (watching worker).promises n = true := by
  intro promised
  rcases (promises_iff _ n).mp promised with will | ⟨listing, storing, -⟩
  · exact absurd (resting.symm.trans (of_decide_eq_true will)).symm (Option.some_ne_none _)
  · exact absurd (resting.symm.trans storing).symm (Option.some_ne_none _)

/-- A completed read ends the watch or starts a callback. -/
theorem willEnumerate_processCompletion {completion : Completion}
    (delivering : (watching (worker.processCompletion completion)).delivers = true) :
    (watching (worker.processCompletion completion)).willEnumerate = true := by
  have ended : (watching { worker with finished := true }).delivers = false := by
    simp [delivers, Watch.delivers]
  unfold Watch.processCompletion at delivering ⊢
  split_ifs at delivering ⊢
  · exact absurd (ended.symm.trans delivering) Bool.false_ne_true
  · cases completion with
    | aborted => exact absurd (ended.symm.trans delivering) Bool.false_ne_true
    | changed => rfl
    | overflow => rfl
    | failed => rfl

end Task

/-! ## What a call of `Watch` does to the threads -/

namespace Browsing

section Threads

variable {Folder : Type u}

/-- The thread as it was, or stopped. -/
def Stopped (before after : Thread Folder) : Prop :=
  after = before ∨ after = { before with task := before.task.stop }

namespace Stopped

variable {before after : Thread Folder}

theorem trans {last : Thread Folder} (first : Stopped before after) (second : Stopped after last) :
    Stopped before last := by
  rcases first with rfl | rfl <;> rcases second with rfl | rfl
  · exact .inl rfl
  · exact .inr rfl
  · exact .inr rfl
  · exact .inr (by cases before.task <;> rfl)

variable (stopped : Stopped before after)

include stopped

theorem pass?_eq : after.task.pass? = before.task.pass? := by
  rcases stopped with rfl | rfl
  · rfl
  · exact Task.pass?_stop _

theorem promises_eq (n : Nat) : after.task.promises n = before.task.promises n := by
  rcases stopped with rfl | rfl
  · rfl
  · show before.task.stop.promises n = before.task.promises n
    cases before.task <;> rfl

/-- A thread that still reports changes was not stopped. -/
theorem eq_of_delivers (delivering : after.task.delivers = true) : after = before := by
  rcases stopped with same | rfl
  · exact same
  · have silent : before.task.stop.delivers = false := by cases before.task <;> rfl
    exact absurd (silent.symm.trans delivering) Bool.false_ne_true

end Stopped

/-- Every thread stays in its place, some of them stopped. -/
def SomeStopped (threads after : List (Thread Folder)) : Prop :=
  List.Forall₂ Stopped threads after

namespace SomeStopped

variable {threads after : List (Thread Folder)}

theorem refl (threads : List (Thread Folder)) : SomeStopped threads threads :=
  List.forall₂_same.mpr fun _ _ => .inl rfl

theorem trans {last : List (Thread Folder)} (first : SomeStopped threads after)
    (second : SomeStopped after last) : SomeStopped threads last := by
  induction first generalizing last with
  | nil => exact second
  | cons stopped _ ih =>
    cases second with
    | cons again rest => exact .cons (stopped.trans again) (ih rest)

variable {i : Nat}

theorem exists_after (stops : SomeStopped threads after) {thread : Thread Folder}
    (here : threads[i]? = some thread) :
    ∃ other, after[i]? = some other ∧ Stopped thread other := by
  induction stops generalizing i with
  | nil => cases here
  | cons stopped _ ih =>
    cases i with
    | zero =>
      obtain rfl := Option.some.inj here
      exact ⟨_, rfl, stopped⟩
    | succ i => exact ih here

theorem exists_before (stops : SomeStopped threads after) {other : Thread Folder}
    (member : other ∈ after) : ∃ thread ∈ threads, Stopped thread other := by
  induction stops with
  | nil => cases member
  | cons stopped _ ih =>
    rcases List.mem_cons.mp member with rfl | later
    · exact ⟨_, .head _, stopped⟩
    · obtain ⟨thread, inside, same⟩ := ih later
      exact ⟨thread, .tail _ inside, same⟩

end SomeStopped

theorem someStopped_stopFirst (wanted : Thread Folder → Bool) (threads : List (Thread Folder)) :
    SomeStopped threads (stopFirst wanted threads) := by
  induction threads with
  | nil => exact .nil
  | cons thread rest ih =>
    rw [stopFirst]
    split_ifs
    · exact .cons (.inr rfl) (SomeStopped.refl rest)
    · exact .cons (.inl rfl) ih

theorem someStopped_evict (threads : List (Thread Folder)) :
    SomeStopped threads (evict threads) := by
  rw [evict]
  split_ifs
  · exact someStopped_stopFirst _ _
  · exact .refl _

/-- What a call of `Watch` for a folder does: the threads stay, some of them stopped, the calling one
and one for the same folder apart, and the calling one goes on to enumerate. -/
structure WatchCalled (folder : Folder) (threads after : List (Thread Folder)) : Prop where
  kept : ∀ thread ∈ threads, thread = ⟨folder, .asked⟩ ∨ ∃ other ∈ after, Stopped thread other
  calling : ∃ thread ∈ after, thread.folder = folder ∧ thread.task.willEnumerate = true
  origin : ∀ other ∈ after, other.folder = folder ∨ ∃ thread ∈ threads, Stopped thread other

variable {folder : Folder} {threads : List (Thread Folder)}

/-- The caller goes on in a list in which some threads were stopped. -/
theorem watchCalled_set {stopped : List (Thread Folder)}
    (called : threads[i]? = some ⟨folder, .asked⟩) (stops : SomeStopped threads stopped)
    {task : Task} (will : task.willEnumerate = true) :
    WatchCalled folder threads (stopped.set i ⟨folder, task⟩) := by
  obtain ⟨caller, atCaller, -⟩ := stops.exists_after called
  have short : i < stopped.length := (List.getElem?_eq_some_iff.mp atCaller).1
  refine ⟨fun thread member => ?_, ⟨_, List.mem_set short _, rfl, will⟩, fun other member => ?_⟩
  · obtain ⟨j, here⟩ := List.mem_iff_getElem?.mp member
    by_cases same : i = j
    · subst same
      exact .inl (Option.some.inj (here.symm.trans called))
    · obtain ⟨other, there, stopped⟩ := stops.exists_after here
      exact .inr ⟨other, List.mem_of_getElem? ((List.getElem?_set_ne same).trans there), stopped⟩
  · rcases List.mem_or_eq_of_mem_set member with old | rfl
    · exact .inr (stops.exists_before old)
    · exact .inl rfl

variable {after : List (Thread Folder)}

/-- One more thread for the folder changes nothing. -/
theorem WatchCalled.append (called : WatchCalled folder threads after) (task : Task) :
    WatchCalled folder threads (after ++ [⟨folder, task⟩]) := by
  refine ⟨fun thread member => ?_, ?_, fun other member => ?_⟩
  · refine (called.kept thread member).imp_right ?_
    rintro ⟨other, inside, stopped⟩
    exact ⟨other, List.mem_append_left _ inside, stopped⟩
  · obtain ⟨caller, inside, rest⟩ := called.calling
    exact ⟨caller, List.mem_append_left _ inside, rest⟩
  · rcases List.mem_append.mp member with inside | last
    · exact called.origin other inside
    · rw [List.mem_singleton.mp last]
      exact .inl rfl

/-- Only membership counts. -/
theorem WatchCalled.of_mem_iff {other : List (Thread Folder)}
    (called : WatchCalled folder threads after) (same : ∀ thread, thread ∈ other ↔ thread ∈ after) :
    WatchCalled folder threads other := by
  refine ⟨fun thread member => (called.kept thread member).imp_right ?_, ?_, fun thread member =>
    called.origin thread ((same thread).mp member)⟩
  · rintro ⟨kept, inside, stopped⟩
    exact ⟨kept, (same kept).mpr inside, stopped⟩
  · obtain ⟨caller, inside, rest⟩ := called.calling
    exact ⟨caller, (same caller).mpr inside, rest⟩

variable [DecidableEq Folder]

theorem mem_touch (folder : Folder) (threads : List (Thread Folder)) (thread : Thread Folder) :
    thread ∈ touch folder threads ↔ thread ∈ threads := by
  rw [touch, List.mem_append, List.mem_filter, List.mem_filter, ← and_or_left]
  cases isWatchOf folder thread <;> simp

theorem watchCalled_watch (called : threads[i]? = some ⟨folder, .asked⟩) (outcome : WatchOutcome) :
    WatchCalled folder threads (watch threads i folder outcome) := by
  have cleared := someStopped_stopFirst (isWatchOf folder) threads
  have evicted := cleared.trans (someStopped_evict _)
  unfold watch
  split_ifs
  · exact (watchCalled_set called (.refl threads) rfl).of_mem_iff (mem_touch folder _)
  · cases outcome with
    | installed => exact (watchCalled_set called evicted rfl).append _
    | openFailed => exact watchCalled_set called cleared rfl
    | stopEventFailed => exact watchCalled_set called evicted rfl

end Threads

/-! ## The invariant -/

section Invariant

variable {Folder : Type u}

/-- A listing after the last change of the folder is stored, or a thread will store one. -/
def Covered (s : Browsing Folder) (folder : Folder) : Prop :=
  (∃ thread ∈ s.threads, thread.folder = folder ∧
    thread.task.promises (s.changes folder) = true) ∨
  ∃ listing, s.server.directories folder = some listing ∧ s.changes folder ≤ listing.seen

/-- Every installed watch owes a report of the last change or finds its folder covered, and what is
stored is published or about to be. -/
structure Sound (s : Browsing Folder) : Prop where
  covered : ∀ thread ∈ s.threads, thread.task.delivers = true →
    thread.task.owed = true ∨ s.Covered thread.folder
  pending : s.server.published = s.server.directories ∨
    ∃ thread ∈ s.threads, thread.task.pass? = some .publish

/-- What a step has to show for the watches to stay covered. -/
structure Transfers (s s' : Browsing Folder) : Prop where
  covers : ∀ folder, s.Covered folder → s'.Covered folder
  delivering : ∀ thread ∈ s'.threads, thread.task.delivers = true → s'.Covered thread.folder ∨
    ∃ before ∈ s.threads, before.folder = thread.folder ∧ before.task.delivers = true ∧
      thread.task.owed = before.task.owed

variable {s s' : Browsing Folder}

theorem Transfers.sound (transfers : Transfers s s') (sound : s.Sound)
    (pending : s'.server.published = s'.server.directories ∨
      ∃ thread ∈ s'.threads, thread.task.pass? = some .publish) : s'.Sound := by
  refine ⟨fun thread member delivering => ?_, pending⟩
  rcases transfers.delivering thread member delivering with covered | ⟨before, inside, same, was, owed⟩
  · exact .inr covered
  · rw [owed, ← same]
    exact (sound.covered before inside was).imp_right (transfers.covers before.folder)

variable {folder : Folder}

/-- A covered folder stays covered when no thread that promises a listing goes. -/
theorem Covered.of_threads (covered : s.Covered folder)
    (changes : s'.changes folder = s.changes folder)
    (directories : s'.server.directories folder = s.server.directories folder)
    (threads : ∀ thread ∈ s.threads, thread.folder = folder →
      thread.task.promises (s.changes folder) = true →
        ∃ other ∈ s'.threads, other.folder = folder ∧
          other.task.promises (s.changes folder) = true) :
    s'.Covered folder := by
  rcases covered with ⟨thread, member, its, promised⟩ | ⟨listing, stored, recent⟩
  · obtain ⟨other, among, same, promises⟩ := threads thread member its promised
    exact .inl ⟨other, among, same, changes ▸ promises⟩
  · exact .inr ⟨listing, directories.trans stored, changes ▸ recent⟩

variable {threads : List (Thread Folder)} {i : Nat} {old : Thread Folder}

/-- A thread of the list is the one that is replaced, or stays. -/
theorem eq_or_mem_set {thread : Thread Folder} (here : threads[i]? = some old)
    (member : thread ∈ threads) (new : Thread Folder) :
    thread = old ∨ thread ∈ threads.set i new := by
  obtain ⟨j, there⟩ := List.mem_iff_getElem?.mp member
  by_cases same : i = j
  · subst same
    exact .inl (Option.some.inj (there.symm.trans here))
  · exact .inr (List.mem_of_getElem? ((List.getElem?_set_ne same).trans there))

theorem mem_set_self (here : threads[i]? = some old) (new : Thread Folder) :
    new ∈ threads.set i new :=
  List.mem_set (List.getElem?_eq_some_iff.mp here).1 new

/-- A thread moves on: what it promised it still promises, and it is about to publish only if it
was. -/
theorem Sound.set (sound : s.Sound) {task after : Task} (here : s.threads[i]? = some ⟨folder, task⟩)
    {server : Server Folder}
    (directories : server.directories = s.server.directories)
    (promises : task.promises (s.changes folder) = true → after.promises (s.changes folder) = true)
    (delivers : after.delivers = true → after.promises (s.changes folder) = true ∨
      task.delivers = true ∧ after.owed = task.owed)
    (published : server.published = server.directories ∨
      server = s.server ∧ task.pass? ≠ some .publish) :
    Sound { s with server, threads := s.threads.set i ⟨folder, after⟩ } := by
  have self := mem_set_self here ⟨folder, after⟩
  refine Transfers.sound ⟨fun other was => ?_, fun thread member delivering => ?_⟩ sound ?_
  · refine was.of_threads rfl (congrFun directories _) fun thread member its promised => ?_
    rcases eq_or_mem_set here member _ with rfl | stays
    · subst its
      exact ⟨_, self, rfl, promises promised⟩
    · exact ⟨thread, stays, its, promised⟩
  · rcases List.mem_or_eq_of_mem_set member with old | rfl
    · exact .inr ⟨thread, old, rfl, delivering, rfl⟩
    · exact (delivers delivering).imp (fun promised => .inl ⟨_, self, rfl, promised⟩)
        fun before => ⟨_, List.mem_of_getElem? here, rfl, before⟩
  · refine published.elim .inl fun ⟨same, other⟩ => same ▸ sound.pending.imp_right ?_
    rintro ⟨thread, member, publishing⟩
    rcases eq_or_mem_set here member _ with rfl | stays
    · exact absurd publishing other
    · exact ⟨thread, stays, publishing⟩

/-! ## Steps of the environment -/

variable [DecidableEq Folder]

theorem sound_change (sound : s.Sound)
    (stepped : s.step (.change folder) = some s') : s'.Sound := by
  obtain rfl := Option.some.inj stepped
  refine ⟨fun thread member delivering => ?_, ?_⟩
  · obtain ⟨before, inside, rfl⟩ := List.mem_map.mp member
    by_cases its : before.folder = folder
    · rw [if_pos its] at delivering ⊢
      exact .inl (Task.owed_noteChange delivering)
    · rw [if_neg its] at delivering ⊢
      refine (sound.covered before inside delivering).imp_right fun covered => ?_
      refine covered.of_threads (Function.update_of_ne its _ _) rfl fun other among same promised => ?_
      refine ⟨other, List.mem_map.mpr ⟨other, among, if_neg (same ▸ its)⟩, same, promised⟩
  · refine sound.pending.imp_right ?_
    rintro ⟨thread, member, publishing⟩
    refine ⟨_, List.mem_map_of_mem member, ?_⟩
    split_ifs
    · exact (Task.pass?_noteChange thread.task).trans publishing
    · exact publishing

theorem sound_request (sound : s.Sound)
    (stepped : s.step (.request folder) = some s') : s'.Sound := by
  obtain rfl := Option.some.inj stepped
  have transfers : Transfers s { s with threads := s.threads ++ [⟨folder, .asked⟩] } := by
    refine ⟨fun other covered => ?_, fun thread member delivering => ?_⟩
    · exact covered.of_threads rfl rfl fun thread member same promised =>
        ⟨thread, List.mem_append_left _ member, same, promised⟩
    · rcases List.mem_append.mp member with inside | last
      · exact .inr ⟨thread, inside, rfl, delivering, rfl⟩
      · rw [List.mem_singleton.mp last] at delivering
        exact absurd delivering Bool.false_ne_true
  refine transfers.sound sound (sound.pending.imp_right ?_)
  rintro ⟨thread, member, publishing⟩
  exact ⟨thread, List.mem_append_left _ member, publishing⟩

theorem sound_callWatch {outcome : WatchOutcome} (sound : s.Sound)
    (stepped : s.step (.callWatch i outcome) = some s') : s'.Sound := by
  obtain ⟨⟨folder, task⟩, here, result⟩ := Option.bind_eq_some_iff.mp stepped
  cases task with
  | asked =>
    obtain rfl := Option.some.inj result
    have called := watchCalled_watch here outcome
    obtain ⟨caller, among, its, will⟩ := called.calling
    have covered : Covered { s with threads := watch s.threads i folder outcome } folder :=
      .inl ⟨caller, among, its, Task.promises_of_willEnumerate will _⟩
    refine Transfers.sound ⟨fun other was => ?_, fun thread member delivering => ?_⟩ sound
      (sound.pending.imp_right ?_)
    · by_cases same : other = folder
      · exact same ▸ covered
      · refine was.of_threads rfl rfl fun thread member itsOwn promised => ?_
        rcases called.kept thread member with rfl | ⟨kept, inside, stopped⟩
        · exact absurd itsOwn.symm same
        · exact ⟨kept, inside, by rcases stopped with rfl | rfl <;> exact itsOwn,
            (stopped.promises_eq _).trans promised⟩
    · rcases called.origin thread member with same | ⟨before, inside, stopped⟩
      · exact .inl (same ▸ covered)
      · obtain rfl := stopped.eq_of_delivers delivering
        exact .inr ⟨thread, inside, rfl, delivering, rfl⟩
    · rintro ⟨thread, member, publishing⟩
      rcases called.kept thread member with rfl | ⟨kept, inside, stopped⟩
      · exact absurd publishing.symm (Option.some_ne_none _)
      · exact ⟨kept, inside, stopped.pass?_eq.trans publishing⟩
  | _ => exact absurd result.symm (Option.some_ne_none _)

theorem sound_complete {completion : Completion} (sound : s.Sound)
    (stepped : s.step (.complete i completion) = some s') : s'.Sound := by
  obtain ⟨⟨folder, task⟩, here, result⟩ := Option.bind_eq_some_iff.mp stepped
  cases task with
  | watching worker =>
    dsimp only at result
    split_ifs at result with busy
    obtain rfl := Option.some.inj result
    have resting : (Task.watching worker).pass? = none := by
      have idle := (Bool.or_eq_false_iff.mp (Bool.eq_false_iff.mpr busy)).2
      rw [Task.pass?, Option.map_eq_none_iff]
      exact Option.not_isSome_iff_eq_none.mp (Bool.eq_false_iff.mp idle)
    refine sound.set here rfl (fun promised => ?_) (fun delivering => .inl ?_) (.inr ⟨rfl, ?_⟩)
    · exact absurd promised (Task.not_promises_of_resting resting _)
    · exact Task.promises_of_willEnumerate (Task.willEnumerate_processCompletion delivering) _
    · rw [resting]
      decide
  | _ => exact absurd result.symm (Option.some_ne_none _)

/-! ## Steps of a pass -/

variable {task : Task}

/-- A listing that is at least as new as the one it replaces keeps every folder covered. -/
theorem covered_store {s : Browsing Folder}
    {listing : Listing} (here : s.threads[i]? = some ⟨folder, task⟩)
    (storing : task.pass? = some (.store listing))
    (newer : (s.server.directories folder).all (fun stored => stored.seen ≤ listing.seen) = true)
    {other : Folder} (was : s.Covered other) :
    Covered { s with
      server := s.server.store folder task.source listing
      threads := s.threads.set i ⟨folder, task.proceed (some .publish)⟩ } other := by
  have here' : (s.server.store folder task.source listing).directories folder = some listing :=
    Function.update_self _ _ _
  rcases was with ⟨thread, member, its, promised⟩ | ⟨stored, present, recent⟩
  · rcases eq_or_mem_set here member _ with rfl | stays
    · rcases (Task.promises_iff _ _).mp promised with will | ⟨mine, same, recent⟩
      · exact .inl ⟨_, mem_set_self here _, its, Task.promises_of_willEnumerate
          (Task.willEnumerate_proceed storing (by simp only [ne_eq, reduceCtorEq, not_false_eq_true])
            will _) _⟩
      · obtain rfl := Pass.store.inj (Option.some.inj (same.symm.trans storing))
        exact .inr ⟨mine, its ▸ here', recent⟩
    · exact .inl ⟨thread, stays, its, promised⟩
  · by_cases same : other = folder
    · subst same
      rw [present, Option.all_some, decide_eq_true_eq] at newer
      exact .inr ⟨listing, here', Nat.le_trans recent newer⟩
    · exact .inr ⟨stored, (Function.update_of_ne same _ _).trans present, recent⟩

/-- **A careful step of a pass.**  The thread enumerates what is there now; what it stores is at
least as new as what was stored; and it publishes everything that is stored. -/
theorem sound_advance {luck : Luck} (sound : s.Sound)
    (care : s.careful (.advance i luck) = true) (stepped : s.step (.advance i luck) = some s') :
    s'.Sound := by
  obtain ⟨⟨folder, task⟩, here, result⟩ := Option.bind_eq_some_iff.mp stepped
  obtain ⟨pass, running, rfl⟩ := Option.map_eq_some_iff.mp result
  dsimp only at running
  simp only [careful, here, running] at care
  cases pass with
  | enumerate =>
    refine sound.set here rfl (fun _ => ?_) (fun delivers => .inr (Task.delivers_of_proceed delivers))
      (.inr ⟨rfl, ?_⟩)
    · exact Task.promises_of_store (Task.pass?_proceed running _) le_rfl
    · rw [running]
      decide
  | store listing =>
    have after := mem_set_self here ⟨folder, task.proceed (some .publish)⟩
    refine Transfers.sound ⟨fun other was => covered_store here running care was,
      fun thread member delivers => .inr ?_⟩ sound (.inr ⟨_, after, Task.pass?_proceed running _⟩)
    rcases List.mem_or_eq_of_mem_set member with old | rfl
    · exact ⟨thread, old, rfl, delivers, rfl⟩
    · exact ⟨⟨folder, task⟩, List.mem_of_getElem? here, rfl, Task.delivers_of_proceed delivers⟩
  | publish =>
    simp only [Pass.run, care, ↓reduceIte]
    refine sound.set here rfl (fun promised => ?_)
      (fun delivers => .inr (Task.delivers_of_proceed delivers)) (.inl rfl)
    rcases (Task.promises_iff _ _).mp promised with will | ⟨listing, storing, -⟩
    · exact Task.promises_of_willEnumerate
        (Task.willEnumerate_proceed running (by decide) will none) _
    · exact absurd (running.symm.trans storing) (by simp)

/-! ## Runs -/

/-- Browsing reached by runs whose every step is careful. -/
abbrev CarefulRun : Browsing Folder → Prop :=
  Transition.Reachable step Fresh fun s action => s.careful action = true

theorem sound_of_careful {s : Browsing Folder} (reached : CarefulRun s) : s.Sound := by
  refine reached.invariant (fun s fresh => ?_) fun s action s' sound care stepped => ?_
  · refine ⟨fun thread member => ?_, .inl (by rw [fresh.2])⟩
    rw [fresh.1] at member
    cases member
  · cases action with
    | change folder => exact sound_change sound stepped
    | request folder => exact sound_request sound stepped
    | callWatch i outcome => exact sound_callWatch sound stepped
    | complete i completion => exact sound_complete sound stepped
    | advance i luck => exact sound_advance sound care stepped

/-- A watch that is idle has reported every change. -/
theorem not_owed_of_idle (idle : task.idle = true) (delivering : task.delivers = true) :
    ¬ task.owed = true := by
  cases task with
  | watching worker =>
    intro owes
    have both : (worker.delivers && worker.owed) = true := Bool.and_eq_true_iff.mpr ⟨delivering, owes⟩
    have none_ := (Bool.and_eq_true_iff.mp idle).2
    rw [both] at none_
    exact absurd none_ Bool.false_ne_true
  | _ => exact absurd delivering Bool.false_ne_true

/-- A task with nothing left to do has no pass in progress and promises nothing. -/
theorem not_promises_of_idle (idle : task.idle = true) :
    task.pass? = none ∧ ∀ n, ¬ task.promises n = true := by
  cases task with
  | done => exact ⟨rfl, fun _ => Bool.false_ne_true⟩
  | watching worker =>
    have resting : (Task.watching worker).pass? = none := by
      have empty := (Bool.and_eq_true_iff.mp idle).1
      rw [Task.pass?, Option.map_eq_none_iff]
      exact Option.isNone_iff_eq_none.mp empty
    exact ⟨resting, Task.not_promises_of_resting resting⟩
  | _ => exact absurd idle Bool.false_ne_true

end Invariant

end Browsing

section Results

variable {Folder : Type u} [DecidableEq Folder]

/-- Once every request and callback has finished, the published listing of a watched folder was
enumerated after the last change of the folder. -/
theorem published_listing_current {s : Browsing Folder} (reached : Browsing.CarefulRun s)
    (quiet : s.Quiet) {folder : Folder} (watched : s.Watched folder) : s.Current folder := by
  have sound := Browsing.sound_of_careful reached
  obtain ⟨thread, member, rfl, delivering⟩ := watched
  have published : s.server.published = s.server.directories := by
    refine sound.pending.resolve_right ?_
    rintro ⟨other, among, publishing⟩
    have resting := (Browsing.not_promises_of_idle (quiet other among)).1
    exact absurd (resting.symm.trans publishing).symm (Option.some_ne_none _)
  rcases sound.covered thread member delivering with owed | ⟨other, among, -, promised⟩ | stored
  · exact absurd owed (Browsing.not_owed_of_idle (quiet thread member) delivering)
  · exact absurd promised ((Browsing.not_promises_of_idle (quiet other among)).2 _)
  · rw [← published] at stored
    exact stored

end Results

/-! ## A request that is overtaken -/

namespace Browsing

/-- No folder was browsed, and nothing changed. -/
def untouched : Browsing Unit := { changes := fun _ => 0 }

/-- A request is served up to its enumeration, and the folder changes. -/
def enumeratedBeforeChange : List (BrowsingAction Unit) :=
  [.request (), .callWatch 0 .installed, .advance 0 {}, .change ()]

/-- The callback of the watch for the change. -/
def callbackForChange : List (BrowsingAction Unit) :=
  [.complete 1 .changed, .advance 1 {}, .advance 1 {}, .advance 1 {}]

/-- The request stores and publishes. -/
def requestStores : List (BrowsingAction Unit) := [.advance 0 {}, .advance 0 {}]

/-- Whether all is quiet, whether the folder is watched, how often it changed, and how many of the
changes the published listing comes after. -/
def summary (s : Browsing Unit) : Bool × Bool × Nat × Option Nat :=
  (s.threads.all (·.task.idle), s.threads.any (·.task.delivers), s.changes (),
    (s.server.published ()).map Listing.seen)

theorem quiet_of_summary {s : Browsing Unit} {watched : Bool} {changes : Nat} {seen : Option Nat}
    (known : s.summary = (true, watched, changes, seen)) : s.Quiet :=
  List.all_eq_true.mp (congrArg Prod.fst known)

theorem watched_of_summary {s : Browsing Unit} {quiet : Bool} {changes : Nat} {seen : Option Nat}
    (known : s.summary = (quiet, true, changes, seen)) : s.Watched () := by
  obtain ⟨thread, member, delivering⟩ := List.any_eq_true.mp (congrArg (·.2.1) known)
  exact ⟨thread, member, rfl, delivering⟩

end Browsing

section Orders

open Browsing

/-- The request stores first: the callback's listing is published, as it should be. -/
theorem published_listing_current_in_order :
    ∃ s : Browsing Unit, CarefulRun s ∧ s.summary = (true, true, 1, some 1) ∧ s.Current () := by
  have ran : ∃ s, Transition.run (fun s action => if careful s action then s.step action else none)
      untouched (enumeratedBeforeChange ++ requestStores ++ callbackForChange) = some s ∧
        s.summary = (true, true, 1, some 1) := by
    refine ⟨_, (Option.some_get (by decide +kernel)).symm, ?_⟩
    decide +kernel
  obtain ⟨s, exec, known⟩ := ran
  have reached : CarefulRun s := by
    have start : CarefulRun untouched := .start ⟨rfl, rfl⟩
    exact start.of_checked_run (fun _ _ _ care => care) (fun _ _ _ _ _ _ => trivial) trivial exec
  exact ⟨s, reached, known, published_listing_current reached (quiet_of_summary known)
    (watched_of_summary known)⟩

/-- The callback comes first: when all is quiet, the published listing is the one from before the
change. -/
theorem older_listing_published :
    ∃ s : Browsing Unit, Transition.Reachable step Fresh (fun _ _ => True) s ∧ s.Quiet ∧
      s.Watched () ∧ s.changes () = 1 ∧ (s.server.published ()).map Listing.seen = some 0 := by
  have ran : ∃ s, Transition.run step untouched
      (enumeratedBeforeChange ++ callbackForChange ++ requestStores) = some s ∧
        s.summary = (true, true, 1, some 0) := by
    refine ⟨_, (Option.some_get (by decide +kernel)).symm, ?_⟩
    decide +kernel
  obtain ⟨s, exec, known⟩ := ran
  have start : Transition.Reachable step Fresh (fun _ _ => True) untouched := .start ⟨rfl, rfl⟩
  exact ⟨s, start.of_run exec, quiet_of_summary known, watched_of_summary known,
    congrArg (·.2.2.1) known, congrArg (·.2.2.2) known⟩

end Orders

end FastFiles.Engine
