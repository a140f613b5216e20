import FastFiles.Foundations.Transition
import FastFiles.Search.Literal
import FastFiles.Ui.WorkspaceDocument

/-!
# Windows sharing the workspace document

`NavigationWorkspace` as far as its bookmarks go: what a window loads, how bookmarks and
navigation change its state, and how `FlushState` writes it back into the document that every
window shares.  A flush is one step.

A flush that finds another document than the one the window loaded or wrote last merges what is
on disk into what it writes, but not into the window's own list.  The next flush of the window
then finds its own document, does not merge, and writes its own list alone.
`second_flush_erases` is such a run.  `Window.adopted` records that the last document of a window
held bookmarks which its list lacks; `unremoved_bookmarks_survive` shows that nothing is lost as
long as no window writes over a document it adopted bookmarks in, and no location, folder or closed
tab holds the key by which the reader finds bookmarks (`Keyless`).
-/

namespace FastFiles.Ui

open Index (Text backslash)
open Search (ordinalEqual)
open WideText (wide)

/-! ## Paths -/

/-- How the system compares and shows paths. -/
structure Platform where
  /-- `CompareStringOrdinal` with case ignored. -/
  ordinal : Search.Ordinal
  /-- What `_wcsicmp` compares of a text. -/
  foldCase : Text → Text
  displayPathLeaf : Text → Text
  isAlpha : UInt16 → Bool

variable (platform : Platform)

/-- `_wcsicmp(left, right) == 0`. -/
def samePath (left right : Text) : Bool := platform.foldCase left = platform.foldCase right

theorem samePath_iff {left right : Text} :
    samePath platform left right = true ↔ platform.foldCase left = platform.foldCase right := by
  simp [samePath]

/-! ## Recent folders -/

def isDriveRoot (value : Text) : Bool :=
  match value with
  | [letter, colon] => platform.isAlpha letter && colon = 0x3A
  | _ => false

/-- Trailing separators go, except the one of a drive root.  The argument is reversed. -/
def normalizeReversed : Text → Text
  | [] => []
  | unit :: rest =>
    if unit = backslash ∧ isDriveRoot platform rest.reverse = false then normalizeReversed rest
    else unit :: rest

def normalize (raw : Text) : Text := (normalizeReversed platform raw.reverse).reverse

def equivalent (left right : Text) : Bool :=
  ordinalEqual platform.ordinal (normalize platform left) (normalize platform right)

/-- `RecentFolderHistory::Record`: an equivalent entry moves to the front as it is spelled. -/
def recordFolder (store : List Text) (path : Text) : List Text :=
  match store.findIdx? fun entry => equivalent platform entry path with
  | some place =>
    ((store[place]?.getD path) :: store.eraseIdx place).take maxRecentFoldersPersisted
  | none => (path :: store).take maxRecentFoldersPersisted

/-! ## Merging -/

/-- `merged.bookmarks` after one bookmark of the document on disk. -/
def mergeBookmark (removed : List Text) (merged : List Bookmark) (bookmark : Bookmark) :
    List Bookmark :=
  if removed.any fun path => samePath platform path bookmark.path then merged
  else if merged.any fun existing => samePath platform existing.path bookmark.path then merged
  else merged ++ [bookmark]

/-- A list filled up with what is on disk and not yet there, up to a limit. -/
def mergeLimited {α : Type} (limit : Nat) (same : α → α → Bool) (merged onDisk : List α) : List α :=
  onDisk.foldl (fun merged entry =>
    if limit ≤ merged.length then merged
    else if merged.any fun existing => same existing entry then merged
    else merged ++ [entry]) merged

def mergeWorkspaceStateForWrite (onDisk writer : WorkspaceState) (removed : List Text) :
    WorkspaceState :=
  { writer with
    bookmarks := onDisk.bookmarks.foldl (mergeBookmark platform removed) writer.bookmarks
    recentFolders :=
      mergeLimited maxRecentFoldersPersisted (equivalent platform) writer.recentFolders
        onDisk.recentFolders
    recentlyClosedTabs :=
      mergeLimited maxRecentlyClosedTabs (fun left right => left = right)
        writer.recentlyClosedTabs onDisk.recentlyClosedTabs }

/-! ## Windows -/

inductive WorkspaceLoadStatus where
  | ok
  | missing
  | failed
  deriving DecidableEq

/-- What the system does with an attempt to read the file. -/
inductive FileAccess where
  | ok
  | notOpened
  | broken
  deriving DecidableEq

/-- What `ReadStateFile` reports. -/
inductive StateRead where
  | missing
  | failed
  | parsed (state : WorkspaceState) (document : Text)

variable (s : Session) (file : Option Text)

/-- A document that cannot be decoded is one that `readDocument` refuses. -/
def readStateFile (access : FileAccess) : StateRead :=
  match file, access with
  | none, _ => .missing
  | some _, .notOpened => .missing
  | some _, .broken => .failed
  | some document, .ok =>
    match readDocument document with
    | none => .failed
    | some state => .parsed state document

structure Window where
  state : WorkspaceState := {}
  /-- Where the active context is. -/
  active : NavigationLocation
  persistedDocument : Text := []
  loadStatus : WorkspaceLoadStatus
  stateDirty : Bool := false
  userStateMutated : Bool := false
  removedBookmarkPaths : List Text := []
  /-- The last document the window wrote holds bookmarks that its list lacked then. -/
  adopted : Bool := false
  deriving DecidableEq

namespace Window

variable (window : Window) (read : StateRead)

def load (defaultPath : Text) : Window :=
  match read with
  | .parsed state document =>
    { state, active := .fileSystem defaultPath, persistedDocument := document, loadStatus := .ok }
  | .failed => { active := .fileSystem defaultPath, loadStatus := .failed }
  | .missing => { active := .fileSystem defaultPath, loadStatus := .missing }

def addBookmark (path name : Text) : Window :=
  if path = [] then window
  else if window.state.bookmarks.any fun bookmark => ordinalEqual platform.ordinal bookmark.path path
  then window
  else
    { window with
      state.bookmarks := window.state.bookmarks ++
        [⟨path, if name = [] then platform.displayPathLeaf path else name⟩]
      removedBookmarkPaths :=
        window.removedBookmarkPaths.filter fun removed => !samePath platform removed path
      stateDirty := true
      userStateMutated := true }

def removeBookmark (index : Nat) : Window :=
  match window.state.bookmarks[index]? with
  | none => window
  | some bookmark =>
    { window with
      state.bookmarks := window.state.bookmarks.eraseIdx index
      removedBookmarkPaths := window.removedBookmarkPaths ++ [bookmark.path]
      stateDirty := true
      userStateMutated := true }

/-- Recording a visited folder is no mutation by the user. -/
def navigate (location : NavigationLocation) : Window :=
  if location = window.active then window
  else
    match location with
    | .home => { window with active := location }
    | .fileSystem [] => { window with active := location }
    | .fileSystem path =>
      { window with
        active := location
        state.recentFolders := recordFolder platform window.state.recentFolders path
        stateDirty := true }

/-- The active location becomes the last one, which alone does not make a state dirty whose
document could not be read. -/
def withLocation : Window :=
  if window.state.lastLocation ≠ window.active.currentPath ∨
      window.state.lastLocationIsHome ≠ window.active.isHome then
    { window with
      state.lastLocation := window.active.currentPath
      state.lastLocationIsHome := window.active.isHome
      stateDirty :=
        window.stateDirty || (window.loadStatus ≠ .failed || window.userStateMutated) }
  else window

def writes : Bool :=
  window.stateDirty && !(window.loadStatus = .failed && !window.userStateMutated)

/-- What a flush writes: what is on disk is merged in when it is not the window's own document. -/
def effective : WorkspaceState :=
  match read with
  | .parsed onDisk document =>
    if document = window.persistedDocument then window.state
    else mergeWorkspaceStateForWrite platform onDisk window.state window.removedBookmarkPaths
  | _ => window.state

/-- The window after its document was saved. -/
def saved (written : WorkspaceState) : Window :=
  { window with
    stateDirty := false
    persistedDocument := serializeState written
    adopted := written.bookmarks ≠ window.state.bookmarks }

/-- The window and the file after `FlushState`.  A save that fails leaves the file alone. -/
def flushState (file : Option Text) (access : FileAccess) (saves : Bool) : Window × Option Text :=
  let located := window.withLocation
  if located.writes ∧ saves then
    let written := located.effective platform (readStateFile file access)
    (located.saved written, some (serializeState written))
  else (located, file)

end Window

/-! ## Sessions -/

structure Session where
  windows : List Window := []
  file : Option Text
  /-- The path of every bookmark that some window removed. -/
  removed : List Text := []
  deriving DecidableEq

inductive WorkspaceAction where
  | openWindow (access : FileAccess) (defaultPath : Text)
  | addBookmark (window : Nat) (path name : Text)
  | removeBookmark (window : Nat) (index : Nat)
  | navigate (window : Nat) (location : NavigationLocation)
  /-- The active context changes without a visit: back, forward, another tab or pane. -/
  | switch (window : Nat) (location : NavigationLocation)
  | flush (window : Nat) (access : FileAccess) (saves : Bool)

namespace Session

/-- One window changes. -/
def update (i : Nat) (window : Window) : Session :=
  { s with windows := s.windows.set i window }

/-- The path that removing a bookmark adds to the removed ones. -/
def removedPaths (window : Window) (index : Nat) : List Text :=
  (window.state.bookmarks[index]?.map Bookmark.path).toList

def step : WorkspaceAction → Option Session
  | .openWindow access defaultPath =>
    some { s with windows := s.windows ++ [.load (readStateFile s.file access) defaultPath] }
  | .addBookmark i path name =>
    s.windows[i]?.map fun window => s.update i (window.addBookmark platform path name)
  | .removeBookmark i index =>
    s.windows[i]?.map fun window =>
      { s.update i (window.removeBookmark index) with
        removed := s.removed ++ removedPaths window index }
  | .navigate i location =>
    s.windows[i]?.map fun window => s.update i (window.navigate platform location)
  | .switch i location =>
    s.windows[i]?.map fun window => s.update i { window with active := location }
  | .flush i access saves =>
    s.windows[i]?.map fun window =>
      let flushed := window.flushState platform s.file access saves
      { s.update i flushed.1 with file := flushed.2 }

end Session

/-- The bookmarks a window would load from the file. -/
def bookmarksIn : List Bookmark :=
  match file.bind readDocument with
  | none => []
  | some state => state.bookmarks

/-! ## What a merge keeps -/

variable {bookmarks : List Bookmark} {path : Text} {removed : List Text}

section Merge

variable {platform : Platform}

/-- A bookmark of the list has this path. -/
def Lists (platform : Platform) (bookmarks : List Bookmark) (path : Text) : Prop :=
  ∃ bookmark ∈ bookmarks, samePath platform bookmark.path path = true

/-- The path is among the removed ones. -/
def Gone (platform : Platform) (removed : List Text) (path : Text) : Prop :=
  ∃ gone ∈ removed, samePath platform gone path = true

theorem samePath_trans {a b c : Text} (first : samePath platform a b = true)
    (second : samePath platform b c = true) : samePath platform a c = true :=
  (samePath_iff platform).mpr
    (((samePath_iff platform).mp first).trans ((samePath_iff platform).mp second))

variable {bookmark : Bookmark}

theorem Lists.of_mem (listed : bookmark ∈ bookmarks) : Lists platform bookmarks bookmark.path :=
  ⟨bookmark, listed, (samePath_iff platform).mpr rfl⟩

theorem Lists.mono {more : List Bookmark} (sub : bookmarks ⊆ more)
    (listed : Lists platform bookmarks path) : Lists platform more path := by
  obtain ⟨bookmark, member, same⟩ := listed
  exact ⟨bookmark, sub member, same⟩

theorem Gone.mono {more : List Text} (sub : removed ⊆ more) (gone : Gone platform removed path) :
    Gone platform more path := by
  obtain ⟨other, member, same⟩ := gone
  exact ⟨other, sub member, same⟩

variable (removed : List Text)

theorem subset_mergeBookmark (merged : List Bookmark) (bookmark : Bookmark) :
    merged ⊆ mergeBookmark platform removed merged bookmark := by
  unfold mergeBookmark
  split_ifs
  · exact List.Subset.refl _
  · exact List.Subset.refl _
  · exact List.subset_append_left _ _

/-- A bookmark on disk is in the merge unless the writer removed it. -/
theorem mergeBookmark_lists (merged : List Bookmark) (bookmark : Bookmark) :
    Gone platform removed bookmark.path ∨
      Lists platform (mergeBookmark platform removed merged bookmark) bookmark.path := by
  unfold mergeBookmark
  split_ifs with tombstoned present
  · exact .inl (List.any_eq_true.mp tombstoned)
  · exact .inr (List.any_eq_true.mp present)
  · exact .inr (.of_mem (List.mem_append_right _ (List.mem_singleton_self _)))

theorem subset_foldl_mergeBookmark (onDisk merged : List Bookmark) :
    merged ⊆ onDisk.foldl (mergeBookmark platform removed) merged := by
  induction onDisk generalizing merged with
  | nil => exact List.Subset.refl _
  | cons bookmark rest ih => exact List.Subset.trans (subset_mergeBookmark removed merged bookmark) (ih _)

theorem foldl_mergeBookmark_lists {onDisk : List Bookmark} (merged : List Bookmark)
    (stored : bookmark ∈ onDisk) :
    Gone platform removed bookmark.path ∨
      Lists platform (onDisk.foldl (mergeBookmark platform removed) merged) bookmark.path := by
  induction onDisk generalizing merged with
  | nil => cases stored
  | cons first rest ih =>
    rcases List.mem_cons.mp stored with rfl | later
    · exact (mergeBookmark_lists removed merged bookmark).imp_right
        (Lists.mono (subset_foldl_mergeBookmark removed rest _))
    · exact ih _ later

end Merge

/-! ## What a window knows of its document -/

variable {window : Window}

section Knowledge

variable {platform : Platform}

variable {written : WorkspaceState}

theorem bookmarksIn_serializeState (keyless : written.Keyless) :
    bookmarksIn (some (serializeState written)) = written.bookmarks := by
  have read : readDocument (serializeState written) =
      some (deserializeState (serializeState written)) := by
    unfold readDocument
    exact if_pos (hasSupportedVersion_serializeState written)
  rw [bookmarksIn, Option.bind_some, read]
  exact bookmarks_serializeState keyless

/-- A window removed what it has tombstones for.  Unless it adopted bookmarks, it lists those of
its document that nobody removed. -/
structure Window.Informed (platform : Platform) (removed : List Text) (window : Window) : Prop where
  tombstones : window.removedBookmarkPaths ⊆ removed
  known : window.adopted = false → ∀ bookmark ∈ bookmarksIn (some window.persistedDocument),
    Lists platform window.state.bookmarks bookmark.path ∨ Gone platform removed bookmark.path

namespace Window.Informed

variable {removed : List Text} {window : Window}

theorem mono {more : List Text} (sub : removed ⊆ more) (informed : window.Informed platform removed) :
    window.Informed platform more where
  tombstones := List.Subset.trans informed.tombstones sub
  known own bookmark stored := (informed.known own bookmark stored).imp_right (Gone.mono sub)

theorem load (access : FileAccess) (defaultPath : Text) :
    (Window.load (readStateFile file access) defaultPath).Informed platform removed := by
  have empty : ∀ bookmark ∈ bookmarksIn (some []), False := by
    have nothing : bookmarksIn (some []) = [] := by decide +kernel
    simp [nothing]
  unfold readStateFile
  split
  iterate 3 exact ⟨List.nil_subset _, fun _ bookmark stored => (empty bookmark stored).elim⟩
  · rename_i document
    cases parse : readDocument document with
    | none => exact ⟨List.nil_subset _, fun _ bookmark stored => (empty bookmark stored).elim⟩
    | some state =>
      refine ⟨List.nil_subset _, fun _ bookmark stored => .inl (.of_mem ?_)⟩
      have read : bookmarksIn (some document) = state.bookmarks := by
        simp [bookmarksIn, parse]
      exact read ▸ stored

theorem addBookmark (informed : window.Informed platform removed) (path name : Text) :
    (window.addBookmark platform path name).Informed platform removed := by
  unfold Window.addBookmark
  split_ifs
  · exact informed
  · exact informed
  all_goals
    exact
      { tombstones := fun _ kept => informed.tombstones (List.mem_of_mem_filter kept)
        known := fun own bookmark stored => (informed.known own bookmark stored).imp_left
          (Lists.mono (List.subset_append_left _ _)) }

/-- A listed path is still listed after a removal, or it is the removed one. -/
theorem lists_eraseIdx {index : Nat} {bookmark : Bookmark}
    (found : bookmarks[index]? = some bookmark) (listed : Lists platform bookmarks path) :
    Lists platform (bookmarks.eraseIdx index) path ∨
      samePath platform bookmark.path path = true := by
  obtain ⟨other, member, same⟩ := listed
  obtain ⟨place, atPlace⟩ := List.mem_iff_getElem?.mp member
  by_cases same_place : place = index
  · subst same_place
    obtain rfl := Option.some.inj (found.symm.trans atPlace)
    exact .inr same
  · exact .inl ⟨other, List.mem_eraseIdx_iff_getElem?.mpr ⟨place, same_place, atPlace⟩, same⟩

section

variable (informed : window.Informed platform removed)

include informed

theorem removeBookmark (index : Nat) :
    (window.removeBookmark index).Informed platform
      (removed ++ Session.removedPaths window index) := by
  unfold Window.removeBookmark
  cases found : window.state.bookmarks[index]? with
  | none => exact informed.mono (List.subset_append_left _ _)
  | some bookmark =>
    have paths : Session.removedPaths window index = [bookmark.path] := by
      simp [Session.removedPaths, found]
    rw [paths]
    refine ⟨List.append_subset.mpr ⟨(informed.mono (List.subset_append_left _ _)).tombstones,
      List.subset_append_right _ _⟩, fun own other stored => ?_⟩
    rcases informed.known own other stored with listed | gone
    · rcases lists_eraseIdx found listed with kept | same
      · exact .inl kept
      · exact .inr ⟨bookmark.path, List.mem_append_right _ (List.mem_singleton_self _), same⟩
    · exact .inr (gone.mono (List.subset_append_left _ _))

/-- What a window knows depends on its bookmarks, tombstones and document only. -/
theorem congr {other : Window} (bookmarks : other.state.bookmarks = window.state.bookmarks)
    (tombstones : other.removedBookmarkPaths = window.removedBookmarkPaths)
    (document : other.persistedDocument = window.persistedDocument)
    (adopted : other.adopted = window.adopted) : other.Informed platform removed where
  tombstones := tombstones ▸ informed.tombstones
  known := by
    rw [adopted, document, bookmarks]
    exact informed.known

theorem navigate (location : NavigationLocation) :
    (window.navigate platform location).Informed platform removed := by
  unfold Window.navigate
  split_ifs
  · exact informed
  · split <;> exact informed.congr rfl rfl rfl rfl

theorem withLocation :
    window.withLocation.Informed platform removed := by
  unfold Window.withLocation
  split_ifs
  · exact informed.congr rfl rfl rfl rfl
  · exact informed

theorem saved (keyless : written.Keyless) : (window.saved written).Informed platform removed := by
  refine ⟨informed.tombstones, fun own bookmark stored => .inl ?_⟩
  simp only [Window.saved, decide_eq_false_iff_not, not_not] at own stored
  rw [bookmarksIn_serializeState keyless, own] at stored
  exact .of_mem stored

end

end Window.Informed

/-- A window that can read the file, and does not write over bookmarks it adopted, writes every
bookmark of the file that no window removed. -/
theorem effective_keeps {file : Option Text} (informed : window.Informed platform removed)
    (own : window.adopted = false ∨ file ≠ some window.persistedDocument) {bookmark : Bookmark}
    (stored : bookmark ∈ bookmarksIn file) :
    Gone platform removed bookmark.path ∨
      Lists platform (window.effective platform (readStateFile file .ok)).bookmarks
        bookmark.path := by
  cases file with
  | none => cases stored
  | some document =>
    cases parse : readDocument document with
    | none =>
      simp only [bookmarksIn, Option.bind_some, parse, List.not_mem_nil] at stored
    | some onDisk =>
      have read : bookmarksIn (some document) = onDisk.bookmarks := by
        simp [bookmarksIn, parse]
      simp only [readStateFile, parse, Window.effective]
      split_ifs with unchanged
      · subst unchanged
        have kept := informed.known (own.resolve_right fun changed => changed rfl)
        exact (kept bookmark stored).symm
      · exact (foldl_mergeBookmark_lists _ _ (read ▸ stored)).imp_left
          (Gone.mono informed.tombstones)

theorem mem_mergeLimited {α : Type} {limit : Nat} {same : α → α → Bool} {merged onDisk : List α}
    {entry : α} (mem : entry ∈ mergeLimited limit same merged onDisk) :
    entry ∈ merged ∨ entry ∈ onDisk := by
  induction onDisk generalizing merged with
  | nil => exact .inl mem
  | cons first rest ih =>
    rcases ih mem with added | later
    · dsimp only at added
      split_ifs at added
      · exact .inl added
      · exact .inl added
      · rcases List.mem_append.mp added with old | new
        · exact .inl old
        · exact .inr (List.mem_singleton.mp new ▸ .head _)
    · exact .inr (.tail _ later)

/-- What is merged from texts without the key lacks it too. -/
theorem keyless_effective (platform : Platform) {file : Option Text} (own : window.state.Keyless)
    (disk : ∀ onDisk ∈ file.bind readDocument, onDisk.Keyless) :
    (window.effective platform (readStateFile file .ok)).Keyless := by
  cases file with
  | none => exact own
  | some document =>
    cases parse : readDocument document with
    | none =>
      simp only [readStateFile, parse]
      exact own
    | some onDisk =>
      have read := disk onDisk parse
      simp only [readStateFile, parse, Window.effective]
      split_ifs
      · exact own
      · exact ⟨own.location, fun folder mem => (mem_mergeLimited mem).elim (own.folders folder)
          (read.folders folder), fun tab mem => (mem_mergeLimited mem).elim (own.tabs tab)
          (read.tabs tab)⟩

end Knowledge

/-! ## Runs -/

section Runs

variable {platform : Platform}

/-- What keeps a flush from losing bookmarks: a window that writes can read the file, it does not
write over its own document with bookmarks it adopted there, and neither it nor the file has a
location, folder or closed tab that holds the key of a bookmark. -/
def Window.flushesCarefully (window : Window) (file : Option Text) (access : FileAccess)
    (saves : Bool) : Bool :=
  let located := window.withLocation
  !(located.writes && saves) ||
    (access = .ok && (!located.adopted || file ≠ some located.persistedDocument) &&
      located.state.Keyless && (file.bind readDocument).all fun onDisk => onDisk.Keyless)

/-- **What a careful flush does.**  The window stays informed, and the file holds every bookmark
it held before that no window removed. -/
theorem flushState_keeps {file : Option Text} {access : FileAccess} {saves : Bool}
    (informed : window.Informed platform removed)
    (care : window.flushesCarefully file access saves = true) :
    (window.flushState platform file access saves).1.Informed platform removed ∧
      ∀ bookmark ∈ bookmarksIn file,
        Gone platform removed bookmark.path ∨
          Lists platform (bookmarksIn (window.flushState platform file access saves).2)
            bookmark.path := by
  have located := informed.withLocation
  unfold Window.flushesCarefully at care
  unfold Window.flushState
  dsimp only at care ⊢
  split_ifs with writing
  · simp only [writing.1, writing.2, Bool.and_self, Bool.not_true, Bool.false_or, Bool.and_eq_true,
      decide_eq_true_eq, Bool.or_eq_true, Bool.not_eq_true', Option.all_eq_true] at care
    obtain ⟨⟨⟨rfl, own⟩, clean⟩, disk⟩ := care
    have keyless := keyless_effective platform clean disk
    refine ⟨located.saved keyless, fun bookmark stored => ?_⟩
    rw [bookmarksIn_serializeState keyless]
    exact effective_keeps located own stored
  · exact ⟨located, fun bookmark stored => .inr (.of_mem stored)⟩

namespace Session

def careful (s : Session) : WorkspaceAction → Bool
  | .flush i access saves =>
    (s.windows[i]?.map fun window => window.flushesCarefully s.file access saves).getD true
  | _ => true

/-- A session without windows, on any file. -/
def Fresh : Prop := s.windows = [] ∧ s.removed = []

/-- Sessions reached by runs whose flushes are careful. -/
abbrev CarefulRun (platform : Platform) (start : Session → Prop) : Session → Prop :=
  Transition.Reachable (step platform) start fun s action => careful s action = true

/-- Every window is informed. -/
def Sound (platform : Platform) (s : Session) : Prop :=
  ∀ window ∈ s.windows, window.Informed platform s.removed

theorem Sound.update {s : Session} (sound : s.Sound platform) {i : Nat}
    (informed : window.Informed platform s.removed) : (s.update i window).Sound platform := by
  intro other member
  rcases List.mem_or_eq_of_mem_set member with unchanged | rfl
  · exact sound other unchanged
  · exact informed

variable {action : WorkspaceAction} {s s' : Session}

/-- **The step lemma.**  A careful step keeps every window informed, only adds to the removed
paths, and leaves every bookmark in the file that no window removed. -/
theorem step_keeps (sound : s.Sound platform)
    (care : careful s action = true) (stepped : step platform s action = some s') :
    s'.Sound platform ∧ s.removed ⊆ s'.removed ∧
      ∀ bookmark ∈ bookmarksIn s.file,
        Gone platform s'.removed bookmark.path ∨
          Lists platform (bookmarksIn s'.file) bookmark.path := by
  have same : ∀ bookmark ∈ bookmarksIn s.file, Lists platform (bookmarksIn s.file) bookmark.path :=
    fun bookmark stored => .of_mem stored
  have at_window {i : Nat} {next : Window → Session} (stepped : s.windows[i]?.map next = some s') :
      ∃ window, s.windows[i]? = some window ∧ window.Informed platform s.removed ∧
        next window = s' := by
    obtain ⟨window, found, rfl⟩ := Option.map_eq_some_iff.mp stepped
    exact ⟨window, found, sound window (List.mem_of_getElem? found), rfl⟩
  cases action with
  | openWindow access defaultPath =>
    obtain rfl := Option.some.inj stepped
    refine ⟨?_, List.Subset.refl _, fun bookmark stored => .inr (same bookmark stored)⟩
    intro window member
    rcases List.mem_append.mp member with old | new
    · exact sound window old
    · rw [List.mem_singleton.mp new]
      exact .load _ _ _
  | addBookmark i path name =>
    obtain ⟨window, found, informed, rfl⟩ := at_window stepped
    exact ⟨sound.update (informed.addBookmark path name), List.Subset.refl _,
      fun bookmark stored => .inr (same bookmark stored)⟩
  | removeBookmark i index =>
    obtain ⟨window, found, informed, rfl⟩ := at_window stepped
    refine ⟨?_, List.subset_append_left _ _, fun bookmark stored => .inr (same bookmark stored)⟩
    intro other member
    rcases List.mem_or_eq_of_mem_set member with unchanged | rfl
    · exact (sound other unchanged).mono (List.subset_append_left _ _)
    · exact informed.removeBookmark index
  | navigate i location =>
    obtain ⟨window, found, informed, rfl⟩ := at_window stepped
    exact ⟨sound.update (informed.navigate location), List.Subset.refl _,
      fun bookmark stored => .inr (same bookmark stored)⟩
  | switch i location =>
    obtain ⟨window, found, informed, rfl⟩ := at_window stepped
    exact ⟨sound.update (informed.congr rfl rfl rfl rfl), List.Subset.refl _,
      fun bookmark stored => .inr (same bookmark stored)⟩
  | flush i access saves =>
    obtain ⟨window, found, informed, rfl⟩ := at_window stepped
    simp only [careful, found, Option.map_some, Option.getD_some] at care
    obtain ⟨after, kept⟩ := flushState_keeps informed care
    exact ⟨sound.update after, List.Subset.refl _, kept⟩

theorem sound_of_careful {s : Session} (reached : CarefulRun platform Fresh s) :
    s.Sound platform := by
  refine reached.invariant (fun s fresh window member => ?_) fun s action s' sound care stepped =>
    (step_keeps sound care stepped).1
  rw [fresh.1] at member
  cases member

/-- Every window is informed, and the file holds this path unless a window removed it. -/
def Keeps (platform : Platform) (path : Text) (s : Session) : Prop :=
  s.Sound platform ∧ (Gone platform s.removed path ∨ Lists platform (bookmarksIn s.file) path)

theorem step_keeps_path (holds : s.Keeps platform path) (care : careful s action = true)
    (stepped : step platform s action = some s') : s'.Keeps platform path := by
  obtain ⟨sound, grown, kept⟩ := step_keeps holds.1 care stepped
  refine ⟨sound, ?_⟩
  rcases holds.2 with gone | ⟨bookmark, member, same⟩
  · exact .inl (gone.mono grown)
  · -- the file may spell the path in another way, so both outcomes are carried over
    rcases kept bookmark member with ⟨other, removed, again⟩ | ⟨other, found, again⟩
    · exact .inl ⟨other, removed, samePath_trans again same⟩
    · exact .inr ⟨other, found, samePath_trans again same⟩

end Session

/-- A bookmark that is in the file at some point of a run, and whose path no window has removed,
is in the file at every later point: also after every later flush. -/
theorem unremoved_bookmarks_survive {s t : Session}
    (reached : Session.CarefulRun platform Session.Fresh s)
    (later : Session.CarefulRun platform (· = s) t) {bookmark : Bookmark}
    (stored : bookmark ∈ bookmarksIn s.file) (unremoved : ¬ Gone platform t.removed bookmark.path) :
    Lists platform (bookmarksIn t.file) bookmark.path := by
  have keeps : t.Keeps platform bookmark.path := by
    refine later.invariant (fun start same => ?_) fun r action r' holds care stepped =>
      Session.step_keeps_path holds care stepped
    rw [same]
    exact ⟨Session.sound_of_careful reached, .inr (.of_mem stored)⟩
  exact keeps.2.resolve_left unremoved

end Runs

/-! ## The second flush -/

/-- Paths are compared as they are. -/
def exactPlatform : Platform where
  ordinal left right := if left = right then .eq else .lt
  foldCase path := path
  displayPathLeaf path := path
  isAlpha _ := true

/-- Two windows on no file; the second one stores a bookmark. -/
def twoWindows : List WorkspaceAction :=
  [.openWindow .ok (wide "C:\\"), .openWindow .ok (wide "C:\\"),
    .addBookmark 1 (wide "C:\\kept") (wide "kept"), .flush 1 .ok true]

/-- What the second window stored. -/
def keptBookmark : Bookmark := ⟨wide "C:\\kept", wide "kept"⟩

/-- A run that stops at a flush which is not careful. -/
def carefulRun (actions : List WorkspaceAction) : Option Session :=
  Transition.run
    (fun s action =>
      if Session.careful s action then Session.step exactPlatform s action else none)
    s actions

theorem reachable_of_carefulRun {start : Session → Prop} {s t : Session}
    {actions : List WorkspaceAction} (begin : start s) (ran : carefulRun s actions = some t) :
    Session.CarefulRun exactPlatform start t := by
  have reached : Session.CarefulRun exactPlatform start s := .start begin
  exact reached.of_checked_run (fun _ _ _ care => care) (fun _ _ _ _ _ _ => trivial) trivial ran

/-- The session once the second window stored its bookmark. -/
def storedSession : Session := (carefulRun ⟨[], none, []⟩ twoWindows).getD ⟨[], none, []⟩

/-- The first window visits a folder and flushes. -/
def visitAndFlush (folder : String) : List WorkspaceAction :=
  [.navigate 0 (.fileSystem (wide folder)), .flush 0 .ok true]

/-- The session once the first window flushed as well. -/
def mergedSession : Session :=
  (carefulRun storedSession (visitAndFlush "C:\\a")).getD ⟨[], none, []⟩

/-- The first flush of the first window merges. -/
theorem unremoved_bookmarks_survive_merge :
    keptBookmark ∈ bookmarksIn storedSession.file ∧ mergedSession.removed = [] ∧
      Lists exactPlatform (bookmarksIn mergedSession.file) keptBookmark.path := by
  have stored : keptBookmark ∈ bookmarksIn storedSession.file := by decide +kernel
  have nothing : mergedSession.removed = [] := by decide +kernel
  refine ⟨stored, nothing, ?_⟩
  have first : carefulRun ⟨[], none, []⟩ twoWindows = some storedSession := by decide +kernel
  have second : carefulRun storedSession (visitAndFlush "C:\\a") = some mergedSession := by
    decide +kernel
  refine unremoved_bookmarks_survive (reachable_of_carefulRun ⟨rfl, rfl⟩ first)
    (reachable_of_carefulRun rfl second) stored ?_
  rintro ⟨path, removed, -⟩
  exact List.not_mem_nil (nothing ▸ removed)

/-- It visits another folder and flushes again, and the bookmark of the second window is gone from
the file. -/
theorem second_flush_erases :
    ∃ t : Session,
      Transition.run (Session.step exactPlatform) ⟨[], none, []⟩
        (twoWindows ++ visitAndFlush "C:\\a") = some mergedSession ∧
      Transition.run (Session.step exactPlatform) mergedSession (visitAndFlush "C:\\b") = some t ∧
      bookmarksIn mergedSession.file = [keptBookmark] ∧ t.removed = [] ∧
      bookmarksIn t.file = [] := by
  refine ⟨_, by decide +kernel, (Option.some_get (by decide +kernel)).symm, ?_⟩
  decide +kernel

end FastFiles.Ui
