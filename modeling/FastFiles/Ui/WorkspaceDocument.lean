import FastFiles.Foundations.Finding
import FastFiles.Foundations.WideText
import FastFiles.Index.Entry

/-!
# The workspace document

`SerializeState` and `DeserializeState` of `NavigationWorkspace.cpp`: the text in which the
windows keep their bookmarks, recent folders, closed tabs and last location.

The reader does not parse the document.  It looks for keys and brackets anywhere in the text and
reads quoted strings from there, so positions in the text are positions here, and `npos` is
`none`.  The loops of the reader move their position forward in every round, so there are at most
as many rounds as the text has units.
-/

namespace FastFiles.Ui

open Index (Text backslash quoteMark)
open Finding
open WideText (wide)

/-! ## The state -/

structure Bookmark where
  path : Text
  displayName : Text
  deriving DecidableEq

inductive NavigationLocation where
  | home
  /-- The empty path is the synthetic root. -/
  | fileSystem (path : Text)
  deriving DecidableEq

namespace NavigationLocation

def isHome : NavigationLocation → Bool
  | home => true
  | fileSystem _ => false

/-- `currentPath` of a context at this location. -/
def currentPath : NavigationLocation → Text
  | home => []
  | fileSystem path => path

end NavigationLocation

structure WorkspaceState where
  bookmarks : List Bookmark := []
  recentlyClosedTabs : List NavigationLocation := []
  recentFolders : List Text := []
  lastLocation : Text := []
  lastLocationIsHome : Bool := false
  sidebarCollapsed : Bool := false
  drivesCollapsed : Bool := false
  knownFoldersCollapsed : Bool := false
  bookmarksCollapsed : Bool := false
  deriving DecidableEq

def maxRecentlyClosedTabs : Nat := 16

def maxRecentFoldersPersisted : Nat := 50

/-! ## Writing -/

def newline : UInt16 := 0x0A
def carriageReturn : UInt16 := 0x0D
def tab : UInt16 := 0x09
def blank : UInt16 := 0x20

def escapeUnit (unit : UInt16) : Text :=
  if unit = newline then [backslash, 0x6E]
  else if unit = carriageReturn then [backslash, 0x72]
  else if unit = tab then [backslash, 0x74]
  else if unit = quoteMark ∨ unit = backslash then [backslash, unit]
  else [unit]

def escapeJson (value : Text) : Text := value.flatMap escapeUnit

/-- A string between quotes. -/
def quoted (value : Text) : Text := quoteMark :: escapeJson value ++ [quoteMark]

def boolean (value : Bool) : Text := if value then wide "true" else wide "false"

def serializeBookmark (bookmark : Bookmark) : Text :=
  wide "\n    \x7b\"path\": " ++ quoted bookmark.path ++ wide ", \"displayName\": " ++
    quoted bookmark.displayName ++ wide "\x7d"

/-- A closed Home tab is an object; any other one is its path. -/
def serializeClosedTab : NavigationLocation → Text
  | .home => wide "\x7b\"kind\": \"home\"\x7d"
  | .fileSystem path => quoted path

@[irreducible] def serializeState (state : WorkspaceState) : Text :=
  wide "\x7b\n  \"version\": 1,\n  \"lastLocation\": " ++ quoted state.lastLocation ++
    wide ",\n  \"lastLocationIsHome\": " ++ boolean state.lastLocationIsHome ++
    wide ",\n  \"sidebarCollapsed\": " ++ boolean state.sidebarCollapsed ++
    wide ",\n  \"drivesCollapsed\": " ++ boolean state.drivesCollapsed ++
    wide ",\n  \"knownFoldersCollapsed\": " ++ boolean state.knownFoldersCollapsed ++
    wide ",\n  \"bookmarksCollapsed\": " ++ boolean state.bookmarksCollapsed ++
    wide ",\n  \"bookmarks\": [" ++
    (wide ",").intercalate (state.bookmarks.map serializeBookmark) ++
    wide "\n  ],\n  \"recentlyClosedTabs\": [" ++
    (wide ", ").intercalate (state.recentlyClosedTabs.map serializeClosedTab) ++
    wide "],\n  \"recentFolders\": [" ++
    (wide ", ").intercalate (state.recentFolders.map quoted) ++ wide "]\n\x7d\n"

/-! ## Reading -/

/-- What the reader makes of the unit after a backslash. -/
def unescapeUnit (escaped : UInt16) : UInt16 :=
  if escaped = 0x6E then newline
  else if escaped = 0x72 then carriageReturn
  else if escaped = 0x74 then tab
  else escaped

def unescapeJson : Text → Text
  | [] => []
  | [unit] => [unit]
  | unit :: escaped :: rest =>
    if unit ≠ backslash then unit :: unescapeJson (escaped :: rest)
    else unescapeUnit escaped :: unescapeJson rest

/-- Where the string that starts before `rest` ends, and how many backslashes stand right before
the place reached: a quoteMark after an even number of them closes the string. -/
def closingQuote : Text → Nat → Option Nat
  | [], _ => none
  | unit :: rest, slashes =>
    if unit = quoteMark ∧ slashes % 2 = 0 then some 0
    else (closingQuote rest (if unit = backslash then slashes + 1 else 0)).map (· + 1)

variable (json : Text) (name : String)

/-- The string whose opening quoteMark stands at `opening`, and the place after its closing one. -/
def parseQuoted (opening : Nat) : Option (Text × Nat) :=
  if json[opening]? = some quoteMark then
    (closingQuote (json.drop (opening + 1)) 0).map fun length =>
      (unescapeJson ((json.drop (opening + 1)).take length), opening + 1 + length + 1)
  else none

/-- A name between quotes, as the reader looks for it. -/
def marker : Text := quoteMark :: wide name ++ [quoteMark]

/-- The place after the colon of the first key `name` from `start` on. -/
def afterColon (start : Nat) : Option Nat :=
  (findFrom (marker name) json start).bind fun key =>
    (findFrom (wide ":") json (key + (marker name).length)).map (· + 1)

def extractJsonString (start : Nat) : Option (Text × Nat) :=
  (afterColon json name start).bind fun value =>
    (findFrom [quoteMark] json value).bind (parseQuoted json)

def isSpace (unit : UInt16) : Bool := unit = blank ∨ unit = tab ∨ unit = carriageReturn ∨ unit = newline

/-- `find_first_not_of(L" \t\r\n", start)`. -/
def skipSpace (start : Nat) : Option Nat := findIf (fun unit => !isSpace unit) json start

def readBoolean : Bool :=
  match (afterColon json name 0).bind (skipSpace json) with
  | none => false
  | some value => (wide "true").isPrefixOf (json.drop value)

/-- `std::iswspace` on the units that `HasSupportedVersion` can meet after its digit. -/
def isWideSpace (unit : UInt16) : Bool :=
  decide (0x09 ≤ unit.toNat ∧ unit.toNat ≤ 0x0D) || unit = blank

def hasSupportedVersion : Bool :=
  match (afterColon json "version" 0).bind (skipSpace json) with
  | none => false
  | some value =>
    json[value]? = some 0x31 &&
      (match json[value + 1]? with
      | none => true
      | some after => isWideSpace after || after = 0x2C || after = 0x7D)

/-- The bookmarks read from `cursor` on, in at most `fuel` rounds. -/
def readBookmarks (json : Text) : Nat → Nat → List Bookmark
  | 0, _ => []
  | fuel + 1, cursor =>
    match extractJsonString json "path" cursor with
    | none => []
    | some (path, afterPath) =>
      match extractJsonString json "displayName" afterPath with
      | none => []
      | some (displayName, next) => ⟨path, displayName⟩ :: readBookmarks json fuel next

/-- Where the list under `key` starts and where it ends: at the next closing bracket, wherever
that stands. -/
def listBounds (key : String) : Option (Nat × Nat) :=
  (findFrom (marker key) json 0).bind fun found =>
    (findFrom (wide "[") json found).bind fun opening =>
      (findFrom (wide "]") json (opening + 1)).map fun closing => (opening + 1, closing)

/-- The place after the comma that ends an entry which is skipped. -/
def skipEntry (cursor : Nat) : Option Nat :=
  (findIf (fun unit => unit = 0x2C || unit = 0x5D) json cursor).bind fun stop =>
    if json[stop]? = some 0x5D then none else some (stop + 1)

/-- The location of a closed tab that is written as an object. -/
def closedTabOfObject (object : Text) : Option NavigationLocation :=
  (extractJsonString object "kind" 0).map fun (kind, kindNext) =>
    if kind = wide "home" then .home
    else .fileSystem (((extractJsonString object "path" kindNext).map Prod.fst).getD [])

def readClosedTabs (json : Text) (closing : Nat) :
    Nat → Nat → List NavigationLocation → List NavigationLocation
  | 0, _, tabs => tabs
  | fuel + 1, cursor, tabs =>
    if cursor < closing ∧ tabs.length < maxRecentlyClosedTabs then
      match skipSpace json cursor with
      | none => tabs
      | some entry =>
        if closing ≤ entry then tabs
        else if json[entry]? = some quoteMark then
          match parseQuoted json entry with
          | none => tabs
          | some (path, next) => readClosedTabs json closing fuel next (tabs ++ [.fileSystem path])
        else if json[entry]? = some 0x7B then
          match findFrom (wide "\x7d") json (entry + 1) with
          | none => tabs
          | some braceEnd =>
            if closing < braceEnd then tabs
            else
              readClosedTabs json closing fuel (braceEnd + 1)
                (tabs ++
                  (closedTabOfObject ((json.drop entry).take (braceEnd - entry + 1))).toList)
        else
          match skipEntry json entry with
          | none => tabs
          | some next => readClosedTabs json closing fuel next tabs
    else tabs

def readRecentFolders (json : Text) (closing : Nat) : Nat → Nat → List Text → List Text
  | 0, _, folders => folders
  | fuel + 1, cursor, folders =>
    if cursor < closing ∧ folders.length < maxRecentFoldersPersisted then
      match skipSpace json cursor with
      | none => folders
      | some entry =>
        if closing ≤ entry then folders
        else if json[entry]? = some quoteMark then
          match parseQuoted json entry with
          | none => folders
          | some (path, next) => readRecentFolders json closing fuel next (folders ++ [path])
        else
          match skipEntry json entry with
          | none => folders
          | some next => readRecentFolders json closing fuel next folders
    else folders

def deserializeState : WorkspaceState where
  bookmarks := readBookmarks json json.length 0
  recentlyClosedTabs :=
    match listBounds json "recentlyClosedTabs" with
    | none => []
    | some (start, closing) => readClosedTabs json closing json.length start []
  recentFolders :=
    match listBounds json "recentFolders" with
    | none => []
    | some (start, closing) => readRecentFolders json closing json.length start []
  lastLocation := ((extractJsonString json "lastLocation" 0).map Prod.fst).getD []
  lastLocationIsHome := readBoolean json "lastLocationIsHome"
  sidebarCollapsed := readBoolean json "sidebarCollapsed"
  drivesCollapsed := readBoolean json "drivesCollapsed"
  knownFoldersCollapsed := readBoolean json "knownFoldersCollapsed"
  bookmarksCollapsed := readBoolean json "bookmarksCollapsed"

/-- `ReadStateFile` on the decoded contents of the file. -/
@[irreducible] def readDocument (document : Text) : Option WorkspaceState :=
  if hasSupportedVersion document then some (deserializeState document) else none

/-! ## Bookmarks are read back -/

/-- A unit is written as it is, or behind a backslash. -/
theorem escapeUnit_cases (unit : UInt16) :
    (escapeUnit unit = [unit] ∧ unit ≠ quoteMark ∧ unit ≠ backslash) ∨
      ∃ escaped, escapeUnit unit = [backslash, escaped] ∧ unescapeUnit escaped = unit := by
  unfold escapeUnit
  split_ifs with isNewline isReturn isTab special
  · exact .inr ⟨_, rfl, isNewline ▸ rfl⟩
  · exact .inr ⟨_, rfl, isReturn ▸ rfl⟩
  · exact .inr ⟨_, rfl, isTab ▸ rfl⟩
  · refine .inr ⟨unit, rfl, ?_⟩
    rcases special with rfl | rfl <;> decide
  · exact .inl ⟨rfl, not_or.mp special⟩

theorem unescapeJson_escapeJson (value : Text) : unescapeJson (escapeJson value) = value := by
  induction value with
  | nil => rfl
  | cons unit value ih =>
    show unescapeJson (escapeUnit unit ++ escapeJson value) = _
    rcases escapeUnit_cases unit with ⟨plain, -, other⟩ | ⟨escaped, behind, back⟩
    · rw [plain, List.singleton_append]
      cases rest : escapeJson value with
      | nil => rw [← ih, rest]; rfl
      | cons next after => rw [unescapeJson, if_pos other, ← rest, ih]
    · rw [behind]
      show unescapeJson (backslash :: escaped :: escapeJson value) = _
      rw [unescapeJson, if_neg (not_not_intro rfl), ih, back]

/-- The string ends at the quoteMark that was written behind it. -/
theorem closingQuote_escapeJson (value rest : Text) {slashes : Nat} (even : slashes % 2 = 0) :
    closingQuote (escapeJson value ++ quoteMark :: rest) slashes = some (escapeJson value).length := by
  induction value generalizing slashes with
  | nil => exact if_pos ⟨rfl, even⟩
  | cons unit value ih =>
    show closingQuote (escapeUnit unit ++ escapeJson value ++ quoteMark :: rest) slashes =
      some (escapeUnit unit ++ escapeJson value).length
    rcases escapeUnit_cases unit with ⟨plain, inner, other⟩ | ⟨escaped, behind, -⟩
    · rw [plain, List.append_assoc, List.singleton_append, closingQuote, if_neg fun h => inner h.1,
        if_neg other, ih rfl]
      simp
    · -- a quoteMark behind one backslash more does not close
      have odd : ¬ (escaped = quoteMark ∧ (slashes + 1) % 2 = 0) := by omega
      have after : (if escaped = backslash then slashes + 1 + 1 else 0) % 2 = 0 := by
        split_ifs <;> omega
      rw [behind]
      show closingQuote (backslash :: escaped :: (escapeJson value ++ quoteMark :: rest)) slashes = _
      rw [closingQuote, if_neg fun h => absurd h.1 (by decide), if_pos rfl, closingQuote, if_neg odd,
        ih after]
      simp

theorem drop_add_length {text piece rest : Text} {start : Nat}
    (here : text.drop start = piece ++ rest) : text.drop (start + piece.length) = rest := by
  rw [← List.drop_drop, here, List.drop_left]

theorem findFrom_eq {json needle piece rest : Text} {start : Nat} (clash : clashes needle piece = true)
    (here : json.drop start = piece ++ (needle ++ rest)) :
    findFrom needle json start = some (start + piece.length) := by
  rw [findFrom, here, find_append clash, find_self]
  rfl

/-- **A string under a key is read back**, and the reader stands behind it. -/
theorem extractJsonString_eq {json piece value rest : Text} {name : String} {start : Nat}
    (clash : clashes (marker name) piece = true)
    (here : json.drop start =
      piece ++ (marker name ++ (wide ":" ++ (wide " " ++ (quoted value ++ rest))))) :
    ∃ next, extractJsonString json name start = some (value, next) ∧ json.drop next = rest := by
  have atKey := drop_add_length here
  have atColon := drop_add_length atKey
  have atBlank := drop_add_length atColon
  have atQuote := drop_add_length atBlank
  set opening := start + piece.length + (marker name).length + (wide ":").length + (wide " ").length
    with opens
  have text : json.drop (opening + 1) = escapeJson value ++ quoteMark :: rest := by
    rw [← List.drop_drop, atQuote]
    simp [quoted]
  have length : closingQuote (escapeJson value ++ quoteMark :: rest) 0 = some (escapeJson value).length :=
    closingQuote_escapeJson value rest rfl
  have first : json[opening]? = some quoteMark := by
    rw [← List.head?_drop, atQuote]
    rfl
  refine ⟨opening + 1 + (escapeJson value).length + 1, ?_, ?_⟩
  · have key := findFrom_eq clash here
    have colon : findFrom (wide ":") json (start + piece.length + (marker name).length) = some _ :=
      findFrom_eq (rfl : clashes (wide ":") [] = true) atColon
    have mark : findFrom [quoteMark] json (start + piece.length + (marker name).length + 1) = some _ :=
      findFrom_eq (by decide) (show _ = wide " " ++ ([quoteMark] ++ _) from atBlank)
    have parsed : parseQuoted json opening =
        some (value, opening + 1 + (escapeJson value).length + 1) := by
      rw [parseQuoted, if_pos first, text, length, Option.map_some, List.take_left,
        unescapeJson_escapeJson]
    simp only [extractJsonString, afterColon, key, Option.bind_some, colon, Option.map_some,
      List.length_nil, Nat.add_zero, mark]
    exact parsed
  · rw [← List.drop_drop, ← List.drop_drop, text, List.drop_left]
    rfl

/-- The text of a bookmark, cut at its keys. -/
theorem serializeBookmark_eq (bookmark : Bookmark) : serializeBookmark bookmark =
    wide "\n    \x7b" ++ (marker "path" ++ (wide ":" ++ (wide " " ++ (quoted bookmark.path ++
      (wide ", " ++ (marker "displayName" ++ (wide ":" ++ (wide " " ++
        (quoted bookmark.displayName ++ wide "\x7d"))))))))) := by
  have front : wide "\n    \x7b\"path\": " =
      wide "\n    \x7b" ++ (marker "path" ++ (wide ":" ++ wide " ")) := by decide
  have middle : wide ", \"displayName\": " =
      wide ", " ++ (marker "displayName" ++ (wide ":" ++ wide " ")) := by decide
  simp only [serializeBookmark, front, middle, List.append_assoc]

/-- The bookmarks between two texts without the key of a path are read back. -/
theorem readBookmarks_eq {json tail : Text} (closed : clashes (marker "path") tail = true)
    (bookmarks : List Bookmark) {fuel cursor : Nat} {piece : Text}
    (enough : (json.drop cursor).length ≤ fuel) (clash : clashes (marker "path") piece = true)
    (here : json.drop cursor =
      piece ++ ((wide ",").intercalate (bookmarks.map serializeBookmark) ++ tail)) :
    readBookmarks json fuel cursor = bookmarks := by
  induction bookmarks generalizing fuel cursor piece with
  | nil =>
    have nothing : find (marker "path") (json.drop cursor) = none := by
      have whole := find_append (clashes_append clash closed) []
      rw [List.append_nil] at whole
      rw [here]
      exact whole
    cases fuel with
    | zero => rfl
    | succ fuel => simp [readBookmarks, extractJsonString, afterColon, findFrom, nothing]
  | cons bookmark bookmarks ih =>
    -- what stands behind the first bookmark
    obtain ⟨between, clean, body⟩ : ∃ between, clashes (marker "path") (wide "\x7d" ++ between) = true ∧
        (wide ",").intercalate ((bookmark :: bookmarks).map serializeBookmark) =
          serializeBookmark bookmark ++
            (between ++ (wide ",").intercalate (bookmarks.map serializeBookmark)) := by
      cases bookmarks with
      | nil => exact ⟨[], by decide, by simp [List.intercalate]⟩
      | cons next rest => exact ⟨wide ",", by decide, by simp [List.intercalate]⟩
    rw [body, serializeBookmark_eq] at here
    simp only [List.append_assoc] at here
    rw [← List.append_assoc piece] at here
    obtain ⟨afterPath, path, here'⟩ := extractJsonString_eq (clashes_append clash (by decide)) here
    obtain ⟨next, displayName, rest⟩ := extractJsonString_eq
      (by decide : clashes (marker "displayName") (wide ", ") = true) here'
    have shorter : (json.drop next).length < (json.drop cursor).length := by
      rw [here, rest]
      simp only [List.length_append]
      have : (wide "\n    \x7b").length = 6 := rfl
      omega
    obtain ⟨fuel, rfl⟩ : ∃ less, fuel = less + 1 := ⟨fuel - 1, by omega⟩
    rw [← List.append_assoc (wide "\x7d")] at rest
    simp only [readBookmarks, path, displayName]
    rw [ih (by omega) clean rest]

/-- As it is written, the text does not hold the key of a bookmark's path. -/
def Keyless (text : Text) : Prop := ¬ marker "path" <:+: quoted text

instance (text : Text) : Decidable (Keyless text) := inferInstanceAs (Decidable (¬ _))

/-- No text outside the bookmarks holds that key. -/
structure WorkspaceState.Keyless (state : WorkspaceState) : Prop where
  location : Ui.Keyless state.lastLocation
  folders : ∀ folder ∈ state.recentFolders, Ui.Keyless folder
  tabs : ∀ tab ∈ state.recentlyClosedTabs, Ui.Keyless tab.currentPath

instance (state : WorkspaceState) : Decidable state.Keyless :=
  decidable_of_iff (Keyless state.lastLocation ∧ (∀ folder ∈ state.recentFolders, Keyless folder) ∧
      ∀ tab ∈ state.recentlyClosedTabs, Keyless tab.currentPath)
    ⟨fun ⟨location, folders, tabs⟩ => ⟨location, folders, tabs⟩,
      fun keyless => ⟨keyless.location, keyless.folders, keyless.tabs⟩⟩

/-- A list of strings that lack the key, up to the closing bracket. -/
theorem clashes_intercalate {texts : List Text}
    (apart : ∀ text ∈ texts, clashes (marker "path") (text ++ [0x2C]) = true ∧
      clashes (marker "path") (text ++ [0x5D]) = true) :
    clashes (marker "path") ((wide ", ").intercalate texts ++ [0x5D]) = true := by
  induction texts with
  | nil => decide
  | cons text texts ih =>
    obtain ⟨comma, bracket⟩ := apart text (.head _)
    cases texts with
    | nil => simpa [List.intercalate] using bracket
    | cons next texts =>
      have rest := ih fun other mem => apart other (.tail _ mem)
      have joined : (wide ", ").intercalate (text :: next :: texts) ++ [0x5D] =
          (text ++ [0x2C]) ++ ([0x20] ++ ((wide ", ").intercalate (next :: texts) ++ [0x5D])) := by
        simp [List.intercalate, wide]
      rw [joined]
      exact clashes_append comma (clashes_append (by decide) rest)

theorem hasSupportedVersion_serializeState (state : WorkspaceState) :
    hasSupportedVersion (serializeState state) = true := by
  unfold serializeState
  simp only [List.append_assoc]
  rfl

/-- **The bookmarks of a document are read back**, if no other text holds the key of a path. -/
theorem bookmarks_serializeState {state : WorkspaceState} (keyless : state.Keyless) :
    (deserializeState (serializeState state)).bookmarks = state.bookmarks := by
  obtain ⟨location, folders, tabs⟩ := keyless
  have comma : 0x2C ∉ marker "path" := by decide
  have bracket : 0x5D ∉ marker "path" := by decide
  have closed : clashes (marker "path") (wide "\n  ],\n  \"recentlyClosedTabs\": [" ++
      ((wide ", ").intercalate (state.recentlyClosedTabs.map serializeClosedTab) ++ [0x5D]) ++
      (wide ",\n  \"recentFolders\": [" ++
        ((wide ", ").intercalate (state.recentFolders.map quoted) ++ [0x5D]) ++
          wide "\n\x7d\n")) = true := by
    refine clashes_append (clashes_append (by decide) (clashes_intercalate ?_))
      (clashes_append (clashes_append (by decide) (clashes_intercalate ?_)) (by decide))
    · rintro _ mem
      obtain ⟨tab, listed, rfl⟩ := List.mem_map.mp mem
      cases tab with
      | home => decide
      | fileSystem path =>
        exact ⟨clashes_concat (tabs _ listed) comma, clashes_concat (tabs _ listed) bracket⟩
    · rintro _ mem
      obtain ⟨folder, listed, rfl⟩ := List.mem_map.mp mem
      exact ⟨clashes_concat (folders _ listed) comma, clashes_concat (folders _ listed) bracket⟩
  have flag (value : Bool) : clashes (marker "path") (boolean value) = true := by
    cases value <;> decide
  have opened : clashes (marker "path") (wide "\x7b\n  \"version\": 1,\n  \"lastLocation\": " ++
      ((quoted state.lastLocation ++ [0x2C]) ++ (wide "\n  \"lastLocationIsHome\": " ++
      (boolean state.lastLocationIsHome ++ (wide ",\n  \"sidebarCollapsed\": " ++
      (boolean state.sidebarCollapsed ++ (wide ",\n  \"drivesCollapsed\": " ++
      (boolean state.drivesCollapsed ++ (wide ",\n  \"knownFoldersCollapsed\": " ++
      (boolean state.knownFoldersCollapsed ++ (wide ",\n  \"bookmarksCollapsed\": " ++
      (boolean state.bookmarksCollapsed ++ wide ",\n  \"bookmarks\": [")))))))))))) = true := by
    refine clashes_append (by decide) (clashes_append (clashes_concat location comma) ?_)
    iterate 5 refine clashes_append (by decide) (clashes_append (flag _) ?_)
    decide
  refine readBookmarks_eq closed state.bookmarks le_rfl opened ?_
  have first : wide ",\n  \"lastLocationIsHome\": " =
      [0x2C] ++ wide "\n  \"lastLocationIsHome\": " := by decide
  have second : wide "],\n  \"recentFolders\": [" = [0x5D] ++ wide ",\n  \"recentFolders\": [" := by
    decide
  have third : wide "]\n\x7d\n" = [0x5D] ++ wide "\n\x7d\n" := by decide
  unfold serializeState
  simp only [List.drop_zero, List.append_assoc, first, second, third]

end FastFiles.Ui
