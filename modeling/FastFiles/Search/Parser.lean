import FastFiles.Search.Filters
import FastFiles.Search.Glob
import FastFiles.Search.Substring

/-!
# Parsing a query

`Tokenize`, the default filter registry and `ParseQuery`.  Every term and filter of a query is
compiled twice, to a predicate over an owned candidate and to one over a borrowed view.

`Agree` relates the two: they give the same answer on a candidate and on its views, where a view that
calls its name ASCII is right.  The predicates of every query agree exactly if no unit outside ASCII is
compared equal to one inside (`parse_views_agree_iff`).  Where the host's comparison equates such a
pair they do not, since the owned name is searched with ASCII folding only, and the borrowed one, not
being ASCII, with the host's comparison.
-/

namespace FastFiles.Search

open Index (Text asciiLower quoteMark)
open WideText (wide)

/-! ## Tokens -/

/-- The state of `Tokenize`: the tokens so far, the current one and whether it is quoted. -/
structure Tokenizer where
  tokens : List Text := []
  current : Text := []
  quoted : Bool := false

variable (host : Host) (fold : UInt16 → UInt16)

namespace Tokenizer

def flush (t : Tokenizer) : Tokenizer :=
  if t.current.isEmpty then t else { t with tokens := t.tokens ++ [t.current], current := [] }

def step (t : Tokenizer) (unit : UInt16) : Tokenizer :=
  if unit = quoteMark then { t with quoted := !t.quoted }
  else if !t.quoted && host.isSpace unit then t.flush
  else { t with current := t.current ++ [unit] }

end Tokenizer

def tokenize (text : Text) : List Text :=
  (text.foldl (Tokenizer.step host) {}).flush.tokens

/-! ## Filters -/

inductive FilterValue where
  | text (value : Text)
  | size (value : SizeFilter)
  | date (value : DateFilter)
deriving DecidableEq

/-- What a name has behind its last dot. -/
def extension? (name : Text) : Option Text :=
  if 0x2e ∈ name then some (name.reverse.takeWhile (· != 0x2e)).reverse else none

/-- `LowerEquals16`. -/
def lowerEquals16 (value lowerValue : Text) : Bool :=
  value.length == lowerValue.length &&
    (value.zip lowerValue).all fun units => host.toLower units.1 == units.2

def hasLowerExtension16 (name extension : Text) : Bool :=
  (extension? name).any fun ending => lowerEquals16 host ending extension

def hasLowerExtension (name extension : Text) : Bool :=
  (extension? name).any fun ending => host.lower ending == extension

def kindNames : List Text :=
  [wide "document", wide "image", wide "video", wide "audio", wide "archive", wide "executable",
    wide "folder", wide "file"]

/-- The extensions of a kind that is neither `folder` nor `file`. -/
def kindExtensions (kind : Text) : List Text :=
  if kind = wide "image" then [wide "png", wide "jpg", wide "jpeg", wide "gif"]
  else if kind = wide "document" then [wide "pdf", wide "doc", wide "docx", wide "txt"]
  else if kind = wide "video" then [wide "mp4", wide "mkv"]
  else if kind = wide "audio" then [wide "mp3", wide "wav"]
  else if kind = wide "archive" then [wide "zip", wide "7z"]
  else [wide "exe", wide "bat", wide "cmd"]

structure FilterDefinition where
  parseValue : Text → Option FilterValue
  makePredicate : FilterValue → Predicate
  makeViewPredicate : Option (FilterValue → ViewPredicate)

namespace FilterValue

/-- `std::get`; a definition only gets values it has parsed. -/
def asText : FilterValue → Text
  | text value => value
  | _ => []

def asSize : FilterValue → SizeFilter
  | size value => value
  | _ => ⟨.equal, 0, 0⟩

def asDate : FilterValue → DateFilter
  | date value => value
  | _ => ⟨.range, 0, 0⟩

end FilterValue

/-- The predicate of a view for a literal. -/
def literalView (ordinal : Ordinal) (term : Text) : ViewPredicate := fun view =>
  ordinalContains16Prepared ordinal view.name (prepareSimpleLiteral term) view.nameIsAscii

section Definitions

variable (host : Host) (ordinal : Ordinal)

def extFilter : FilterDefinition where
  parseValue value :=
    let bare := if value.head? = some 0x2e then value.drop 1 else value
    if bare.isEmpty then none else some (.text (host.lower bare))
  makePredicate value candidate := hasLowerExtension host candidate.name value.asText
  makeViewPredicate := some fun value view => hasLowerExtension16 host view.name value.asText

def nameFilter : FilterDefinition where
  parseValue value := if value.isEmpty then none else some (.text value)
  makePredicate value candidate :=
    asciiFoldContains ordinal candidate.name (prepareAsciiFoldNeedle value.asText)
  makeViewPredicate := some fun value => literalView ordinal value.asText

def folderFilter : FilterDefinition where
  parseValue value := if value.isEmpty then none else some (.text value)
  makePredicate value candidate :=
    asciiFoldContains ordinal candidate.folder (prepareAsciiFoldNeedle value.asText)
  makeViewPredicate := some fun value view =>
    asciiFoldContains ordinal view.folder (prepareAsciiFoldNeedle value.asText)

def sizeFilter : FilterDefinition where
  parseValue value := (parseSizeFilter host value).map .size
  makePredicate value candidate := value.asSize.accepts candidate.sizeBytes
  makeViewPredicate := some fun value view => value.asSize.accepts view.sizeBytes

/-- A size on disk that is not known meets no filter. -/
def onDiskFilter : FilterDefinition where
  parseValue value := (parseSizeFilter host value).map .size
  makePredicate value candidate :=
    candidate.allocatedSizeKnown && value.asSize.accepts candidate.allocatedSizeBytes
  makeViewPredicate := some fun value view =>
    view.allocatedSizeKnown && value.asSize.accepts view.allocatedSizeBytes

def modifiedFilter : FilterDefinition where
  parseValue value := (parseDateFilter host value).map .date
  makePredicate value candidate := value.asDate.accepts candidate.modifiedTime
  makeViewPredicate := some fun value view => value.asDate.accepts view.modifiedTime

def kindFilter : FilterDefinition where
  parseValue value :=
    if host.lower value ∈ kindNames then some (.text (host.lower value)) else none
  makePredicate value candidate :=
    if value.asText = wide "folder" then candidate.isDirectory
    else if value.asText = wide "file" then !candidate.isDirectory
    else
      let ending := ((extension? candidate.name).map host.lower).getD []
      ending ∈ kindExtensions value.asText
  makeViewPredicate := some fun value view =>
    if value.asText = wide "folder" then view.isDirectory
    else if value.asText = wide "file" then !view.isDirectory
    else (kindExtensions value.asText).any (hasLowerExtension16 host view.name)

/-- The filters in the order of their registration. -/
def registered : List (Text × FilterDefinition) :=
  [(wide "ext", extFilter host), (wide "name", nameFilter ordinal),
    (wide "folder", folderFilter ordinal), (wide "size", sizeFilter host),
    (wide "ondisk", onDiskFilter host), (wide "modified", modifiedFilter host),
    (wide "kind", kindFilter host)]

/-- `Find`: keys are lowered when they are registered and when they are looked up; a later
registration replaces an earlier one. -/
def findFilter (key : Text) : Option FilterDefinition :=
  ((registered host ordinal).reverse.find? fun entry => host.lower entry.1 == host.lower key).map
    Prod.snd

end Definitions

/-! ## Compiling -/

inductive PredicateKind where
  | unknown | literalName | globName | folderName | extension | size | allocatedSize | modified | kind
deriving DecidableEq

/-- A query under construction, with the last literal. -/
structure QueryBuilder extends Query where
  viewPredicatesWithoutFolder : List ViewPredicate := []
  viewPredicateKinds : List PredicateKind := []
  viewPredicateWithoutFolderKinds : List PredicateKind := []
  unrecognizedKeys : List Text := []
  invalidFilters : List Text := []
  simpleLiteralTerm : Text := []

def emptyBuilder : QueryBuilder where
  predicates := []
  predicatesWithoutFolder := []
  viewPredicates := []
  primaryTerm := []
  requiresFolder := false
  viewCompatible := true
  simpleLiteral := none

namespace QueryBuilder

/-- A filter on the name is a literal too. -/
def noteLiteral (builder : QueryBuilder) (kind_ : PredicateKind) (term : Text) : QueryBuilder :=
  if kind_ = .literalName then { builder with simpleLiteralTerm := term } else builder

/-- `addPredicate`. -/
def add (builder : QueryBuilder) (predicate : Predicate) (viewPredicate : Option ViewPredicate)
    (requiresFolder : Bool) (kind_ : PredicateKind) : QueryBuilder :=
  let builder :=
    if requiresFolder then
      { builder with predicates := builder.predicates ++ [predicate], requiresFolder := true }
    else
      { builder with
        predicates := builder.predicates ++ [predicate]
        predicatesWithoutFolder := builder.predicatesWithoutFolder ++ [predicate] }
  match viewPredicate with
  | none => { builder with viewCompatible := false }
  | some view =>
    if requiresFolder then
      { builder with
        viewPredicates := builder.viewPredicates ++ [view]
        viewPredicateKinds := builder.viewPredicateKinds ++ [kind_] }
    else
      { builder with
        viewPredicates := builder.viewPredicates ++ [view]
        viewPredicateKinds := builder.viewPredicateKinds ++ [kind_]
        viewPredicatesWithoutFolder := builder.viewPredicatesWithoutFolder ++ [view]
        viewPredicateWithoutFolderKinds := builder.viewPredicateWithoutFolderKinds ++ [kind_] }

end QueryBuilder

def kindOfKey (normalizedKey : Text) : PredicateKind :=
  if normalizedKey = wide "name" then .literalName
  else if normalizedKey = wide "folder" then .folderName
  else if normalizedKey = wide "ext" then .extension
  else if normalizedKey = wide "size" then .size
  else if normalizedKey = wide "ondisk" then .allocatedSize
  else if normalizedKey = wide "modified" then .modified
  else if normalizedKey = wide "kind" then .kind
  else .unknown

section Parse

variable (host : Host) (ordinal : Ordinal)

variable (builder : QueryBuilder) (token : Text)

/-- A token that is no filter: a glob if it has a wildcard, else a literal. -/
def addTerm : QueryBuilder :=
  if asterisk ∈ token ∨ questionMark ∈ token then
    builder.add (fun candidate => globMatches ordinal candidate.name token)
      (some fun view => globMatches16 ordinal view.name token) false .globName
  else
    { builder with
      primaryTerm := if builder.primaryTerm.isEmpty then token else builder.primaryTerm
      simpleLiteralTerm := token }.add
      (fun candidate => asciiFoldContains ordinal candidate.name (prepareAsciiFoldNeedle token))
      (some (literalView ordinal token)) false .literalName

/-- A token with a known key. -/
def addFilter (definition : FilterDefinition) (key value : Text) : QueryBuilder :=
  match definition.parseValue value with
  | none => { builder with invalidFilters := builder.invalidFilters ++ [key] }
  | some parsed =>
    (builder.noteLiteral (kindOfKey (host.lower key)) parsed.asText).add
      (definition.makePredicate parsed) (definition.makeViewPredicate.map fun make => make parsed)
      (decide (host.lower key = wide "folder")) (kindOfKey (host.lower key))

def addToken : QueryBuilder :=
  match token.findIdx? (· == 0x3a) with
  | none => addTerm ordinal builder token
  | some colon =>
    match findFilter host ordinal (token.take colon) with
    | some definition =>
      addFilter host builder definition (token.take colon) (token.drop (colon + 1))
    | none =>
      addTerm ordinal
        { builder with unrecognizedKeys := builder.unrecognizedKeys ++ [token.take colon] } token

/-- A single literal is prepared once more for the fast path. -/
def finishQuery : Query :=
  if builder.viewCompatible && !builder.requiresFolder && builder.predicates.length == 1 &&
      decide (builder.viewPredicateKinds = [.literalName]) && !builder.simpleLiteralTerm.isEmpty then
    { builder.toQuery with simpleLiteral := some (prepareSimpleLiteral builder.simpleLiteralTerm) }
  else builder.toQuery

def parseQuery (text : Text) : Query :=
  finishQuery ((tokenize host text).foldl (addToken host ordinal) emptyBuilder)

end Parse

/-! ## Tokens have no quotes -/

namespace Tokenizer

/-- No token, finished or not, has a quote, and a finished one is not empty. -/
def Unquoted (t : Tokenizer) : Prop :=
  quoteMark ∉ t.current ∧ ∀ token ∈ t.tokens, token ≠ [] ∧ quoteMark ∉ token

variable {t : Tokenizer}

theorem Unquoted.flush (unquoted : t.Unquoted) : t.flush.Unquoted := by
  unfold Tokenizer.flush
  split_ifs with empty
  · exact unquoted
  · refine ⟨List.not_mem_nil, fun token member => ?_⟩
    rcases List.mem_append.mp member with old | new
    · exact unquoted.2 token old
    · rw [List.mem_singleton.mp new]
      exact ⟨mt List.isEmpty_iff.mpr empty, unquoted.1⟩

theorem Unquoted.step (unquoted : t.Unquoted) (host : Host) (unit : UInt16) :
    (t.step host unit).Unquoted := by
  unfold Tokenizer.step
  split_ifs with quote space
  · exact unquoted
  · exact unquoted.flush
  · refine ⟨fun member => ?_, unquoted.2⟩
    rcases List.mem_append.mp member with old | new
    · exact unquoted.1 old
    · exact quote (List.mem_singleton.mp new).symm

theorem Unquoted.foldl (unquoted : t.Unquoted) (host : Host) (text : Text) :
    (text.foldl (Tokenizer.step host) t).Unquoted := by
  induction text generalizing t with
  | nil => exact unquoted
  | cons unit text ih => exact ih (unquoted.step host unit)

/-- Between quotes everything but a quote is taken as it is. -/
theorem foldl_quoted (tokens : List Text) (text current : Text) (unquoted : quoteMark ∉ text) :
    text.foldl (Tokenizer.step host) ⟨tokens, current, true⟩ = ⟨tokens, current ++ text, true⟩ := by
  induction text generalizing current with
  | nil => rw [List.foldl_nil, List.append_nil]
  | cons unit text ih =>
    rw [List.mem_cons, not_or] at unquoted
    have taken : Tokenizer.step host ⟨tokens, current, true⟩ unit =
        ⟨tokens, current ++ [unit], true⟩ := by
      rw [Tokenizer.step, if_neg (Ne.symm unquoted.1)]
      rfl
    rw [List.foldl_cons, taken, ih _ unquoted.2, List.append_assoc]
    rfl

end Tokenizer

variable {host : Host} {token text : Text}

theorem unquoted_of_mem_tokenize (member : token ∈ tokenize host text) :
    token ≠ [] ∧ quoteMark ∉ token := by
  have start : Tokenizer.Unquoted {} := ⟨List.not_mem_nil, fun _ among => absurd among List.not_mem_nil⟩
  exact (start.foldl host text).flush.2 token member

/-- A quoted text is one token. -/
theorem tokenize_quoted (host : Host) (unquoted : quoteMark ∉ text) (nonempty : text ≠ []) :
    tokenize host (quoteMark :: text ++ [quoteMark]) = [text] := by
  have opened : Tokenizer.step host {} quoteMark = ⟨[], [], true⟩ := rfl
  have closed : Tokenizer.step host ⟨[], text, true⟩ quoteMark = ⟨[], text, false⟩ := rfl
  rw [tokenize, List.cons_append, List.foldl_cons, opened, List.foldl_append,
    Tokenizer.foldl_quoted host [] text [] unquoted, List.nil_append, List.foldl_cons, closed,
    List.foldl_nil, Tokenizer.flush, if_neg (mt List.isEmpty_iff.mp nonempty)]
  rfl

/-! ## Views of a candidate -/

namespace Candidate

/-- The view of a candidate whose folder is known, with a flag for its name. -/
def borrowed (candidate : Candidate) (nameIsAscii : Bool) : CandidateView :=
  { candidate.view with folder := candidate.folder, nameIsAscii }

end Candidate

/-- The two predicates of a term give the same answer; a flag that is set is true. -/
def Agree (predicate : Predicate) (viewPredicate : ViewPredicate) : Prop :=
  ∀ (candidate : Candidate) (nameIsAscii : Bool), (nameIsAscii = true → isAscii candidate.name = true) →
    viewPredicate (candidate.borrowed nameIsAscii) = predicate candidate

/-! ## Literals -/

/-- On ASCII the comparison folds as ASCII does. -/
def FoldsAscii : Prop :=
  ∀ left right : UInt16, left.toNat ≤ 0x7f → right.toNat ≤ 0x7f →
    (fold left = fold right ↔ foldAsciiChar left = foldAsciiChar right)

/-- No unit outside ASCII is compared equal to one that a query can have. -/
def KeepsAsciiApart : Prop :=
  ∀ inside outside : UInt16, inside.toNat ≤ 0x7f → inside ≠ quoteMark → 0x7f < outside.toNat →
    fold outside ≠ fold inside

theorem foldAsciiChar_ne_of_wide {inside outside : UInt16} (small : inside.toNat ≤ 0x7f)
    (large : 0x7f < outside.toNat) : foldAsciiChar outside ≠ foldAsciiChar inside := by
  intro same
  rw [foldAsciiChar, asciiLower, if_neg (by omega)] at same
  have := foldAsciiChar_cases inside
  rw [← same] at this
  omega

/-- Two foldings that agree on the units of a needle find it in the same places. -/
theorem occurs_congr {f g : UInt16 → UInt16} {needle : Text}
    (agree : ∀ unit ∈ needle, ∀ other, f other = f unit ↔ g other = g unit) (haystack : Text) :
    Occurs f needle haystack ↔ Occurs g needle haystack := by
  have windows : ∀ (needle window : Text),
      (∀ unit ∈ needle, ∀ other, f other = f unit ↔ g other = g unit) →
        (window.map f = needle.map f ↔ window.map g = needle.map g) := by
    intro needle
    induction needle with
    | nil =>
      intro window _
      cases window <;> simp
    | cons unit needle ih =>
      intro window agree
      cases window with
      | nil => simp
      | cons other window =>
        rw [List.map_cons, List.map_cons, List.map_cons, List.map_cons, List.cons_eq_cons,
          List.cons_eq_cons, agree unit List.mem_cons_self other,
          ih window fun u member => agree u (List.mem_cons_of_mem _ member)]
  rw [occurs_iff, occurs_iff]
  exact exists_congr fun start => and_congr_right fun _ => windows needle _ agree

section Literals

variable {ordinal : Ordinal} {fold : UInt16 → UInt16} (unitWise : UnitWise ordinal fold)
  (ascii : FoldsAscii fold) (apart : KeepsAsciiApart fold)

include ascii apart in
/-- Then an ASCII needle stands in the same places under both foldings. -/
theorem occurs_fold_iff {needle : Text} (small : isAscii needle) (unquoted : quoteMark ∉ needle)
    (haystack : Text) : Occurs fold needle haystack ↔ Occurs foldAsciiChar needle haystack := by
  refine occurs_congr (fun unit member other => ?_) haystack
  have inside : unit.toNat ≤ 0x7f := by simpa using List.all_eq_true.mp small unit member
  by_cases outside : other.toNat ≤ 0x7f
  · exact ascii other unit outside inside
  · have large : 0x7f < other.toNat := by omega
    refine iff_of_false (apart unit other inside ?_ large) (foldAsciiChar_ne_of_wide inside large)
    rintro rfl
    exact unquoted member

include unitWise ascii apart in
/-- The two searches for a literal agree. -/
theorem agree_literal {term : Text} (nonempty : term ≠ []) (unquoted : quoteMark ∉ term) :
    Agree (fun candidate => asciiFoldContains ordinal candidate.name (prepareAsciiFoldNeedle term))
      (literalView ordinal term) := by
  intro candidate nameIsAscii _
  rw [Bool.eq_iff_iff]
  show ordinalContains16Prepared ordinal candidate.name (prepareSimpleLiteral term) nameIsAscii = true ↔ _
  by_cases small : isAscii term
  · rw [asciiFoldContains_of_ascii ordinal small nonempty]
    cases nameIsAscii with
    | true => exact ordinalContains16Prepared_of_ascii ordinal small nonempty candidate.name
    | false =>
      rw [ordinalContains16Prepared_of_ordinal unitWise (Bool.and_false _) nonempty]
      exact occurs_fold_iff ascii apart small unquoted candidate.name
  · have large : isAscii term = false := Bool.eq_false_iff.mpr small
    rw [asciiFoldContains_of_not_ascii unitWise large nonempty]
    exact ordinalContains16Prepared_of_ordinal unitWise (by rw [large, Bool.false_and]) nonempty
      candidate.name

end Literals

/-! ## Filters -/

theorem lowerEquals16_eq (host : Host) (value lowerValue : Text) :
    lowerEquals16 host value lowerValue = (host.lower value == lowerValue) := by
  rw [lowerEquals16, Host.lower]
  induction value generalizing lowerValue with
  | nil => cases lowerValue <;> rfl
  | cons unit value ih =>
    cases lowerValue with
    | nil => rfl
    | cons other lowerValue =>
      have rest := ih lowerValue
      rw [List.map_cons, List.cons_beq_cons, ← rest, List.length_cons, List.length_cons,
        List.zip_cons_cons, List.all_cons]
      have sizes : (value.length + 1 == lowerValue.length + 1) =
          (value.length == lowerValue.length) := by
        rw [Bool.eq_iff_iff, beq_iff_eq, beq_iff_eq, Nat.add_right_cancel_iff]
      rw [sizes, Bool.and_left_comm]

theorem hasLowerExtension16_eq (host : Host) (name extension : Text) :
    hasLowerExtension16 host name extension = hasLowerExtension host name extension := by
  simp [hasLowerExtension16, hasLowerExtension, lowerEquals16_eq]

/-- No kind has the empty extension. -/
theorem nil_notMem_kindExtensions (kind_ : Text) : [] ∉ kindExtensions kind_ := by
  unfold kindExtensions
  split_ifs <;> decide

/-- A filter: its two predicates agree on what it parsed from a text without quotes. -/
def FilterDefinition.Agrees (definition : FilterDefinition) : Prop :=
  ∃ make, definition.makeViewPredicate = some make ∧
    ∀ value parsed, definition.parseValue value = some parsed → quoteMark ∉ value →
      Agree (definition.makePredicate parsed) (make parsed)

theorem agrees_extFilter (host : Host) : (extFilter host).Agrees := by
  refine ⟨_, rfl, fun value parsed _ _ candidate nameIsAscii _ => ?_⟩
  exact hasLowerExtension16_eq host candidate.name parsed.asText

theorem agrees_kindFilter (host : Host) : (kindFilter host).Agrees := by
  refine ⟨_, rfl, fun value parsed _ _ candidate nameIsAscii _ => ?_⟩
  have extensions : (kindExtensions parsed.asText).any (hasLowerExtension16 host candidate.name) =
      decide (((extension? candidate.name).map host.lower).getD [] ∈ kindExtensions parsed.asText) := by
    cases found : extension? candidate.name with
    | none =>
      rw [Option.map_none, Option.getD_none, decide_eq_false (nil_notMem_kindExtensions _)]
      simp [hasLowerExtension16, found]
    | some ending =>
      rw [Option.map_some, Option.getD_some, Bool.eq_iff_iff, List.any_eq_true, decide_eq_true_iff]
      simp [hasLowerExtension16, found, lowerEquals16_eq]
  simp [kindFilter, Candidate.borrowed, Candidate.view, extensions]

variable {ordinal : Ordinal}

theorem nameFilter_parsed {value : Text} {parsed : FilterValue}
    (done : (nameFilter ordinal).parseValue value = some parsed) :
    value ≠ [] ∧ parsed = .text value := by
  simp only [nameFilter] at done
  split_ifs at done with empty
  exact ⟨mt List.isEmpty_iff.mpr empty, (Option.some.inj done).symm⟩

variable {key : Text}

/-- The keys of the registry are their own lowered form. -/
theorem lower_key (host : Host)
    (member : key ∈ [wide "ext", wide "name", wide "folder", wide "size", wide "ondisk",
      wide "modified", wide "kind"]) : host.lower key = key := by
  have ascii : ∀ key ∈ [wide "ext", wide "name", wide "folder", wide "size", wide "ondisk",
      wide "modified", wide "kind"], isAscii key = true ∧ foldAscii16 key = key := by decide
  exact (host.lower_of_ascii (ascii key member).1).trans (ascii key member).2

variable {entry : Text × FilterDefinition}

theorem lower_registered (member : entry ∈ registered host ordinal) :
    host.lower entry.1 = entry.1 :=
  lower_key host (List.mem_map_of_mem member)

variable {definition : FilterDefinition}

theorem findFilter_eq_some (found : findFilter host ordinal key = some definition) :
    (host.lower key, definition) ∈ registered host ordinal := by
  obtain ⟨entry, here, rfl⟩ := Option.map_eq_some_iff.mp found
  have member := List.mem_reverse.mp (List.mem_of_find?_eq_some here)
  have same : host.lower entry.1 = host.lower key := by simpa using List.find?_some here
  rw [← same, lower_registered member]
  exact member

/-- Only the name filter is registered for the kind of a literal. -/
theorem eq_nameFilter
    (member : (key, definition) ∈ registered host ordinal) (literal : kindOfKey key = .literalName) :
    definition = nameFilter ordinal := by
  simp only [registered, List.mem_cons, List.not_mem_nil, or_false, Prod.mk.injEq] at member
  rcases member with ⟨rfl, rfl⟩ | ⟨rfl, rfl⟩ | ⟨rfl, rfl⟩ | ⟨rfl, rfl⟩ | ⟨rfl, rfl⟩ | ⟨rfl, rfl⟩ |
    ⟨rfl, rfl⟩
  · exact absurd literal (by decide)
  · rfl
  all_goals exact absurd literal (by decide)

section Registry

variable {fold : UInt16 → UInt16} (unitWise : UnitWise ordinal fold)
  (ascii : FoldsAscii fold) (apart : KeepsAsciiApart fold)

include unitWise ascii apart

theorem agrees_nameFilter : (nameFilter ordinal).Agrees := by
  refine ⟨_, rfl, fun value parsed done unquoted => ?_⟩
  obtain ⟨nonempty, rfl⟩ := nameFilter_parsed done
  exact agree_literal unitWise ascii apart nonempty unquoted

theorem agrees_registered (member : entry ∈ registered host ordinal) : entry.2.Agrees := by
  simp only [registered, List.mem_cons, List.not_mem_nil, or_false] at member
  rcases member with rfl | rfl | rfl | rfl | rfl | rfl | rfl
  · exact agrees_extFilter host
  · exact agrees_nameFilter unitWise ascii apart
  -- the other filters read a field that a view has too
  iterate 4 exact ⟨_, rfl, fun _ _ _ _ _ _ _ => rfl⟩
  · exact agrees_kindFilter host

end Registry

theorem findFilter_name (host : Host) (ordinal : Ordinal) :
    findFilter host ordinal (wide "name") = some (nameFilter ordinal) := by
  have lowered : ∀ entry ∈ (registered host ordinal).reverse, host.lower entry.1 = entry.1 :=
    fun entry member => lower_registered (List.mem_reverse.mp member)
  have search : (registered host ordinal).reverse.find?
        (fun entry => host.lower entry.1 == host.lower (wide "name")) =
      (registered host ordinal).reverse.find? fun entry => entry.1 == wide "name" := by
    rw [← List.head?_filter, ← List.head?_filter]
    congr 1
    refine List.filter_congr fun entry member => ?_
    rw [lowered entry member, lower_key host (by decide)]
  rw [findFilter, search]
  rfl

/-! ## The compiled query -/

namespace QueryBuilder

/-- Each predicate has a predicate for views that agrees with it. -/
structure Compatible (builder : QueryBuilder) : Prop where
  compatible : builder.viewCompatible = true
  unprepared : builder.simpleLiteral = none
  agree : List.Forall₂ Agree builder.predicates builder.viewPredicates
  kinds : builder.viewPredicateKinds.length = builder.viewPredicates.length

/-- And a single literal is the one that was noted. -/
structure Sound (ordinal : Ordinal) (builder : QueryBuilder) : Prop extends Compatible builder where
  literal : builder.viewPredicateKinds = [.literalName] →
    builder.viewPredicates = [literalView ordinal builder.simpleLiteralTerm]

theorem sound_empty (ordinal : Ordinal) : emptyBuilder.Sound ordinal :=
  ⟨⟨rfl, rfl, .nil, rfl⟩, fun single => absurd single (List.cons_ne_nil _ _).symm⟩

section Add

variable {ordinal : Ordinal} {builder : QueryBuilder} {predicate : Predicate} {view : ViewPredicate}
  {requiresFolder : Bool} {kind_ : PredicateKind}

/-- A literal is noted before its predicate is added, so it is right if it is the only one. -/
theorem Compatible.add (before : builder.Compatible) (agree : Agree predicate view)
    (noted : kind_ = .literalName → view = literalView ordinal builder.simpleLiteralTerm) :
    (builder.add predicate (some view) requiresFolder kind_).Sound ordinal := by
  have agree_ := List.rel_append before.agree (.cons agree .nil)
  have kinds : (builder.viewPredicateKinds ++ [kind_]).length =
      (builder.viewPredicates ++ [view]).length := by
    rw [List.length_append, List.length_append, before.kinds]
    rfl
  have literal : builder.viewPredicateKinds ++ [kind_] = [.literalName] →
      builder.viewPredicates ++ [view] = [literalView ordinal builder.simpleLiteralTerm] := by
    intro single
    have sizes := congrArg List.length single
    rw [kinds, List.length_append, List.length_singleton, List.length_singleton] at sizes
    have none := List.eq_nil_of_length_eq_zero (Nat.add_eq_right.mp sizes)
    have first : builder.viewPredicateKinds = [] := by
      apply List.eq_nil_of_length_eq_zero
      rw [before.kinds, none, List.length_nil]
    rw [first] at single
    rw [none, noted (List.singleton_inj.mp single), List.nil_append]
  -- the folder only decides about the lists without it
  cases requiresFolder <;>
    exact ⟨⟨before.compatible, before.unprepared, agree_, kinds⟩, literal⟩

end Add

end QueryBuilder

variable {builder : QueryBuilder}

theorem QueryBuilder.Sound.noteLiteral (sound : builder.Sound ordinal) (kind_ : PredicateKind)
    (term : Text) : (builder.noteLiteral kind_ term).Compatible := by
  unfold QueryBuilder.noteLiteral
  split_ifs
  · exact ⟨sound.compatible, sound.unprepared, sound.agree, sound.kinds⟩
  · exact sound.toCompatible

/-- The fast path for a single literal answers as its predicate does. -/
theorem QueryBuilder.Sound.acceptsView_eq (sound : builder.Sound ordinal) {candidate : Candidate}
    {nameIsAscii : Bool} (truthful : nameIsAscii = true → isAscii candidate.name = true) :
    (finishQuery builder).acceptsView ordinal (candidate.borrowed nameIsAscii) =
      (finishQuery builder).accepts candidate := by
  have all_eq : (builder.viewPredicates.all fun view => view (candidate.borrowed nameIsAscii)) =
      builder.predicates.all fun predicate => predicate candidate := by
    have agree := sound.agree
    revert agree
    generalize builder.predicates = predicates, builder.viewPredicates = views
    intro agree
    induction agree with
    | nil => rfl
    | cons head _ ih => rw [List.all_cons, List.all_cons, ih, head candidate nameIsAscii truthful]
  unfold finishQuery
  split_ifs with single
  · simp only [Bool.and_eq_true, decide_eq_true_eq] at single
    rw [sound.literal single.1.2, List.all_cons, List.all_nil, Bool.and_true] at all_eq
    rw [Query.acceptsView, Query.accepts, ← all_eq]
    simp only [sound.compatible]
    rfl
  · rw [Query.acceptsView, Query.accepts, ← all_eq]
    simp [sound.compatible, sound.unprepared]

/-! ## What compiling ensures -/

/-- The predicate does not read the folder. -/
def Predicate.Folderless (predicate : Predicate) : Prop :=
  ∀ candidate folder, predicate { candidate with folder } = predicate candidate

/-- A predicate is entered among those without a folder only if it reads none. -/
theorem Query.Compiled.add (compiled : builder.toQuery.Compiled) {predicate : Predicate}
    {viewPredicate : Option ViewPredicate} {requiresFolder : Bool} {kind_ : PredicateKind}
    (reads : requiresFolder = false → predicate.Folderless) :
    (builder.add predicate viewPredicate requiresFolder kind_).toQuery.Compiled := by
  have among : ∀ p ∈ builder.predicatesWithoutFolder, p ∈ builder.predicates ++ [predicate] :=
    fun p member => List.mem_append_left _ (compiled.among p member)
  cases requiresFolder with
  | true => cases viewPredicate <;> exact ⟨among, compiled.folderless, fun needed => by cases needed⟩
  | false =>
    have both (p : Predicate) (member : p ∈ builder.predicatesWithoutFolder ++ [predicate]) :
        p ∈ builder.predicates ++ [predicate] ∧ p.Folderless := by
      rcases List.mem_append.mp member with old | new
      · exact ⟨among p old, compiled.folderless p old⟩
      · rw [List.mem_singleton.mp new]
        exact ⟨by simp, reads rfl⟩
    cases viewPredicate <;> exact ⟨fun p member => (both p member).1,
      fun p member => (both p member).2, fun needed => congrArg (· ++ _) (compiled.all needed)⟩

theorem Query.Compiled.addTerm (compiled : builder.toQuery.Compiled) :
    (addTerm ordinal builder token).toQuery.Compiled := by
  unfold Search.addTerm
  by_cases wildcard : asterisk ∈ token ∨ questionMark ∈ token
  · rw [if_pos wildcard]
    exact compiled.add fun _ _ _ => rfl
  · rw [if_neg wildcard]
    refine Query.Compiled.add ?_ fun _ _ _ => rfl
    exact ⟨compiled.among, compiled.folderless, compiled.all⟩

/-- Of the registered filters only that of the key `folder` reads the folder. -/
theorem folderless_registered (member : entry ∈ registered host ordinal)
    (other : entry.1 ≠ wide "folder") (value : FilterValue) :
    (entry.2.makePredicate value).Folderless := by
  simp only [registered, List.mem_cons, List.not_mem_nil, or_false] at member
  rcases member with rfl | rfl | rfl | rfl | rfl | rfl | rfl
  · exact fun _ _ => rfl
  · exact fun _ _ => rfl
  · exact absurd rfl other
  all_goals exact fun _ _ => rfl

theorem Query.Compiled.addToken (compiled : builder.toQuery.Compiled) :
    (addToken host ordinal builder token).toQuery.Compiled := by
  unfold Search.addToken
  split
  · exact compiled.addTerm
  · split
    · rename_i definition found
      unfold addFilter
      split
      · exact ⟨compiled.among, compiled.folderless, compiled.all⟩
      · refine Query.Compiled.add ?_ fun other => folderless_registered (findFilter_eq_some found)
          (of_decide_eq_false other) _
        unfold QueryBuilder.noteLiteral
        split_ifs
        · exact ⟨compiled.among, compiled.folderless, compiled.all⟩
        · exact compiled
    · exact Query.Compiled.addTerm ⟨compiled.among, compiled.folderless, compiled.all⟩

/-- **Every parsed query is compiled.** -/
theorem compiled_parseQuery (host : Host) (ordinal : Ordinal) (text : Text) :
    (parseQuery host ordinal text).Compiled := by
  have built : ((tokenize host text).foldl (addToken host ordinal) emptyBuilder).toQuery.Compiled :=
    List.foldlRecOn (motive := fun builder : QueryBuilder => builder.toQuery.Compiled) _ _
      ⟨fun _ member => member, fun _ member => absurd member List.not_mem_nil, fun _ => rfl⟩
      fun _ compiled _ _ => compiled.addToken
  unfold parseQuery finishQuery
  split_ifs
  · exact ⟨built.among, built.folderless, built.all⟩
  · exact built

section Parsed

variable {fold : UInt16 → UInt16} (unitWise : UnitWise ordinal fold) (ascii : FoldsAscii fold)
  (apart : KeepsAsciiApart fold)

include unitWise ascii apart

section

variable (sound : builder.Sound ordinal)

include sound

theorem QueryBuilder.Sound.addTerm (nonempty : token ≠ []) (unquoted : quoteMark ∉ token) :
    (addTerm ordinal builder token).Sound ordinal := by
  unfold Search.addTerm
  by_cases wildcard : asterisk ∈ token ∨ questionMark ∈ token
  · rw [if_pos wildcard]
    refine sound.toCompatible.add (fun candidate nameIsAscii _ => ?_) fun literal => ?_
    · show globMatches16 ordinal candidate.name token = _
      rw [globMatches16, patternWidth16_eq, globMatches]
    · cases literal
  · rw [if_neg wildcard]
    have noted : QueryBuilder.Compatible
        { builder with
          primaryTerm := if builder.primaryTerm.isEmpty then token else builder.primaryTerm
          simpleLiteralTerm := token } :=
      ⟨sound.compatible, sound.unprepared, sound.agree, sound.kinds⟩
    exact noted.add (agree_literal unitWise ascii apart nonempty unquoted) fun _ => rfl

theorem QueryBuilder.Sound.addFilter
    {key value : Text} (member : (host.lower key, definition) ∈ registered host ordinal)
    (unquoted : quoteMark ∉ value) : (addFilter host builder definition key value).Sound ordinal := by
  obtain ⟨make, compiled, agree⟩ := agrees_registered unitWise ascii apart member
  unfold Search.addFilter
  cases parsed : definition.parseValue value with
  | none => exact ⟨⟨sound.compatible, sound.unprepared, sound.agree, sound.kinds⟩, sound.literal⟩
  | some parsed_ =>
    dsimp only at compiled agree ⊢
    rw [compiled]
    refine (sound.noteLiteral _ _).add (agree value parsed_ parsed unquoted) fun literal => ?_
    obtain rfl := eq_nameFilter member literal
    obtain ⟨-, rfl⟩ := nameFilter_parsed parsed
    rw [QueryBuilder.noteLiteral, if_pos literal]
    cases compiled
    rfl

theorem QueryBuilder.Sound.addToken (nonempty : token ≠ []) (unquoted : quoteMark ∉ token) :
    (addToken host ordinal builder token).Sound ordinal := by
  unfold Search.addToken
  split
  · exact sound.addTerm unitWise ascii apart nonempty unquoted
  · rename_i colon _
    split
    · rename_i definition found
      exact sound.addFilter unitWise ascii apart (findFilter_eq_some found)
        (mt (List.mem_of_mem_drop) unquoted)
    · have unrecognized : QueryBuilder.Sound ordinal
          { builder with unrecognizedKeys := builder.unrecognizedKeys ++ [token.take colon] } :=
        ⟨⟨sound.compatible, sound.unprepared, sound.agree, sound.kinds⟩, sound.literal⟩
      exact unrecognized.addTerm unitWise ascii apart nonempty unquoted

theorem QueryBuilder.Sound.addTokens {tokens : List Text}
    (unquoted : ∀ token ∈ tokens, token ≠ [] ∧ quoteMark ∉ token) :
    (tokens.foldl (Search.addToken host ordinal) builder).Sound ordinal := by
  induction tokens generalizing builder with
  | nil => exact sound
  | cons token tokens ih =>
    obtain ⟨nonempty, plain⟩ := unquoted token (.head _)
    exact ih (sound.addToken unitWise ascii apart nonempty plain)
      fun other member => unquoted other (.tail _ member)

end

theorem acceptsView_parseQuery (text : Text) {candidate : Candidate} {nameIsAscii : Bool}
    (truthful : nameIsAscii = true → isAscii candidate.name = true) :
    (parseQuery host ordinal text).acceptsView ordinal (candidate.borrowed nameIsAscii) =
      (parseQuery host ordinal text).accepts candidate := by
  have unquoted : ∀ token ∈ tokenize host text, token ≠ [] ∧ quoteMark ∉ token :=
    fun _ member => unquoted_of_mem_tokenize member
  exact ((QueryBuilder.sound_empty ordinal).addTokens unitWise ascii apart unquoted).acceptsView_eq
    truthful

end Parsed

/-! ## A query for a name -/

/-- The query that asks for a text in the name, quoted. -/
def nameQuery (term : Text) : Text := quoteMark :: (wide "name:" ++ term) ++ [quoteMark]

variable {term : Text}

theorem parseQuery_nameQuery (host : Host) (ordinal : Ordinal) (nonempty : term ≠ [])
    (unquoted : quoteMark ∉ term) :
    parseQuery host ordinal (nameQuery term) =
      { emptyBuilder.toQuery with
        predicates := [(nameFilter ordinal).makePredicate (.text term)]
        predicatesWithoutFolder := [(nameFilter ordinal).makePredicate (.text term)]
        viewPredicates := [literalView ordinal term]
        simpleLiteral := some (prepareSimpleLiteral term) } := by
  have key : wide "name:" = wide "name" ++ [0x3a] := by decide
  have token : quoteMark ∉ wide "name:" ++ term := by
    rw [List.mem_append, not_or]
    exact ⟨by decide, unquoted⟩
  have tokens : tokenize host (nameQuery term) = [wide "name:" ++ term] :=
    tokenize_quoted host token (by simp [key])
  have parsed : (nameFilter ordinal).parseValue term = some (.text term) :=
    if_neg (mt List.isEmpty_iff.mp nonempty)
  have filtered : addToken host ordinal emptyBuilder (wide "name:" ++ term) =
      addFilter host emptyBuilder (nameFilter ordinal) (wide "name") term := by
    have colon : (wide "name:" ++ term).findIdx? (· == 0x3a) = some 4 := rfl
    have front : (wide "name:" ++ term).take 4 = wide "name" := rfl
    have back : (wide "name:" ++ term).drop 5 = term := rfl
    rw [addToken, colon]
    dsimp only
    rw [front, back, findFilter_name]
  have literal : kindOfKey (wide "name") = .literalName := by decide
  have apart : decide (wide "name" = wide "folder") = false := by decide
  rw [parseQuery, tokens, List.foldl_cons, List.foldl_nil, filtered, addFilter, parsed]
  dsimp only
  rw [lower_key host (by decide), literal, apart]
  exact if_pos (by simp [QueryBuilder.noteLiteral, QueryBuilder.add, emptyBuilder, nameFilter,
    FilterValue.asText, nonempty])

theorem accepts_nameQuery (host : Host) (ordinal : Ordinal) (small : isAscii term)
    (nonempty : term ≠ []) (unquoted : quoteMark ∉ term) (candidate : Candidate) :
    (parseQuery host ordinal (nameQuery term)).accepts candidate = true ↔
      Occurs foldAsciiChar term candidate.name := by
  rw [parseQuery_nameQuery host ordinal nonempty unquoted,
    ← asciiFoldContains_of_ascii ordinal small nonempty]
  simp [Query.accepts, nameFilter, FilterValue.asText]

theorem acceptsView_nameQuery (host : Host) {fold : UInt16 → UInt16}
    (unitWise : UnitWise ordinal fold) (nonempty : term ≠ []) (unquoted : quoteMark ∉ term)
    (candidate : Candidate) :
    (parseQuery host ordinal (nameQuery term)).acceptsView ordinal (candidate.borrowed false) = true ↔
      Occurs fold term candidate.name := by
  rw [parseQuery_nameQuery host ordinal nonempty unquoted,
    ← ordinalContains16Prepared_of_ordinal unitWise (Bool.and_false _) nonempty candidate.name]
  rfl

theorem occurs_single_iff (inside outside : UInt16) :
    Occurs fold [inside] [outside] ↔ fold outside = fold inside := by
  rw [Occurs, List.map_singleton, List.map_singleton]
  constructor
  · intro occurs
    have member := occurs.subset (.head _)
    exact (List.mem_singleton.mp member).symm
  · intro same
    rw [same]

/-- Every query answers alike on a candidate and on its views exactly if the host's comparison keeps
ASCII apart.  The tier is the same in any case. -/
theorem parse_views_agree_iff (host : Host) {ordinal : Ordinal} {fold : UInt16 → UInt16}
    (unitWise : UnitWise ordinal fold) (ascii : FoldsAscii fold) :
    (∀ (text : Text) (candidate : Candidate) (nameIsAscii : Bool),
      (nameIsAscii = true → isAscii candidate.name = true) →
        let query := parseQuery host ordinal text
        let view := candidate.borrowed nameIsAscii
        query.acceptsView ordinal view = query.accepts candidate ∧
          classifyMatchView ordinal view.name query.primaryTerm =
            classifyMatch ordinal candidate.name query.primaryTerm) ↔
      KeepsAsciiApart fold := by
  constructor
  · intro agree inside outside small plain large same
    let candidate : Candidate := ⟨[outside], [], 0, 0, false, 0, 0, 0, 0, false, 0, false⟩
    have unquoted : quoteMark ∉ [inside] := fun member => plain (List.mem_singleton.mp member).symm
    have ascii_term : isAscii [inside] = true := by simpa [isAscii] using small
    have shown := (acceptsView_nameQuery host unitWise (List.cons_ne_nil inside []) unquoted candidate).mpr
      ((occurs_single_iff fold inside outside).mpr same)
    have answers := (agree (nameQuery [inside]) candidate false (fun set => nomatch set)).1
    rw [shown] at answers
    have found := (accepts_nameQuery host ordinal ascii_term (List.cons_ne_nil inside []) unquoted
      candidate).mp answers.symm
    exact foldAsciiChar_ne_of_wide small large ((occurs_single_iff _ inside outside).mp found)
  · intro apart text candidate nameIsAscii truthful
    exact ⟨acceptsView_parseQuery unitWise ascii apart text truthful,
      classifyMatchView_eq ordinal candidate.name _⟩

theorem keepsAsciiApart_foldAsciiChar : KeepsAsciiApart foldAsciiChar :=
  fun _ _ small _ large => foldAsciiChar_ne_of_wide small large

theorem parse_views_agree_iff_ascii :
    let query := parseQuery plainHost (foldedOrdinal foldAsciiChar) (wide "sand ext:txt")
    let candidate : Candidate := ⟨wide "Sandbank.TXT", [], 0, 0, false, 0, 0, 0, 0, false, 0, false⟩
    query.acceptsView (foldedOrdinal foldAsciiChar) (candidate.borrowed true) =
      query.accepts candidate :=
  ((parse_views_agree_iff plainHost (unitWise_foldedOrdinal foldAsciiChar)
    (fun _ _ _ _ => Iff.rfl)).mpr keepsAsciiApart_foldAsciiChar (wide "sand ext:txt") _ true
      fun _ => by decide).1

/-- A host that compares the long s equal to the letter. -/
def longSFold (unit : UInt16) : UInt16 := if unit = 0x17F then 0x73 else foldAsciiChar unit

/-- A file named by a long s is found by `s` when it is borrowed, and not when it is owned. -/
theorem long_s_views_differ :
    UnitWise (foldedOrdinal longSFold) longSFold ∧ FoldsAscii longSFold ∧
      let query := parseQuery plainHost (foldedOrdinal longSFold) (wide "s")
      let candidate : Candidate := ⟨[0x17F], [], 0, 0, false, 0, 0, 0, 0, false, 0, false⟩
      query.acceptsView (foldedOrdinal longSFold) (candidate.borrowed false) = true ∧
        query.accepts candidate = false := by
  refine ⟨unitWise_foldedOrdinal longSFold, fun left right small small' => ?_, by decide +kernel,
    by decide +kernel⟩
  have plain : ∀ unit : UInt16, unit.toNat ≤ 0x7f → longSFold unit = foldAsciiChar unit := by
    intro unit small
    refine if_neg ?_
    rintro rfl
    exact absurd small (by decide)
  rw [plain left small, plain right small']

end FastFiles.Search
