import FastFiles.Foundations.Finding
import FastFiles.Foundations.WideText
import FastFiles.Search.Query

/-!
# Filter values

`ParseSizeFilter` and `ParseDateFilter`, and what their filters accept.

The C library's character tables and number readers and the calendar of the system are the
parameter `Host`; so is the clock.  Ticks are `uint64_t`, a day count is an `unsigned long` of
thirty-two bits.

A relative date filter `>Nd` accepts what is later than the last tick before the first of the last
`N` local days.  The guard of `ParseDateFilter` is one day and more too lax: a count that reaches
back to the first tick or before it passes, and the boundary wraps around (`day_boundary_wraps`).
For every count that stays behind the first tick the filters are what they should be
(`relative_date_filter_exact`).
-/

namespace FastFiles.Search

open Index (Text)
open WideText (wide)

/-! ## The host -/

structure SystemTime where
  year : UInt16
  month : UInt16
  dayOfWeek : UInt16
  day : UInt16
  hour : UInt16
  minute : UInt16
  second : UInt16
  milliseconds : UInt16
deriving DecidableEq

structure Host where
  toLower : UInt16 → UInt16
  toLower_ascii : ∀ unit : UInt16, unit.toNat ≤ 0x7f → toLower unit = foldAsciiChar unit
  isSpace : UInt16 → Bool
  isDigit : UInt16 → Bool
  wcstoul : Text → UInt32
  /-- `_wtoi`, cut to a word. -/
  wtoi : Text → UInt16
  currentFileTime : UInt64
  fileTimeToLocalFileTime : UInt64 → Option UInt64
  fileTimeToSystemTime : UInt64 → Option SystemTime
  systemTimeToFileTime : SystemTime → Option UInt64

namespace Host

variable (host : Host)

def lower (value : Text) : Text := value.map host.toLower

variable {value : Text}

theorem lower_of_ascii (ascii : isAscii value) : host.lower value = foldAscii16 value := by
  refine List.map_congr_left fun unit member => host.toLower_ascii unit ?_
  simpa using List.all_eq_true.mp ascii unit member

end Host

/-! ## Sizes -/

inductive SizeOp where
  | equal | greater | greaterEqual | less | lessEqual | range
deriving DecidableEq

structure SizeFilter where
  op : SizeOp
  first : UInt64
  second : UInt64 := 0
deriving DecidableEq

namespace SizeFilter

def accepts (filter : SizeFilter) (size : UInt64) : Bool :=
  match filter.op with
  | .equal => size = filter.first
  | .greater => filter.first < size
  | .greaterEqual => filter.first ≤ size
  | .less => size < filter.first
  | .lessEqual => size ≤ filter.first
  | .range => filter.first ≤ size && size ≤ filter.second

end SizeFilter

def maxUInt64 : Nat := 2 ^ 64 - 1

/-- The digits of a size; a number that does not fit is none.  The value of a digit is its distance
from `0`, as a `uint64_t`. -/
def readDecimal (digits : Text) : Option UInt64 :=
  digits.foldlM (fun value unit =>
    let digit : UInt64 := unit.toUInt64 - 0x30
    if (maxUInt64 - digit.toNat) / 10 < value.toNat then none else some (value * 10 + digit)) 0

def sizeMultiplier (unit : Text) : Option UInt64 :=
  if unit = wide "kb" then some 1024
  else if unit = wide "mb" then some (1024 * 1024)
  else if unit = wide "gb" then some (1024 * 1024 * 1024)
  else if unit ≠ [] ∧ unit ≠ wide "b" then none
  else some 1

section

variable (host : Host) (value : Text)

def parseSize (text : Text) : Option UInt64 := do
  let digits := text.takeWhile host.isDigit
  if digits.isEmpty then none
  let value ← readDecimal digits
  let multiplier ← sizeMultiplier (host.lower (text.drop digits.length))
  if maxUInt64 / multiplier.toNat < value.toNat then none else some (value * multiplier)

def parseSizeFilter : Option SizeFilter :=
  match Finding.find (wide "..") value with
  | some range => do
    let first ← parseSize host (value.take range)
    let second ← parseSize host (value.drop (range + 2))
    if second < first then none else some ⟨.range, first, second⟩
  | none =>
    let (op, offset) : SizeOp × Nat :=
      if (wide ">=").isPrefixOf value then (.greaterEqual, 2)
      else if (wide "<=").isPrefixOf value then (.lessEqual, 2)
      else if (wide ">").isPrefixOf value then (.greater, 1)
      else if (wide "<").isPrefixOf value then (.less, 1)
      else if (wide "=").isPrefixOf value then (.equal, 1)
      else (.equal, 0)
    (parseSize host (value.drop offset)).map fun size => ⟨op, size, 0⟩

/-! ## Dates -/

inductive DateOp where
  | equalDay | greaterThan | range
deriving DecidableEq

structure DateFilter where
  op : DateOp
  first : UInt64
  second : UInt64 := 0
deriving DecidableEq

namespace DateFilter

def accepts (filter : DateFilter) (time : UInt64) : Bool :=
  if filter.op = .greaterThan then filter.first < time
  else filter.first ≤ time && time ≤ filter.second

end DateFilter

/-- The ticks of a day. -/
def dayTicks : UInt64 := 864000000000

def parseDay : Option UInt64 :=
  if value.length ≠ 10 ∨ value.getD 4 0 ≠ 0x2D ∨ value.getD 7 0 ≠ 0x2D then none
  else if (value.take 4 ++ (value.drop 5).take 2 ++ value.drop 8).all host.isDigit then
    host.systemTimeToFileTime
      { year := host.wtoi (value.take 4), month := host.wtoi ((value.drop 5).take 2), dayOfWeek := 0
        day := host.wtoi (value.drop 8), hour := 0, minute := 0, second := 0, milliseconds := 0 }
  else none

/-- The start of the local day, or of the day if a conversion fails. -/
def localDayStart (now : UInt64) : UInt64 :=
  let converted := do
    let local_ ← (host.fileTimeToLocalFileTime now).bind host.fileTimeToSystemTime
    host.systemTimeToFileTime { local_ with hour := 0, minute := 0, second := 0, milliseconds := 0 }
  converted.getD (now - now % dayTicks)

/-- How many days before today the window of a day count starts. -/
def daysBack (days : UInt32) : UInt64 := if days = 0 then 0 else (days - 1).toUInt64

/-- The filter of `>Nd`. -/
def relativeDateFilter (dayStart : UInt64) (days : UInt32) : Option DateFilter :=
  if dayStart / dayTicks + 1 < daysBack days then none
  else some ⟨.greaterThan, dayStart - daysBack days * dayTicks - 1, 0⟩

/-- The digits of `>Nd`. -/
def relativeDigits : Text := (value.drop 1).dropLast

def parseDateFilter : Option DateFilter :=
  if host.lower value = wide "today" then
    let day := localDayStart host host.currentFileTime
    some ⟨.range, day, day + dayTicks - 1⟩
  else
    match Finding.find (wide "..") value with
    | some range => do
      let first ← parseDay host (value.take range)
      let second ← parseDay host (value.drop (range + 2))
      if second < first then none else some ⟨.range, first, second + dayTicks - 1⟩
    | none =>
      if (wide ">").isPrefixOf value && (wide "d").isSuffixOf value then
        let digits := relativeDigits value
        if digits.isEmpty || !digits.all host.isDigit then none
        else relativeDateFilter (localDayStart host host.currentFileTime) (host.wcstoul digits)
      else (parseDay host value).map fun day => ⟨.equalDay, day, day + dayTicks - 1⟩

/-! ## Relative dates -/

/-- The day count of `>Nd`. -/
def dayCount : UInt32 := host.wcstoul (relativeDigits value)

end

theorem toNat_daysBack (days : UInt32) : (daysBack days).toNat = days.toNat - 1 := by
  unfold daysBack
  split_ifs with none_
  · rw [none_]
    rfl
  · have positive : 1 ≤ days := by
      rw [UInt32.le_iff_toNat_le]
      exact Nat.one_le_iff_ne_zero.mpr fun zero => none_ (UInt32.toNat_inj.mp zero)
    rw [UInt32.toNat_toUInt64, UInt32.toNat_sub_of_le _ _ positive]
    rfl

variable {filter : DateFilter} {host : Host}

/-- Only the relative form compares with a single boundary. -/
theorem parseDateFilter_greaterThan (parsed : parseDateFilter host value = some filter)
    (relative : filter.op = .greaterThan) :
    relativeDateFilter (localDayStart host host.currentFileTime) (dayCount host value) =
      some filter := by
  unfold parseDateFilter at parsed
  by_cases today : host.lower value = wide "today"
  · rw [if_pos today] at parsed
    obtain rfl := Option.some.inj parsed
    exact absurd relative DateOp.noConfusion
  rw [if_neg today] at parsed
  split at parsed
  · obtain ⟨first, -, rest⟩ := Option.bind_eq_some_iff.mp parsed
    obtain ⟨second, -, rest⟩ := Option.bind_eq_some_iff.mp rest
    split_ifs at rest
    obtain rfl := Option.some.inj rest
    exact absurd relative DateOp.noConfusion
  · dsimp only at parsed
    split_ifs at parsed
    · exact parsed
    · obtain ⟨day, -, rfl⟩ := Option.map_eq_some_iff.mp parsed
      exact absurd relative DateOp.noConfusion

/-- The boundary of a relative filter, as long as it stays behind the first tick. -/
theorem toNat_boundary {dayStart back : UInt64}
    (behind : back.toNat * dayTicks.toNat < dayStart.toNat) :
    (dayStart - back * dayTicks - 1).toNat = dayStart.toNat - back.toNat * dayTicks.toNat - 1 := by
  have size := dayStart.toNat_lt
  have product : (back * dayTicks).toNat = back.toNat * dayTicks.toNat := by
    rw [UInt64.toNat_mul, Nat.mod_eq_of_lt (by omega)]
  have difference : (dayStart - back * dayTicks).toNat =
      dayStart.toNat - back.toNat * dayTicks.toNat := by
    rw [UInt64.toNat_sub_of_le, product]
    rw [UInt64.le_iff_toNat_le, product]
    omega
  rw [UInt64.toNat_sub_of_le, difference]
  · rfl
  · rw [UInt64.le_iff_toNat_le, difference]
    show 1 ≤ _
    omega

/-- A relative filter compares with the boundary of its day count. -/
theorem relativeDateFilter_eq_some {dayStart : UInt64} {days : UInt32}
    (done : relativeDateFilter dayStart days = some filter) :
    filter = ⟨.greaterThan, dayStart - daysBack days * dayTicks - 1, 0⟩ := by
  unfold relativeDateFilter at done
  split_ifs at done
  exact (Option.some.inj done).symm

/-- The first tick of today. -/
def today (host : Host) : UInt64 := localDayStart host host.currentFileTime

/-- How many ticks before today the window of a relative filter starts. -/
def reach (host : Host) (value : Text) : Nat :=
  ((dayCount host value).toNat - 1) * dayTicks.toNat

theorem reach_mono {value' : Text} (fewer : dayCount host value' ≤ dayCount host value) :
    reach host value' ≤ reach host value :=
  Nat.mul_le_mul_right _ (Nat.sub_le_sub_right (UInt32.le_iff_toNat_le.mp fewer) 1)

/-- A relative filter whose window starts behind the first tick. -/
theorem toNat_first (parsed : parseDateFilter host value = some filter)
    (relative : filter.op = .greaterThan) (behind : reach host value < (today host).toNat) :
    filter.first.toNat = (today host).toNat - reach host value - 1 := by
  obtain rfl := relativeDateFilter_eq_some (parseDateFilter_greaterThan parsed relative)
  have back := toNat_daysBack (dayCount host value)
  have window : (daysBack (dayCount host value)).toNat * dayTicks.toNat < (today host).toNat := by
    rwa [back]
  have boundary := toNat_boundary window
  rwa [back] at boundary

theorem accepts_eq_true_iff (relative : filter.op = .greaterThan) (time : UInt64) :
    filter.accepts time = true ↔ filter.first.toNat < time.toNat := by
  rw [DateFilter.accepts, if_pos relative, decide_eq_true_eq, UInt64.lt_iff_toNat_lt]

/-- **Relative date filters.**  The boundary of a filter is the day boundary exactly if its window
starts behind the first tick.  Then the filter rejects exactly the times up to that boundary, and
accepts all that a filter with a smaller day count accepts. -/
theorem relative_date_filter_exact {host : Host} {value : Text} {filter : DateFilter}
    (parsed : parseDateFilter host value = some filter) (relative : filter.op = .greaterThan) :
    ((filter.first.toNat : Int) = (today host).toNat - reach host value - 1 ↔
      reach host value < (today host).toNat) ∧
    (reach host value < (today host).toNat →
      (∀ time, filter.accepts time = false ↔
        time.toNat ≤ (today host).toNat - reach host value - 1) ∧
      ∀ value' filter', parseDateFilter host value' = some filter' → filter'.op = .greaterThan →
        dayCount host value' ≤ dayCount host value →
          ∀ time, filter'.accepts time = true → filter.accepts time = true) := by
  refine ⟨⟨fun exact_ => ?_, fun behind => ?_⟩, fun behind => ⟨fun time => ?_, ?_⟩⟩
  · have start := Int.natCast_nonneg filter.first.toNat
    omega
  · have boundary := toNat_first parsed relative behind
    omega
  · rw [← Bool.not_eq_true, accepts_eq_true_iff relative, Nat.not_lt, toNat_first parsed relative behind]
  · intro value' filter' parsed' relative' fewer time accepted
    have shorter := reach_mono fewer
    have boundary := toNat_first parsed relative behind
    have boundary' := toNat_first parsed' relative' (by omega)
    rw [accepts_eq_true_iff relative'] at accepted
    rw [accepts_eq_true_iff relative]
    omega

/-- A host without a calendar and with ASCII tables; its clock shows a day late in 2026. -/
def plainHost : Host where
  toLower := foldAsciiChar
  toLower_ascii _ _ := rfl
  isSpace unit := unit = 0x20
  isDigit unit := 0x30 ≤ unit.toNat && unit.toNat ≤ 0x39
  wcstoul text := .ofNat (text.foldl (fun value unit => value * 10 + (unit.toNat - 0x30)) 0)
  wtoi text := .ofNat (text.foldl (fun value unit => value * 10 + (unit.toNat - 0x30)) 0)
  currentFileTime := 155500 * dayTicks + 5
  fileTimeToLocalFileTime _ := none
  fileTimeToSystemTime _ := none
  systemTimeToFileTime _ := none

theorem relative_date_filter_exact_week :
    ∃ filter, parseDateFilter plainHost (wide ">7d") = some filter ∧
      (filter.first.toNat : Int) = (today plainHost).toNat - reach plainHost (wide ">7d") - 1 := by
  have parsed : parseDateFilter plainHost (wide ">7d") =
      some ⟨.greaterThan, 155494 * dayTicks - 1, 0⟩ := by
    decide +kernel
  exact ⟨_, parsed, (relative_date_filter_exact parsed rfl).1.mpr (by decide +kernel)⟩

/-- A window of as many days as the clock has counted accepts the present; one of a day more passes
the guard, and its boundary is behind every time. -/
theorem day_boundary_wraps :
    (parseDateFilter plainHost (wide ">155500d")).map (·.accepts plainHost.currentFileTime) =
      some true ∧
    parseDateFilter plainHost (wide ">155501d") =
      some ⟨.greaterThan, 0xFFFFFFFFFFFFFFFF, 0⟩ ∧
    (parseDateFilter plainHost (wide ">155501d")).map (·.accepts plainHost.currentFileTime) =
      some false := by
  decide +kernel

end FastFiles.Search
