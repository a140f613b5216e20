import FastFiles.Search.Literal

/-!
# Volumes of paths

`CanonicalVolumeRoot` and `SameVolume` of `Path.cpp`.  What the C library's character tables
say of a letter is a parameter.
-/

namespace FastFiles.Search

open Index (Text backslash)

/-- `iswalpha` and `towupper`. -/
structure Locale where
  isAlpha : UInt16 → Bool
  toUpper : UInt16 → UInt16

def isSeparator (unit : UInt16) : Bool := unit == backslash || unit == 0x2f

/-- The start of an extended path: `\\?\`. -/
def extendedMark : Text := [backslash, backslash, 0x3f, backslash]

/-- The start of an extended share: `\\?\UNC\`. -/
def extendedUncMark : Text := extendedMark ++ [0x55, 0x4e, 0x43, backslash]

variable (ordinal : Ordinal) (locale : Locale) (path : Text)

/-- The letter of a drive path, with the length of its root. -/
def drivePath : Option (Nat × UInt16) :=
  match path with
  | letter :: 0x3a :: 0x5c :: _ =>
    if locale.isAlpha letter then some (3, locale.toUpper letter) else extended
  | _ => extended
where
  extended : Option (Nat × UInt16) :=
    if path.take 4 = extendedMark then
      match path.drop 4 with
      | [letter, 0x3a] => if locale.isAlpha letter then some (6, locale.toUpper letter) else none
      | letter :: 0x3a :: 0x5c :: _ =>
        if locale.isAlpha letter then some (7, locale.toUpper letter) else none
      | _ => none
    else none

/-- Where the share of a path ends, the server's name starting at `start`. -/
def shareBoundary (start : Nat) : Option Nat := do
  if path.length ≤ start then none
  else
    let server ← (path.drop start).findIdx? (· == backslash)
    let serverEnd := start + server
    if path.length ≤ serverEnd + 1 then none
    else
      match (path.drop (serverEnd + 1)).findIdx? (· == backslash) with
      | none => some path.length
      | some share => some (serverEnd + 1 + share)

def isExtendedUnc : Bool := path.take 8 == extendedUncMark

def isUnc : Bool :=
  path.take 2 == [backslash, backslash] && !isExtendedUnc path

/-- Separators at the end go, except from a text of one unit. -/
def trimTrailingSeparators : Text :=
  match path with
  | [] => []
  | first :: rest => first :: (rest.reverse.dropWhile isSeparator).reverse

def canonicalVolumeRoot : Text :=
  let value := trimTrailingSeparators path
  match drivePath locale value with
  | some (_, letter) => [letter, 0x3a]
  | none =>
    if isExtendedUnc value then
      match shareBoundary value 8 with
      | none => []
      | some boundary => [backslash, backslash] ++ (value.drop 8).take (boundary - 8)
    else if isUnc value then
      match shareBoundary value 2 with
      | none => []
      | some boundary => value.take boundary
    else value.takeWhile fun unit => !isSeparator unit

def sameVolume (left right : Text) : Bool :=
  let leftRoot := canonicalVolumeRoot locale left
  let rightRoot := canonicalVolumeRoot locale right
  if leftRoot.isEmpty || rightRoot.isEmpty then false else ordinal leftRoot rightRoot == .eq

end FastFiles.Search
