import Mathlib

/-!
# Texts in UTF-16 units

Literals as a wide stream prints them.
-/

namespace FastFiles.WideText

/-- A literal, unit by unit. -/
def wide (text : String) : List UInt16 := text.toList.map fun c => c.toNat.toUInt16

end FastFiles.WideText
