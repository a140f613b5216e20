import Mathlib

/-!
# Enumeration by pages

A source answers a position with a page: some records, and possibly the position of the
next page.  `Yields c r` says that an enumeration from position `c` comes to the record
`r`.  `Covers sent c d` says that nothing an enumeration from `c` comes to is lost when
it is resumed from `d`, the records `sent` having been delivered already.
-/

namespace FastFiles.Paging

universe u v

variable {κ : Type u} {ρ : Type v} {records : κ → ρ → Prop} {next : κ → κ → Prop}

/-- The records an enumeration from a position comes to. -/
inductive Yields (records : κ → ρ → Prop) (next : κ → κ → Prop) : κ → ρ → Prop
  | here {c : κ} {r : ρ} : records c r → Yields records next c r
  | later {c d : κ} {r : ρ} : next c d → Yields records next d r → Yields records next c r

/-- Resuming at `d` loses nothing of the enumeration from `c`. -/
def Covers (records : κ → ρ → Prop) (next : κ → κ → Prop) (sent : Set ρ) (c d : κ) : Prop :=
  ∀ r, Yields records next c r → r ∈ sent ∨ Yields records next d r

namespace Covers

theorem refl (sent : Set ρ) (c : κ) : Covers records next sent c c := fun _ yields => .inr yields

theorem mono {sent sent' : Set ρ} {c d : κ} (covers : Covers records next sent c d)
    (sub : sent ⊆ sent') : Covers records next sent' c d :=
  fun r yields => (covers r yields).imp_left fun mem => sub mem

theorem trans {sent : Set ρ} {c d e : κ} (first : Covers records next sent c d)
    (second : Covers records next sent d e) : Covers records next sent c e :=
  fun r yields => (first r yields).elim Or.inl (second r)

end Covers

end FastFiles.Paging
