import Mathlib

/-!
# Obligations and their holders

Work that has to be repeated until it succeeds.  Every attempt ends with a verdict:
`none` for success, or the kind of work that failed.  Kinds are ordered by how much
they stand for, so that two obligations are met together by their join.

* `owed` is what is owed after a list of verdicts, the latest first: the join of the
  failures since the last success.
* `Kept` says that the obligation is on record: while something is owed, exactly one
  of the places that may hold it does, and what is held there is at least what is
  owed.
* `Handover` lists the ways in which holders and verdicts may change together;
  `Kept.handover` says that each of them keeps the obligation on record.
-/

namespace FastFiles.Obligation

variable {κ : Type*} [SemilatticeSup κ]

/-- What is owed after the verdicts. -/
def owed : List (Option κ) → Option κ
  | [] => none
  | none :: _ => none
  | some kind :: earlier => some ((owed earlier).elim kind (kind ⊔ ·))

@[simp] theorem owed_success (earlier : List (Option κ)) : owed (none :: earlier) = none := rfl

/-- A bound for the new failure and for what was owed is a bound for what is owed. -/
theorem owed_failure_le {kind bound : κ} {earlier : List (Option κ)} (new : kind ≤ bound)
    (old : ∀ k, owed earlier = some k → k ≤ bound) {k : κ}
    (h : owed (some kind :: earlier) = some k) : k ≤ bound := by
  rw [owed, Option.some.injEq] at h
  subst h
  cases before : owed earlier with
  | none => exact new
  | some k => exact sup_le new (old k before)

/-- The obligation is on record. -/
structure Kept (holders : List κ) (verdicts : List (Option κ)) : Prop where
  single : holders.length ≤ 1
  held : ∀ kind, owed verdicts = some kind → ∃ holder, holders = [holder] ∧ kind ≤ holder

/-- The ways to pass an obligation on. -/
inductive Handover (holders : List κ) (verdicts : List (Option κ)) :
    List κ → List (Option κ) → Prop
  /-- Whoever held it holds it, or passed it on as it is. -/
  | keep : Handover holders verdicts holders verdicts
  /-- A new attempt takes it. -/
  | claim (kind : κ) : (∀ holder ∈ holders, holder ≤ kind) →
      Handover holders verdicts [kind] verdicts
  /-- An attempt fails and its next owner takes it. -/
  | fail (kind : κ) : (∀ holder ∈ holders, holder ≤ kind) →
      Handover holders verdicts [kind] (some kind :: verdicts)
  /-- An attempt succeeds. -/
  | succeed : Handover holders verdicts [] (none :: verdicts)

namespace Kept

variable {holders : List κ} {verdicts : List (Option κ)}

/-- Nothing more is owed than is held. -/
theorem le_of_bound (kept : Kept holders verdicts) {bound : κ}
    (bounds : ∀ holder ∈ holders, holder ≤ bound) {kind : κ} (h : owed verdicts = some kind) :
    kind ≤ bound := by
  obtain ⟨holder, rfl, le⟩ := kept.held kind h
  exact le.trans (bounds holder (.head _))

/-- **Every handover keeps the obligation on record.** -/
theorem handover (kept : Kept holders verdicts) {holders' : List κ}
    {verdicts' : List (Option κ)} (h : Handover holders verdicts holders' verdicts') :
    Kept holders' verdicts' := by
  cases h with
  | keep => exact kept
  | claim kind bounds =>
    refine ⟨Nat.le_refl 1, fun k hk => ⟨kind, rfl, ?_⟩⟩
    exact kept.le_of_bound bounds hk
  | fail kind bounds =>
    refine ⟨Nat.le_refl 1, fun k hk => ⟨kind, rfl, ?_⟩⟩
    exact owed_failure_le le_rfl (fun _ => kept.le_of_bound bounds) hk
  | succeed =>
    refine ⟨Nat.zero_le 1, fun k hk => ?_⟩
    rw [owed_success] at hk
    cases hk

end Kept

end FastFiles.Obligation
