import Mathlib

/-!
# Append-only logs

`Each P log` says that every event of the log meets `P` together with what stood before
it.  Such a property never has to be looked at again once its event is in the log:
`Each.append` asks for the new event only.  A relation between an event and everything
after it is `List.Pairwise`, and `pairwise_append_singleton` is its append rule.

`foldl_redelivered` is for logs whose events overwrite: such a log may be delivered twice.
-/

namespace FastFiles.EventLog

universe u

variable {ε : Type u} {P : List ε → ε → Prop} {R : ε → ε → Prop} {log : List ε} {event : ε}

/-- Every event meets `P` with what stood before it. -/
def Each (P : List ε → ε → Prop) (log : List ε) : Prop :=
  ∀ before event after, log = before ++ event :: after → P before event

theorem Each.nil : Each P [] := by
  intro before event after split
  simp at split

theorem Each.append (each : Each P log) (new : P log event) : Each P (log ++ [event]) := by
  intro before found after split
  rcases List.eq_nil_or_concat after with rfl | ⟨init, last, rfl⟩
  · obtain ⟨rfl, same⟩ := List.append_inj' split rfl
    obtain rfl : event = found := List.cons.inj same |>.1
    exact new
  · rw [List.concat_eq_append, ← List.cons_append, ← List.append_assoc] at split
    exact each before found init (List.append_inj' split rfl).1

theorem pairwise_append_singleton (pairwise : log.Pairwise R) (new : ∀ old ∈ log, R old event) :
    (log ++ [event]).Pairwise R := by
  rw [List.pairwise_append]
  refine ⟨pairwise, List.pairwise_singleton R event, fun old mem last is => ?_⟩
  rw [List.mem_singleton.mp is]
  exact new old mem

section Redelivery

universe v

variable {σ : Type v} {step : σ → ε → σ}
  (carries : ∀ a b s t, step s a = step t a → step (step s b) a = step (step t b) a)

include carries

/-- States that an event makes equal, it makes equal after any log. -/
theorem step_foldl {a : ε} (log : List ε) {s t : σ} (same : step s a = step t a) :
    step (log.foldl step s) a = step (log.foldl step t) a := by
  induction log generalizing s t with
  | nil => exact same
  | cons b log ih => exact ih (carries a b s t same)

/-- **What a log has done is lost when it comes again.** -/
theorem foldl_redelivered (absorbs : ∀ s a, step (step s a) a = step s a)
    (log between : List ε) (s : σ) :
    (log ++ (between ++ log)).foldl step s = (between ++ log).foldl step s := by
  induction log generalizing between s with
  | nil => rfl
  | cons a log ih =>
    have first := step_foldl carries (log ++ between) (absorbs s a)
    have rest := ih (between ++ [a]) s
    simp only [List.foldl_append, List.foldl_cons, List.foldl_nil] at first rest ⊢
    rw [first, rest]

end Redelivery

end FastFiles.EventLog
