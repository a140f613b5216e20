import Mathlib

/-!
# Guarded transition systems

A transition system here is a step function `σ → α → Option σ`: `none` means
that the action is not enabled.  A *guard* `ok : σ → α → Prop` restricts the
steps a run may take; `Reachable step init ok` is the set of states reached by
runs all of whose steps meet the guard, so an unrestricted run is the instance
`ok := fun _ _ => True`.

* `Reachable.invariant` is the one induction every safety result uses: a
  property that holds initially and is kept by every guarded step holds in every
  reachable state.
* `Reachable.of_run` and `Reachable.of_checked_run` turn a concrete list of actions
  into reachability; they are how a particular execution is exhibited.
* `Family` is the synchronous product of systems over one state type indexed by
  `ι`: in one step any set of components moves.  `Family.component` says that every
  component of a reachable family is a reachable component.
-/

namespace FastFiles.Transition

universe u v w

variable {σ : Type u} {α : Type v}

/-- Execute a list of actions from left to right. -/
def run (step : σ → α → Option σ) : σ → List α → Option σ
  | s, [] => some s
  | s, a :: as => (step s a).bind fun s' => run step s' as

/-- A step that was taken: its condition held. -/
theorem of_guarded {p : Prop} [Decidable p] {s t : σ}
    (taken : (if p then some s else none) = some t) : p ∧ s = t := by
  simpa using taken

/-- States reached by runs whose every step meets the guard `ok`. -/
inductive Reachable (step : σ → α → Option σ) (init : σ → Prop)
    (ok : σ → α → Prop) : σ → Prop
  | start {s : σ} : init s → Reachable step init ok s
  | next {s s' : σ} {a : α} :
      Reachable step init ok s → ok s a → step s a = some s' →
        Reachable step init ok s'

namespace Reachable

variable {step : σ → α → Option σ} {init : σ → Prop} {ok : σ → α → Prop}

/-- **The invariant rule.** -/
theorem invariant {Inv : σ → Prop} (base : ∀ s, init s → Inv s)
    (keep : ∀ s a s', Inv s → ok s a → step s a = some s' → Inv s')
    {s : σ} (reach : Reachable step init ok s) : Inv s := by
  induction reach with
  | start h => exact base _ h
  | next _ hok hstep ih => exact keep _ _ _ ih hok hstep

/-- The rule for one initial state and no guard. -/
theorem always {Inv : σ → Prop} {first s : σ}
    (reach : Reachable step (· = first) (fun _ _ => True) s) (base : Inv first)
    (keep : ∀ {s s'}, Inv s → ∀ {a}, step s a = some s' → Inv s') : Inv s :=
  reach.invariant (fun _ same => same ▸ base) fun _ _ _ holds _ moved => keep holds moved

/-- A run in which a decidable check of every step implies the side condition, given
an invariant that checked steps keep. -/
theorem of_checked_run {check : σ → α → Bool} {inv : σ → Prop}
    (sound : ∀ s a, inv s → check s a = true → ok s a)
    (keeps : ∀ s a s', inv s → check s a = true → step s a = some s' → inv s')
    {s t : σ} {as : List α} (reach : Reachable step init ok s) (holds : inv s)
    (exec : run (fun s a => if check s a then step s a else none) s as = some t) :
    Reachable step init ok t := by
  induction as generalizing s with
  | nil => cases exec; exact reach
  | cons a as ih =>
    rw [run, Option.bind_eq_some_iff] at exec
    obtain ⟨s', hstep, hrest⟩ := exec
    by_cases checked : check s a = true
    · rw [if_pos checked] at hstep
      exact ih (.next reach (sound s a holds checked) hstep) (keeps s a s' holds checked hstep)
        hrest
    · rw [if_neg checked] at hstep
      cases hstep

/-- An unguarded execution of a list of actions reaches its final state. -/
theorem of_run {s t : σ} {as : List α} (reach : Reachable step init (fun _ _ => True) s)
    (exec : run step s as = some t) : Reachable step init (fun _ _ => True) t :=
  @of_checked_run _ _ _ _ _ (fun _ _ => true) (fun _ => True) (fun _ _ _ _ => trivial)
    (fun _ _ _ _ _ _ => trivial) _ _ _ reach trivial exec

end Reachable

/-! ## Families of components -/

section Family

variable {ι : Type w}

/-- One step of a family: component `i` performs `acts i`, or stays where it is
when `acts i` is `none`. -/
def FamilyStep (step : ι → σ → α → Option σ) (s : ι → σ) (acts : ι → Option α)
    (s' : ι → σ) : Prop :=
  ∀ i, match acts i with
    | none => s' i = s i
    | some a => step i (s i) a = some (s' i)

/-- Reachable states of a family, every component step meeting the guard. -/
inductive Family (step : ι → σ → α → Option σ) (init : σ → Prop)
    (ok : σ → α → Prop) : (ι → σ) → Prop
  | start {s : ι → σ} : (∀ i, init (s i)) → Family step init ok s
  | next {s s' : ι → σ} {acts : ι → Option α} :
      Family step init ok s → (∀ i a, acts i = some a → ok (s i) a) →
        FamilyStep step s acts s' → Family step init ok s'

variable {step : ι → σ → α → Option σ} {init : σ → Prop} {ok : σ → α → Prop}

/-- **Every component of a reachable family is a reachable component.** -/
theorem Family.component {s : ι → σ} (reach : Family step init ok s) (i : ι) :
    Reachable (step i) init ok (s i) := by
  induction reach with
  | start h => exact .start (h i)
  | @next s s' acts _ hok hstep ih =>
    have hi := hstep i
    cases hact : acts i with
    | none =>
      rw [hact] at hi
      rw [hi]
      exact ih
    | some a =>
      rw [hact] at hi
      exact .next ih (hok i a hact) hi

/-- A reachable component is a component of a reachable family: the one whose
components all move in lockstep. -/
theorem Family.of_component {move : σ → α → Option σ} {c : σ} (reach : Reachable move init ok c) :
    Family (fun _ : ι => move) init ok (fun _ : ι => c) := by
  induction reach with
  | start h => exact .start fun _ => h
  | @next s s' a _ hok hstep ih =>
    have guard : ∀ (i : ι) (b : α), (fun _ : ι => some a) i = some b → ok s b := by
      intro _ b hb
      cases hb
      exact hok
    have moves : FamilyStep (fun _ : ι => move) (fun _ : ι => s) (fun _ => some a)
        fun _ => s' := fun _ => hstep
    exact .next ih guard moves

end Family

end FastFiles.Transition
