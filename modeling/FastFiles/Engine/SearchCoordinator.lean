import FastFiles.Foundations.Transition

/-!
# Admission of searches

`SearchCoordinator`: `Acquire`, `Stop`, and the permits it hands out.  The mutex makes `Acquire` up
to its wait, and each wake-up of a waiter, one step.  A permit is an object that owns the
coordinator or, once it was moved from, does not; objects are given by their addresses.

A request that is not refused at once is numbered in the order of arrival.  Its callback asks a
token that another thread sets at any time and nobody clears, so `cancelled` only grows.

* `Sound` is the invariant over all schedules: counts, limits, the order of arrival, and that
  whoever left the queue without a permit was cancelled or found the coordinator stopping.
* `admission_bounded_and_fair` is the statement about every reachable state, with what happens
  when the first waiter looks at a free permit.
-/

namespace FastFiles.Engine

open Transition

structure SearchCoordinator where
  active : Nat := 0
  waiters : List Nat := []
  stopping : Bool := false
  /-- The requests whose callback reports a cancellation. -/
  cancelled : Finset Nat := ∅
  /-- The permits that own the coordinator. -/
  owners : Finset Nat := ∅
  /-- History: how many requests were numbered, who got a permit, in that order, and who left the
  queue without. -/
  arrivals : Nat := 0
  granted : List Nat := []
  left : List Nat := []

inductive AdmissionAction where
  /-- `Acquire` up to its wait; `permit` is where the result is put. -/
  | acquire (cancelled : Bool) (permit : Nat)
  /-- A waiter looks at its condition. -/
  | wake (waiter permit : Nat)
  /-- The token of a request is set. -/
  | cancel (request : Nat)
  | destroy (permit : Nat)
  | moveConstruct (source target : Nat)
  | moveAssign (source target : Nat)
  | stop

namespace SearchCoordinator

variable (maxActive maxQueued : Nat)

variable (c : SearchCoordinator)

/-- A permit for a numbered request. -/
def grant (request permit : Nat) : SearchCoordinator :=
  { c with active := c.active + 1, owners := insert permit c.owners
           granted := c.granted ++ [request] }

/-- `Acquire` before its wait: refused, admitted at once, or queued at the end. -/
def acquire (cancelled : Bool) (permit : Nat) : SearchCoordinator :=
  if c.stopping || cancelled then c
  else if c.active < maxActive ∧ c.waiters = [] then
    { c.grant c.arrivals permit with arrivals := c.arrivals + 1 }
  else if maxQueued ≤ c.waiters.length then c
  else { c with waiters := c.waiters ++ [c.arrivals], arrivals := c.arrivals + 1 }

/-- The body of the wait loop: only the first in the queue takes a permit. -/
def wake (waiter permit : Nat) : SearchCoordinator :=
  if c.stopping = true ∨ waiter ∈ c.cancelled then
    { c with waiters := c.waiters.erase waiter, left := c.left ++ [waiter] }
  else if c.waiters.head? = some waiter ∧ c.active < maxActive then
    { c.grant waiter permit with waiters := c.waiters.tail }
  else c

/-- A permit lets go of what it owns; the count stops at zero. -/
def release (permit : Nat) : SearchCoordinator :=
  if permit ∈ c.owners then { c with active := c.active - 1, owners := c.owners.erase permit } else c

/-- What the source owns, the target owns. -/
def move (source target : Nat) : SearchCoordinator :=
  if source ∈ c.owners then { c with owners := insert target (c.owners.erase source) } else c

def step : AdmissionAction → Option SearchCoordinator
  | .acquire cancelled permit =>
    if permit ∈ c.owners then none else some (c.acquire maxActive maxQueued cancelled permit)
  | .wake waiter permit =>
    if waiter ∈ c.waiters ∧ permit ∉ c.owners then some (c.wake maxActive waiter permit) else none
  | .cancel request => some { c with cancelled := insert request c.cancelled }
  | .destroy permit => some (c.release permit)
  | .moveConstruct source target =>
    if target ∈ c.owners then none else some (c.move source target)
  | .moveAssign source target =>
    some (if source = target then c else (c.release target).move source target)
  | .stop => some { c with stopping := true }

/-! ## The invariant -/

structure Sound (c : SearchCoordinator) : Prop where
  counted : c.owners.card = c.active
  bounded : c.active ≤ maxActive
  room : c.waiters.length ≤ maxQueued
  /-- Those who wait came after those who got a permit. -/
  ordered : (c.granted ++ c.waiters).Pairwise (· < ·)
  numbered : ∀ request, request < c.arrivals ↔
    request ∈ c.granted ++ c.waiters ∨ request ∈ c.left
  /-- Nobody is thrown out of the queue. -/
  excused : ∀ request ∈ c.left, request ∈ c.cancelled ∨ c.stopping = true

variable {maxActive maxQueued} {c c' : SearchCoordinator}

section

variable (sound : c.Sound maxActive maxQueued) {permit : Nat}

include sound

theorem Sound.acquire (cancelled : Bool) (free : permit ∉ c.owners) :
    (c.acquire maxActive maxQueued cancelled permit).Sound maxActive maxQueued := by
  have last : (c.granted ++ c.waiters ++ [c.arrivals]).Pairwise (· < ·) :=
    List.pairwise_append.mpr ⟨sound.ordered, List.pairwise_singleton _ _, fun request here _ new =>
      List.mem_singleton.mp new ▸ (sound.numbered request).mpr (.inl here)⟩
  have more (request : Nat) : request < c.arrivals + 1 ↔
      request ∈ c.granted ++ c.waiters ++ [c.arrivals] ∨ request ∈ c.left := by
    rw [Nat.lt_succ_iff_lt_or_eq, sound.numbered, List.mem_append (t := [_]), List.mem_singleton]
    tauto
  unfold SearchCoordinator.acquire
  split_ifs with ends direct full
  · exact sound
  · obtain ⟨below, empty⟩ := direct
    rw [empty, List.append_nil] at last more
    exact ⟨by simp [grant, free, sound.counted], below, by simp [grant, empty],
      by simpa [grant, empty] using last, by simpa [grant, empty] using more, sound.excused⟩
  · exact sound
  · rw [List.append_assoc] at last more
    exact ⟨sound.counted, sound.bounded, by simpa using Nat.lt_of_not_le full, last, more,
      sound.excused⟩

theorem Sound.wake {waiter : Nat} (waits : waiter ∈ c.waiters) (free : permit ∉ c.owners) :
    (c.wake maxActive waiter permit).Sound maxActive maxQueued := by
  unfold SearchCoordinator.wake
  split_ifs with ends first
  · refine ⟨sound.counted, sound.bounded, (List.length_erase_le).trans sound.room,
      sound.ordered.sublist ((List.erase_sublist).append_left _), fun request => ?_, ?_⟩
    have distinct : c.waiters.Nodup :=
      (List.pairwise_append.mp sound.ordered).2.1.imp Nat.ne_of_lt
    rw [sound.numbered]
    simp only [List.mem_append, distinct.mem_erase_iff, List.mem_singleton]
    by_cases same : request = waiter
    · simp [same, waits]
    · simp [same]
    · intro request gone
      rcases List.mem_append.mp gone with before | now
      · exact sound.excused request before
      · rw [List.mem_singleton.mp now]
        exact ends.symm
  · obtain ⟨head, below⟩ := first
    obtain ⟨rest, shape⟩ := List.head?_eq_some_iff.mp head
    have joined : (c.granted ++ [waiter]) ++ rest = c.granted ++ c.waiters := by simp [shape]
    refine ⟨by simp [grant, free, sound.counted], below, ?_, ?_, ?_, sound.excused⟩
    · exact (by simp [shape] : _ ≤ c.waiters.length).trans sound.room
    · simpa [grant, shape, joined] using sound.ordered
    · simpa [grant, shape, joined] using sound.numbered
  · exact sound

theorem Sound.release (permit : Nat) :
    (c.release permit).Sound maxActive maxQueued := by
  unfold SearchCoordinator.release
  split_ifs with owns
  · have less := Finset.card_erase_of_mem owns
    rw [sound.counted] at less
    exact { sound with counted := less, bounded := (Nat.sub_le _ _).trans sound.bounded }
  · exact sound

theorem Sound.move {source target : Nat}
    (free : target ∉ c.owners) : (c.move source target).Sound maxActive maxQueued := by
  unfold SearchCoordinator.move
  split_ifs with owns
  · have same : (insert target (c.owners.erase source)).card = c.owners.card := by
      rw [Finset.card_insert_of_notMem fun held => free (Finset.mem_of_mem_erase held),
        Finset.card_erase_add_one owns]
    exact { sound with counted := same.trans sound.counted }
  · exact sound

theorem Sound.step {action : AdmissionAction}
    (moved : c.step maxActive maxQueued action = some c') : c'.Sound maxActive maxQueued := by
  cases action with
  | acquire cancelled permit =>
    obtain ⟨free, same⟩ := Option.ite_none_left_eq_some.mp moved
    cases same
    exact sound.acquire cancelled free
  | wake waiter permit =>
    obtain ⟨⟨waits, free⟩, rfl⟩ := of_guarded moved
    exact sound.wake waits free
  | cancel request =>
    cases moved
    exact { sound with
      excused := fun other gone => (sound.excused other gone).imp_left Finset.mem_insert_of_mem }
  | destroy permit =>
    cases moved
    exact sound.release permit
  | moveConstruct source target =>
    obtain ⟨free, same⟩ := Option.ite_none_left_eq_some.mp moved
    cases same
    exact sound.move free
  | moveAssign source target =>
    cases moved
    split_ifs
    · exact sound
    · refine (sound.release target).move ?_
      unfold SearchCoordinator.release
      split_ifs with owns
      · exact Finset.notMem_erase target _
      · exact owns
  | stop =>
    cases moved
    exact { sound with excused := fun _ _ => .inr rfl }

end

/-- The first waiter takes a free permit, unless it was cancelled or the coordinator stops. -/
theorem wake_first {waiter permit : Nat} (first : c.waiters.head? = some waiter)
    (below : c.active < maxActive) (waits : waiter ∉ c.cancelled) (runs : c.stopping = false)
    (free : permit ∉ c.owners) :
    c.step maxActive maxQueued (.wake waiter permit) =
      some { c.grant waiter permit with waiters := c.waiters.tail } := by
  have queued : waiter ∈ c.waiters := List.mem_of_mem_head? first
  simp [step, wake, queued, free, runs, waits, first, below]

/-- **Admission is bounded and fair.**  Permits are given in the order of arrival; whoever came
before one with a permit has a permit, unless it was cancelled or the coordinator was stopped; and
the first in the queue gets a free permit when it looks. -/
theorem admission_bounded_and_fair
    (reach : Reachable (step maxActive maxQueued) (· = {}) (fun _ _ => True) c) :
    c.owners.card = c.active ∧ c.active ≤ maxActive ∧ c.waiters.length ≤ maxQueued ∧
      c.granted.Pairwise (· < ·) ∧
      (∀ earlier later, earlier < later → later ∈ c.granted →
        earlier ∈ c.granted ∨ earlier ∈ c.cancelled ∨ c.stopping = true) ∧
      ∀ waiter permit, c.waiters.head? = some waiter → c.active < maxActive →
        waiter ∉ c.cancelled → c.stopping = false → permit ∉ c.owners →
        ∃ c', c.step maxActive maxQueued (.wake waiter permit) = some c' ∧
          c'.granted = c.granted ++ [waiter] ∧ permit ∈ c'.owners ∧ c'.waiters = c.waiters.tail := by
  have sound : c.Sound maxActive maxQueued :=
    reach.always ⟨rfl, Nat.zero_le _, Nat.zero_le _, .nil, by simp, by simp⟩ Sound.step
  obtain ⟨ordered, -, apart⟩ := List.pairwise_append.mp sound.ordered
  refine ⟨sound.counted, sound.bounded, sound.room, ordered, fun earlier later before has => ?_,
    fun waiter permit first below waits runs free => ⟨_, wake_first first below waits runs free,
      rfl, Finset.mem_insert_self permit c.owners, rfl⟩⟩
  have known : later < c.arrivals := (sound.numbered later).mpr (.inl (List.mem_append_left _ has))
  obtain here | left := (sound.numbered earlier).mp (before.trans known)
  · obtain granted | waits := List.mem_append.mp here
    · exact .inl granted
    · exact absurd (apart later has earlier waits) before.asymm
  · exact .inr (sound.excused earlier left)

/-- One permit and two places to wait: of the two that queue behind the first, one is cancelled
and leaves, and the other one gets the permit once it is free. -/
theorem admission_bounded_and_fair_queued : ∃ c : SearchCoordinator,
    c.granted = [0, 2] ∧ c.owners.card = c.active ∧ c.active ≤ 1 ∧
      (1 ∈ c.granted ∨ 1 ∈ c.cancelled ∨ c.stopping = true) := by
  have reach : Reachable (step 1 2) (· = {}) (fun _ _ => True) _ := .of_run (.start rfl)
    (show run (step 1 2) {} [.acquire false 5, .acquire false 6, .acquire false 8, .cancel 1,
      .wake 1 6, .moveConstruct 5 7, .destroy 7] = some _ from rfl)
  obtain ⟨-, -, -, -, -, next⟩ := admission_bounded_and_fair reach
  obtain ⟨c, moved, granted, -, -⟩ := next 2 8 rfl (by decide) (by decide) rfl (by decide)
  obtain ⟨counted, bounded, -, -, ordered, -⟩ := admission_bounded_and_fair (reach.next trivial moved)
  exact ⟨c, granted, counted, bounded, ordered 1 2 (by decide) (granted ▸ by decide)⟩

end SearchCoordinator

end FastFiles.Engine
