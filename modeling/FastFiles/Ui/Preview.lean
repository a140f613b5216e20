import FastFiles.Foundations.Transition

/-!
# Superseded previews

`PreviewController`: two workers, and calls of `Request` and `Clear`.  What is done under the mutex
is one step, and so are a read of the cancellation token and the start of the callback.  A request
and its token go by the number `Request` returns.
-/

namespace FastFiles.Ui

open Transition Function

inductive PreviewWorker where
  | waiting
  /-- In `CreatePreview` or the grace period. -/
  | rendering (request : Nat)
  /-- Behind the check under the mutex. -/
  | stillCurrent (request : Nat)
  /-- The token was read last when `requestId_` was `looked`, and was not set. -/
  | calling (request looked : Nat)
  | delivering
  deriving DecidableEq

/-- The request whose callback the worker may start. -/
def PreviewWorker.request : PreviewWorker → Option Nat
  | .waiting | .delivering => none
  | .rendering request | .stillCurrent request | .calling request _ => some request

/-- A start of the callback, with `requestId_` at the last read of the token and at the start. -/
structure Delivery where
  request : Nat
  looked : Nat
  began : Nat

structure PreviewController where
  requestId : Nat := 0
  cancellation : Option Nat := none
  cancelled : List Nat := []
  pendingWork : List Nat := []
  stopping : Bool := false
  workers : Bool → PreviewWorker := fun _ => .waiting
  /-- History: the starts of the callback. -/
  deliveries : List Delivery := []

inductive PreviewAction where
  | request
  | clear
  | destroy
  | take (w : Bool)
  | check (w : Bool)
  | load (w : Bool)
  | call (w : Bool)
  | finish (w : Bool)

namespace PreviewController

variable (c : PreviewController)

/-- A call that supersedes what was asked for. -/
def supersede (work : List Nat) : PreviewController :=
  { c with cancelled := c.cancellation.toList ++ c.cancelled, pendingWork := work }

def put (w : Bool) (worker : PreviewWorker) : PreviewController :=
  { c with workers := update c.workers w worker }

def step : PreviewAction → Option PreviewController
  | .request =>
    let id := c.requestId + 1
    some { c.supersede [id] with cancellation := some id, requestId := id }
  | .clear => some { c.supersede [] with requestId := c.requestId + 1 }
  | .destroy => some { c.supersede [] with stopping := true }
  | .take w =>
    match c.workers w, c.pendingWork with
    | .waiting, request :: rest =>
      if c.stopping then none else some { c.put w (.rendering request) with pendingWork := rest }
    | _, _ => none
  | .check w =>
    match c.workers w with
    | .rendering request =>
      some (c.put w (if c.stopping = false ∧ c.cancellation = some request ∧ c.requestId = request
        then .stillCurrent request else .waiting))
    | _ => none
  | .load w =>
    match c.workers w with
    | .stillCurrent request =>
      some (c.put w (if request ∈ c.cancelled then .waiting else .calling request c.requestId))
    | _ => none
  | .call w =>
    match c.workers w with
    | .calling request looked => some { c.put w .delivering with
        deliveries := ⟨request, looked, c.requestId⟩ :: c.deliveries }
    | _ => none
  | .finish w => if c.workers w = .delivering then some (c.put w .waiting) else none

/-- How often the callback of a request was or may yet be started. -/
def tally (request : Nat) : Nat :=
  c.pendingWork.count request + ((c.workers false).request.toList.count request +
    (c.workers true).request.toList.count request) + (c.deliveries.map (·.request)).count request

structure Sound (c : PreviewController) : Prop where
  once : ∀ request, c.tally request ≤ 1
  fresh : ∀ request, c.requestId < request → c.tally request = 0
  current : ∀ w request, c.workers w = .stillCurrent request →
    request ∈ c.cancelled ∨ (c.requestId = request ∧ c.cancellation = some request)
  looked : ∀ w request looked, c.workers w = .calling request looked → looked = request
  delivered : ∀ d ∈ c.deliveries, d.looked = d.request

variable {c c' : PreviewController}

theorem workers_put {w v : Bool} {worker found : PreviewWorker}
    (stands : (c.put w worker).workers v = found) : worker = found ∨ c.workers v = found := by
  by_cases same : v = w
  · subst same
    exact .inl ((update_self ..).symm.trans stands)
  · exact .inr ((update_of_ne same ..).symm.trans stands)

/-- A worker moves, and no request can be delivered more often than before. -/
theorem Sound.put (sound : c.Sound) {w : Bool} {worker : PreviewWorker} {pendingWork : List Nat}
    {deliveries : List Delivery}
    (fewer : ∀ request,
      tally { c.put w worker with pendingWork, deliveries } request ≤ c.tally request)
    (current : ∀ request, worker = .stillCurrent request →
      request ∈ c.cancelled ∨ (c.requestId = request ∧ c.cancellation = some request))
    (looked : ∀ request looked, worker = .calling request looked → looked = request)
    (delivered : ∀ d ∈ deliveries, d.looked = d.request) :
    Sound { c.put w worker with pendingWork, deliveries } where
  once request := (fewer request).trans (sound.once request)
  fresh request above := Nat.eq_zero_of_le_zero (sound.fresh request above ▸ fewer request)
  current v request stands := (workers_put stands).elim (current request) (sound.current v request)
  looked v request at_ stands :=
    (workers_put stands).elim (looked request at_) (sound.looked v request at_)
  delivered := delivered

/-- A call supersedes what was asked for, with the work it asks for itself. -/
theorem Sound.supersede (sound : c.Sound) {work : List Nat} {cancellation : Option Nat}
    {requestId : Nat} {stopping : Bool} (later : c.requestId ≤ requestId)
    (new : work = [] ∨ (work = [requestId] ∧ c.requestId < requestId)) :
    Sound { c.supersede work with cancellation, requestId, stopping } where
  once request := by
    have before := sound.once request
    have fresh := sound.fresh request
    unfold tally at before fresh ⊢
    obtain rfl | ⟨rfl, above⟩ := new <;> simp only [PreviewController.supersede] <;>
      simp only [List.count_nil, List.count_singleton, beq_iff_eq]
    · omega
    · split_ifs <;> omega
  fresh request above := by
    have fresh := sound.fresh request (later.trans_lt above)
    have other : work.count request = 0 := by
      obtain rfl | ⟨rfl, -⟩ := new
      · rfl
      · simpa [List.count_singleton] using above.ne
    unfold tally PreviewController.supersede at *
    dsimp only
    omega
  current w request stands := .inl (List.mem_append.mpr
    ((sound.current w request stands).symm.imp_left fun held => by simp [held.2]))
  looked := sound.looked
  delivered := sound.delivered

attribute [local simp] tally PreviewController.put PreviewWorker.request

theorem Sound.step (sound : c.Sound) {action : PreviewAction}
    (moved : c.step action = some c') : c'.Sound := by
  unfold PreviewController.step at moved
  cases action with
  | request =>
    cases moved
    exact sound.supersede (Nat.le_succ _) (.inr ⟨rfl, Nat.lt_succ_self _⟩)
  | clear =>
    cases moved
    exact sound.supersede (Nat.le_succ _) (.inl rfl)
  | destroy =>
    cases moved
    exact sound.supersede le_rfl (.inl rfl)
  | take w =>
    dsimp only at moved
    split at moved
    · rename_i stands work
      obtain ⟨-, same⟩ := Option.ite_none_left_eq_some.mp moved
      cases same
      refine sound.put (fun other => ?_) (by simp) (by simp) sound.delivered
      cases w <;> simp [stands, work, List.count_cons] <;> omega
    · cases moved
  | check w =>
    dsimp only at moved
    split at moved
    · rename_i stands
      cases moved
      refine sound.put (fun other => ?_) (fun other kept => ?_) ?_ sound.delivered
      · cases w <;> split_ifs <;> simp [stands]
      · split_ifs at kept with current
        cases kept
        exact .inr current.2.symm
      · split_ifs <;> simp
    · cases moved
  | load w =>
    dsimp only at moved
    split at moved
    · rename_i stands
      cases moved
      refine sound.put (fun other => ?_) ?_ (fun other at_ kept => ?_) sound.delivered
      · cases w <;> split_ifs <;> simp [stands]
      · split_ifs <;> simp
      · -- a call since the check would have set the token
        split_ifs at kept with unset
        cases kept
        exact ((sound.current w _ stands).resolve_left unset).1
    · cases moved
  | call w =>
    dsimp only at moved
    split at moved
    · rename_i stands
      cases moved
      refine sound.put (fun other => ?_) (by simp) (by simp)
        (List.forall_mem_cons.mpr ⟨sound.looked w _ _ stands, sound.delivered⟩)
      cases w <;> simp [stands, List.count_cons] <;> omega
    · cases moved
  | finish w =>
    obtain ⟨stands, rfl⟩ := of_guarded moved
    refine sound.put (fun other => ?_) (by simp) (by simp) sound.delivered
    cases w <;> simp [stands]

/-- **At most one callback for a request**, and it starts while the request is the current one
exactly if no call came between the worker's last read of the token and the start. -/
theorem preview_delivery (reach : Reachable step (· = {}) (fun _ _ => True) c) :
    (c.deliveries.map (·.request)).Nodup ∧
      ∀ d ∈ c.deliveries, d.began = d.request ↔ d.began = d.looked := by
  have sound : c.Sound := by
    refine reach.always ⟨?_, ?_, by simp, by simp, by simp⟩ Sound.step
    iterate 2 simp
  refine ⟨List.nodup_iff_count_le_one.mpr fun request => ?_, fun d mem => ?_⟩
  · exact (Nat.le_add_left _ _).trans (sound.once request)
  · rw [sound.delivered d mem]

/-- The second request is delivered, once and while it is the current one. -/
theorem preview_delivery_second :
    ∃ c : PreviewController, run step {} [.request, .take true, .request, .take false, .check true,
        .check false, .load false, .call false] = some c ∧
      (c.deliveries.map (·.request)).Nodup ∧ ∃ d ∈ c.deliveries, d.request = 2 ∧ d.began = d.request := by
  refine ⟨_, rfl, ?_⟩
  obtain ⟨once, current⟩ := preview_delivery (.of_run (.start rfl) (show run step {} [.request,
    .take true, .request, .take false, .check true, .check false, .load false, .call false] =
      some _ from rfl))
  exact ⟨once, ⟨2, 2, 2⟩, .head _, rfl, (current ⟨2, 2, 2⟩ (.head _)).mpr rfl⟩

/-- The first request's callback starts after the second request. -/
theorem superseded_preview_delivered :
    ∃ c d, Reachable step (· = {}) (fun _ _ => True) c ∧ d ∈ c.deliveries ∧
      d.request = 1 ∧ d.began = 2 :=
  ⟨_, ⟨1, 1, 2⟩, .of_run (.start rfl) (show run step {} [.request, .take true, .check true,
    .load true, .request, .call true] = some _ from rfl), .head _, rfl, rfl⟩

end PreviewController

end FastFiles.Ui
