import FastFiles.Foundations.StreamClient
import FastFiles.Manager.Traffic

/-!
# Worker traffic of a volume

A volume has two kinds of worker traffic with the service: scans and journal
openings.  Seen from outside, each is that of a client of a worker stream
(`FastFiles.WorkerStream.Client`): the unread frames, the running worker and the
requests the service has not read yet make up the stream, and the history holds the
ledger.  The batch the reader has in hand counts as unread until the store has
answered.

A `StreamView` says which frames, requests, workers and events belong to a kind of
traffic.  `StreamView.Refined` collects what has to be checked of the handlers and
of the service; `StreamView.Refined.step` concludes that every move of the system is
one step of the client, so that what the library proves about the client holds in
every reachable state.
-/

namespace FastFiles.Manager

open FastFiles.WorkerStream FastFiles.Transition VolumeState

/-! ## Views -/

/-- One kind of worker traffic. -/
structure StreamView where
  frameItem : Frame → Option Item
  requestItem : Request → Option Item
  workerItem : Option ScanWorker → Option JournalWorker → Option Item
  /-- The number of the next request, by the counts of attempts and openings. -/
  next : Nat → Nat → Nat
  requested : Event → Option (Nat × Nat)
  applied : Event → Option (Nat × Nat × Nat)
  lost : Event → Option Nat
  /-- The batch a task has in hand. -/
  inHand : Task → List Item
  silent : ∀ event, event.isTraffic = false →
    requested event = none ∧ applied event = none ∧ lost event = none
  plain : ∀ request, request.opens = false → requestItem request = none
  opens : ∀ request item, requestItem request = some item → item.Opens

variable (view : StreamView) (hand : List Item)

/-- The unread frames, the running worker and the unread requests. -/
def ServiceConnection.stream (service : ServiceConnection) : List Item :=
  service.frames.filterMap view.frameItem ++
    ((view.workerItem service.scanWorker service.journalWorker).toList ++
      service.requests.filterMap view.requestItem)

def Core.stream (c : Core) : List Item :=
  match c.service with
  | none => []
  | some service => service.stream view

/-- Stream and ledger behind the items in hand. -/
def Core.client (c : Core) : Client where
  items := hand ++ c.stream view
  next := view.next c.attempts c.openings
  requested := c.history.filterMap view.requested
  applied := c.history.filterMap view.applied
  lost := c.history.filterMap view.lost

/-- The traffic of the volume. -/
def VolumeState.client (s : VolumeState) : Client :=
  s.core.client view (view.inHand (s.threads .reader))

variable {view : StreamView}

/-! ## Sections without traffic -/

/-- An event outside the view leaves the ledger alone. -/
theorem Core.client_record {event : Event} (requested : view.requested event = none)
    (applied : view.applied event = none) (lost : view.lost event = none) (hand : List Item)
    (c : Core) : (c.record event).client view hand = c.client view hand := by
  simp [Core.client, Core.record, Core.stream, requested, applied, lost]

variable {c c' : Core}

theorem Core.SameTraffic.client (h : c.SameTraffic c') (hand : List Item) :
    c'.client view hand = c.client view hand := by
  have requested := h.filterMap fun event quiet => (view.silent event quiet).1
  have applied := h.filterMap fun event quiet => (view.silent event quiet).2.1
  have lost := h.filterMap fun event quiet => (view.silent event quiet).2.2
  simp [Core.client, Core.stream, h.service, h.attempts, h.openings, requested, applied, lost]

/-- Requests that open nothing leave the traffic alone. -/
theorem Core.Notifies.client (h : c.Notifies c') (hand : List Item) :
    c'.client view hand = c.client view hand := by
  obtain ⟨requests, plain, service⟩ := h.service
  -- the slice with the old connection has the same traffic as `c`
  have same : c.SameTraffic { c' with service := c.service } :=
    ⟨rfl, h.attempts, h.openings, h.events⟩
  have silent : requests.filterMap view.requestItem = [] :=
    List.filterMap_eq_nil_iff.mpr fun request hr => view.plain request (plain request hr)
  have stream : c'.stream view = c.stream view := by
    unfold Core.stream
    rw [service]
    cases c.service with
    | none => rfl
    | some service => simp [ServiceConnection.stream, silent]
  rw [← same.client hand]
  simp only [Core.client, stream]
  rfl

variable {request : Request}

/-- A request outside the view leaves the stream alone. -/
theorem Core.client_sendRequest (other : view.requestItem request = none)
    (delivered : Bool) (hand : List Item) (c : Core) :
    (c.sendRequest request delivered).client view hand = c.client view hand := by
  unfold Core.sendRequest
  split
  · cases hs : c.service with
    | none => simp [Core.client, Core.stream, hs]
    | some service => simp [Core.client, Core.stream, hs, ServiceConnection.stream, other]
  · rfl

/-! ## Requests -/

/-- A request written after the connection is gone never arrives. -/
theorem Core.client_sendRequest_some {item : Item}
    (h : view.requestItem request = some item) (delivered : Bool) (hand : List Item) (c : Core) :
    (c.sendRequest request delivered).client view hand =
      { c.client view hand with
        items := (c.client view hand).items ++
          if delivered && c.service.isSome then [item] else [] } := by
  unfold Core.sendRequest
  cases delivered with
  | false => simp [Core.client, Core.stream]
  | true =>
    cases hs : c.service with
    | none => simp [Core.client, Core.stream, hs]
    | some service => simp [Core.client, Core.stream, hs, ServiceConnection.stream, h]

variable {marked : Bool} {stop : Nat}

/-- A request of the view, recorded and sent, is a request of the client. -/
theorem Core.step_sendRequest {position : Nat} (delivered : Bool) (hand : List Item)
    (item : view.requestItem request = some (.pending (c.client view hand).next position))
    (counted : c'.client view hand = { c.client view hand with
      next := (c.client view hand).next + 1
      requested := ((c.client view hand).next, position) :: (c.client view hand).requested }) :
    ClientStep marked stop (c.client view hand)
      ((c'.sendRequest request delivered).client view hand) := by
  rw [Core.client_sendRequest_some item, counted]
  exact .request position (delivered && c'.service.isSome)

/-- Losing the connection discards the stream. -/
theorem Core.step_disconnect (c : Core) :
    ClientStep marked stop (c.client view hand) ({ c with service := none }.client view hand) := by
  have cut : hand ++ [] <+: hand ++ c.stream view :=
    (List.prefix_append_right_inj hand).mpr List.nil_prefix
  exact .disconnect cut

/-! ## Frames -/

variable {core : Core} {e : Nat} {frame : Frame}

/-- Taking a frame takes its item off the stream. -/
theorem Core.client_takeFrame {c : Core} (taken : c.takeFrame = some (e, frame, core)) :
    c.client view [] =
      { core.client view [] with
        items := (view.frameItem frame).toList ++ core.stream view } := by
  obtain ⟨service, frames, hs, rfl, hf, rfl⟩ := Core.takeFrame_eq_some taken
  cases item : view.frameItem frame <;>
    simp [Core.client, Core.stream, hs, hf, ServiceConnection.stream, Core.withService, item]

variable {s : VolumeState}

/-- What the reader will read next. -/
theorem VolumeState.client_items (idle : view.inHand .idle = []) (free : s.threads .reader = .idle)
    (taken : s.core.takeFrame = some (e, frame, core)) :
    (s.client view).items = (view.frameItem frame).toList ++ core.stream view := by
  rw [client, free, idle, Core.client_takeFrame taken]

/-! ## The service's moves -/

variable {service service' : ServiceConnection}

/-- A rewrite behind the frames and before the other requests is a move of the server. -/
theorem Core.served_withService {c : Core} (hs : c.service = some service) {old new : List Item}
    (rewrite : Rewrite marked stop old new) (requests : List Request)
    (before : service.stream view = service.frames.filterMap view.frameItem ++
      (old ++ requests.filterMap view.requestItem))
    (after : service'.stream view = service.frames.filterMap view.frameItem ++
      (new ++ requests.filterMap view.requestItem)) (hand : List Item) :
    Served marked stop (c.client view hand) ((c.withService service').client view hand) := by
  have opens : ∀ x ∈ requests.filterMap view.requestItem, x.Opens := by
    intro x hx
    obtain ⟨request, -, item⟩ := List.mem_filterMap.mp hx
    exact view.opens request x item
  have items : (c.client view hand).items = hand ++ service.stream view := by
    simp [Core.client, Core.stream, hs]
  have same : (c.withService service').client view hand =
      { c.client view hand with items := hand ++ service'.stream view } := rfl
  exact .inr ⟨hand ++ service'.stream view,
    ⟨hand ++ service.frames.filterMap view.frameItem, old, new,
      requests.filterMap view.requestItem, rewrite, opens,
      by rw [items, before, List.append_assoc], by rw [after, List.append_assoc]⟩, same⟩

/-- A change of the connection outside the view. -/
theorem Core.client_withService {c : Core}
    (hs : c.service = some service) (same : service'.stream view = service.stream view)
    (hand : List Item) : (c.withService service').client view hand = c.client view hand := by
  simp [Core.client, Core.stream, Core.withService, hs, same]

theorem Core.client_connectionActive (fresh : view.workerItem none none = none) {c : Core}
    (down : c.service = none) (e : Nat) (supports : Bool) (env : Env) (hand : List Item) :
    (c.connectionActive e supports env).client view hand = c.client view hand := by
  unfold Core.connectionActive
  dsimp only
  split
  · simp [Core.client, Core.stream, ServiceConnection.stream, down, fresh]
  · rw [(Core.Notifies.sendRequest rfl env.delivered _).client]
    simp [Core.client, Core.stream, ServiceConnection.stream, down, fresh]

variable {volume : Volume} {a : Action}

/-- The moves outside the service and the sections are no traffic. -/
theorem CoreMove.client (fresh : view.workerItem none none = none) (move : CoreMove volume s a core)
    (foreign : a.service = false) (hand : List Item) :
    core.client view hand = s.core.client view hand := by
  cases move with
  | reloadConfiguration entry env =>
    exact (s.core.reloadConfiguration_notifies entry env).client hand
  | lateStop => exact (Core.Notifies.sendRequest rfl true s.core).client hand
  | connectionActive e supports env _ down _ =>
    exact Core.client_connectionActive fresh down e supports env hand
  | setIndexingPaused _ | schedulerPostpone _ _ | journalGrow _ | journalRecreate _ _ => rfl
  | _ => cases foreign

/-! ## The refinement -/

/-- What has to be checked of the handlers and of the service. -/
structure StreamView.Refined (view : StreamView) (volume : Volume) (marked : Bool)
    (stop : Nat) : Prop where
  /-- The batch in hand is the reader's. -/
  reader : ∀ task, view.inHand task ≠ [] → task.thread = some .reader
  /-- No section but the reader's first one on a batch leaves a batch in hand. -/
  rest : ∀ task task', Task.Next task task' → view.inHand task' = []
  started : ∀ s t task, Started s t task → view.inHand task = []
  run : ∀ task, view.inHand task = [] → ∀ env hand (c : Core),
    ClientStep marked stop (c.client view hand) ((Task.run env c task).1.client view hand)
  /-- The answer of the store to the batch in hand. -/
  answer : ∀ task, view.inHand task ≠ [] → ∀ env (c : Core),
    ClientStep marked stop (c.client view (view.inHand task))
      ((Task.run env c task).1.client view [])
  receive : ∀ (c : Core) e frame core, c.takeFrame = some (e, frame, core) → ∀ env,
    ClientStep marked stop (c.client view [])
      ((frame.receive env e core).1.client view (view.inHand (frame.receive env e core).2))
  served : ∀ s a core, CoreMove volume s a core → ∀ hand,
    Served marked stop (s.core.client view hand) (core.client view hand)

theorem StreamView.Refined.idle
    (refined : view.Refined volume marked stop) : view.inHand .idle = [] := by
  by_contra held
  cases refined.reader _ held

/-- **Every move of the system is a step of the client.** -/
theorem StreamView.Refined.step (refined : view.Refined volume marked stop) {s' : VolumeState}
    (owned : s.Owned) (moved : Moved volume s a s') :
    ClientStep marked stop (s.client view) (s'.client view) := by
  cases moved with
  | run t env busy =>
    have next := refined.rest _ _ ((s.threads t).run_next env s.core)
    by_cases ht : t = .reader
    · subst ht
      rw [client, client, advance_threads_self, advance_core, next]
      by_cases free : view.inHand (s.threads .reader) = []
      · rw [free]
        exact refined.run _ free env [] s.core
      · exact refined.answer _ free env s.core
    · have other : view.inHand (s.threads t) = [] := by
        by_contra held
        exact ht (owned.reader (refined.reader _ held))
      rw [client, client, advance_core, advance_threads_of_ne (Ne.symm ht)]
      exact refined.run _ other env _ s.core
  | @deliver env e frame core free taken =>
    rw [client, client, advance_threads_self, advance_core, free, refined.idle]
    exact refined.receive _ e frame core taken env
  | @spawn a t result free spawned =>
    have same : s.client view = (s.advance t result).client view := by
      rw [client, client, advance_core, spawned.sameTraffic.client]
      by_cases ht : t = .reader
      · subst ht
        rw [advance_threads_self, refined.started _ _ _ spawned.started, free, refined.idle]
      · rw [advance_threads_of_ne (Ne.symm ht)]
    rw [← same]
    exact .stay
  | core move => exact (refined.served s a _ move _).step

theorem VolumeState.client_initial (journal : Journal) (stop : Nat)
    (idle : view.inHand .idle = []) : ((initial journal).client view).Sound stop := by
  have items : ((initial journal).client view).items = [] := by
    show view.inHand .idle ++ [] = []
    rw [idle]
    rfl
  exact {
    ordered := by rw [items]; exact .nil
    known := fun _ h => absurd (items ▸ h) List.not_mem_nil
    numbered := fun _ _ h => absurd h List.not_mem_nil
    lost_past := fun _ h => absurd h List.not_mem_nil
    progress := fun _ _ h => absurd h List.not_mem_nil }

end FastFiles.Manager
