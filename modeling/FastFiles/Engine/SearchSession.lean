import FastFiles.Foundations.Transition

/-!
# Indexed searches over one connection

`EngineClient::RequestIndexedSearch` and `CancelIndexedSearch` on one side of a connection, the
reader of the connection and `IndexedSearchWorker` on the other, with the frames on their way in
both directions.  The client keeps a callback for every search; the engine keeps one search that is
active and one that is pending.

A search that arrives replaces the pending one and cancels the active one, and neither is
answered.  That is meant for a user who types on, but the search panel and the storage ranking
share one client: in `superseded_search_unanswered` the search of one of them takes the place of
the other's, whose callback never runs.  `callback_runs_once` shows that this is the only loss: if a
search arrives only when those in its way were cancelled, every search that was not cancelled has
its callback run exactly once.

A search is given by the identifier of its request.  Whether its request can be serialized, what
the handler reports and whether the response fits a frame is up to the environment.
-/

namespace FastFiles.Engine

/-! ## Messages -/

inductive IndexedSearchStatus where
  | completed
  | cancelled
  | unavailable
  | invalidRequest
  deriving DecidableEq

/-- What the client writes. -/
inductive SearchFrame where
  | search (requestId : Nat)
  | cancel (requestId : Nat)
  deriving DecidableEq

/-- What the engine answers, and what a callback is run with. -/
structure SearchResponse where
  requestId : Nat
  status : IndexedSearchStatus
  deriving DecidableEq

/-! ## The worker of a connection -/

/-- Where `IndexedSearchWorker` is with its task; `cancelled` is the token of the task.  The task is
the active one until its response is computed and the connection has let go of it. -/
inductive SearchWorker where
  | idle
  | acquiring (requestId : Nat) (cancelled : Bool)
  | executing (requestId : Nat) (cancelled : Bool)
  | responded (requestId : Nat) (status : IndexedSearchStatus) (cancelled : Bool)
  | writing (requestId : Nat) (status : IndexedSearchStatus) (cancelled : Bool)
  deriving DecidableEq

namespace SearchWorker

def requestId? : SearchWorker → Option Nat
  | idle => none
  | acquiring id _ => some id
  | executing id _ => some id
  | responded id _ _ => some id
  | writing id _ _ => some id

/-- `activeIndexedSearchRequestId_`. -/
def active? : SearchWorker → Option Nat
  | acquiring id _ => some id
  | executing id _ => some id
  | responded id _ _ => some id
  | _ => none

/-- The token of the active search is set. -/
def cancelActive : SearchWorker → SearchWorker
  | acquiring id _ => acquiring id true
  | executing id _ => executing id true
  | responded id status _ => responded id status true
  | other => other

/-- The worker will not answer its search. -/
def silenced : SearchWorker → Bool
  | idle => false
  | acquiring _ cancelled => cancelled
  | executing _ cancelled => cancelled
  | responded _ status cancelled => cancelled || status = .cancelled
  | writing _ status cancelled => cancelled || status = .cancelled

theorem requestId?_cancelActive (worker : SearchWorker) :
    worker.cancelActive.requestId? = worker.requestId? := by
  cases worker <;> rfl

/-- A worker that was told to cancel answers unless its search was the active one. -/
theorem silenced_cancelActive {worker : SearchWorker} {id : Nat} {cancelled : List Nat}
    (its : worker.cancelActive.requestId? = some id) (silent : worker.cancelActive.silenced = true)
    (before : worker.requestId? = some id → worker.silenced = true → id ∈ cancelled)
    (active : worker.active? = some id → id ∈ cancelled) : id ∈ cancelled := by
  cases worker with
  | idle => exact absurd its.symm (Option.some_ne_none _)
  | acquiring => exact active its
  | executing => exact active its
  | responded => exact active its
  | writing => exact before its silent

end SearchWorker

/-- What the worker meets in a step: whether it gets a permit and has a handler, what the handler
reports, and whether the response fits a frame. -/
structure WorkChoice where
  permitted : Bool := true
  status : IndexedSearchStatus := .completed
  fits : Bool := true

/-! ## The session -/

structure SearchSession where
  lastRequestId : Nat := 0
  indexedSearchCallbacks : List Nat := []
  /-- Frames that threads of the client are about to write. -/
  outbox : List SearchFrame := []
  /-- Frames on their way to the engine. -/
  wire : List SearchFrame := []
  pendingIndexedSearch : Option Nat := none
  worker : SearchWorker := .idle
  /-- Responses on their way to the client. -/
  responses : List SearchResponse := []
  /-- The searches that were requested. -/
  issued : List Nat := []
  /-- The searches for which a cancellation was requested. -/
  cancelled : List Nat := []
  /-- The callbacks that were run. -/
  ran : List SearchResponse := []
  deriving DecidableEq

inductive SearchAction where
  | search (serializable : Bool)
  /-- A request of another kind takes an identifier. -/
  | otherRequest
  | cancel (requestId : Nat)
  | write (frame : Nat)
  | receive
  | work (choice : WorkChoice)
  | deliver

namespace SearchSession

variable (s : SearchSession) (requestId : Nat)

/-- `RequestIndexedSearch` up to the write of its frame. -/
def requestIndexedSearch (serializable : Bool) : SearchSession :=
  let requestId := s.lastRequestId + 1
  if serializable then
    { s with
      lastRequestId := requestId
      issued := requestId :: s.issued
      indexedSearchCallbacks := requestId :: s.indexedSearchCallbacks
      outbox := s.outbox ++ [.search requestId] }
  else
    { s with
      lastRequestId := requestId
      issued := requestId :: s.issued
      ran := s.ran ++ [⟨requestId, .invalidRequest⟩] }

/-- `EngineClient::CancelIndexedSearch` up to the write of its frame. -/
def requestCancel : SearchSession :=
  if requestId = 0 then s
  else
    { s with
      cancelled := requestId :: s.cancelled
      indexedSearchCallbacks := s.indexedSearchCallbacks.filter (· ≠ requestId)
      outbox := s.outbox ++ [.cancel requestId] }

/-- `StartIndexedSearch`: the active search is cancelled and the pending one replaced. -/
def startIndexedSearch : SearchSession :=
  { s with worker := s.worker.cancelActive, pendingIndexedSearch := some requestId }

/-- `ClientConnection::CancelIndexedSearch`. -/
def cancelIndexedSearch : SearchSession :=
  if requestId = 0 then s
  else
    { s with
      pendingIndexedSearch := s.pendingIndexedSearch.filter (· ≠ requestId)
      worker := if s.worker.active? = some requestId then s.worker.cancelActive else s.worker }

/-- One step of `IndexedSearchWorker`. -/
def workStep (choice : WorkChoice) : Option SearchSession :=
  match s.worker with
  | .idle =>
    s.pendingIndexedSearch.map fun requestId =>
      { s with pendingIndexedSearch := none, worker := .acquiring requestId false }
  | .acquiring requestId cancelled =>
    some { s with
      worker :=
        if cancelled then .responded requestId .cancelled cancelled
        else if choice.permitted then .executing requestId cancelled
        else .responded requestId .unavailable cancelled }
  | .executing requestId cancelled =>
    some { s with worker := .responded requestId choice.status cancelled }
  | .responded requestId status cancelled =>
    some { s with worker := .writing requestId status cancelled }
  | .writing requestId status cancelled =>
    if cancelled || status = .cancelled then some { s with worker := .idle }
    else
      some { s with
        worker := .idle
        responses := s.responses ++
          [⟨requestId, if choice.fits then status else .unavailable⟩] }

def step : SearchAction → Option SearchSession
  | .search serializable => some (s.requestIndexedSearch serializable)
  | .otherRequest => some { s with lastRequestId := s.lastRequestId + 1 }
  | .cancel requestId => some (s.requestCancel requestId)
  | .write i =>
    s.outbox[i]?.map fun frame =>
      { s with outbox := s.outbox.eraseIdx i, wire := s.wire ++ [frame] }
  | .receive =>
    match s.wire with
    | [] => none
    | .search requestId :: rest => some ({ s with wire := rest }.startIndexedSearch requestId)
    | .cancel requestId :: rest => some ({ s with wire := rest }.cancelIndexedSearch requestId)
  | .work choice => s.workStep choice
  | .deliver =>
    match s.responses with
    | [] => none
    | response :: rest =>
      if response.requestId ∈ s.indexedSearchCallbacks then
        some { s with
          responses := rest
          indexedSearchCallbacks :=
            s.indexedSearchCallbacks.filter (· ≠ response.requestId)
          ran := s.ran ++ [response] }
      else some { s with responses := rest }

/-- The worker is idle, nothing is pending and nothing is on its way. -/
def Settled : Prop :=
  s.worker = .idle ∧ s.pendingIndexedSearch = none ∧ s.outbox = [] ∧ s.wire = [] ∧ s.responses = []

instance (s : SearchSession) : Decidable s.Settled :=
  inferInstanceAs (Decidable (_ ∧ _ ∧ _ ∧ _ ∧ _))

/-- How often the callback of a search was run. -/
def runs : Nat :=
  s.ran.countP (·.requestId = requestId)

/-- A search that arrives finds only searches in its way that were cancelled, and the handler
reports a cancellation only if there was one. -/
def careful : SearchAction → Bool
  | .receive =>
    match s.wire with
    | .search _ :: _ =>
      s.pendingIndexedSearch.all (· ∈ s.cancelled) && s.worker.active?.all (· ∈ s.cancelled)
    | _ => true
  | .work choice =>
    match s.worker with
    | .executing _ cancelled => choice.status ≠ .cancelled || cancelled
    | _ => true
  | _ => true

/-! ## Where a search is -/

/-- The places in which a search is found: a frame on its way, the pending search, the worker, a
response on its way or a callback that was run. -/
def places : Nat :=
  s.outbox.count (.search requestId) + s.wire.count (.search requestId) +
    s.pendingIndexedSearch.toList.count requestId + s.worker.requestId?.toList.count requestId +
    s.responses.countP (·.requestId = requestId) + s.runs requestId

structure Sound (s : SearchSession) : Prop where
  known : ∀ id ∈ s.issued, id ≤ s.lastRequestId
  once : ∀ id ∉ s.cancelled, s.places id = if id ∈ s.issued then 1 else 0
  waiting : ∀ id ∈ s.issued, id ∉ s.cancelled → s.runs id = 0 → id ∈ s.indexedSearchCallbacks
  requested : ∀ id, .cancel id ∈ s.outbox ∨ .cancel id ∈ s.wire → id ∈ s.cancelled
  silenced : ∀ id, s.worker.requestId? = some id → s.worker.silenced = true → id ∈ s.cancelled

theorem sound_initial : Sound {} where
  known := fun _ member => absurd member List.not_mem_nil
  once := fun _ _ => rfl
  waiting := fun _ member => absurd member List.not_mem_nil
  requested := fun _ among => absurd (among.elim id id) List.not_mem_nil
  silenced := fun _ its => absurd its.symm (Option.some_ne_none _)

/-- The client and what is recorded about it are the same. -/
structure SameClient (s s' : SearchSession) : Prop where
  lastRequestId : s'.lastRequestId = s.lastRequestId
  indexedSearchCallbacks : s'.indexedSearchCallbacks = s.indexedSearchCallbacks
  issued : s'.issued = s.issued
  cancelled : s'.cancelled = s.cancelled
  ran : s'.ran = s.ran

variable {s s' : SearchSession}

/-- A step that leaves the client alone has to keep every search that was not cancelled. -/
theorem Sound.of_client (sound : s.Sound) (client : SameClient s s')
    (places : ∀ id ∉ s.cancelled, s'.places id = s.places id)
    (requested : ∀ id, .cancel id ∈ s'.outbox ∨ .cancel id ∈ s'.wire → id ∈ s.cancelled)
    (silenced : ∀ id, s'.worker.requestId? = some id → s'.worker.silenced = true →
      id ∈ s.cancelled) : s'.Sound where
  known := by
    rw [client.issued, client.lastRequestId]
    exact sound.known
  once := by
    rw [client.issued, client.cancelled]
    intro id kept
    exact (places id kept).trans (sound.once id kept)
  waiting := by
    simp only [runs, client.issued, client.cancelled, client.ran, client.indexedSearchCallbacks]
    exact sound.waiting
  requested := by
    rw [client.cancelled]
    exact requested
  silenced := by
    rw [client.cancelled]
    exact silenced

theorem count_filter_ne (o : Option Nat) {id other : Nat} (different : id ≠ other) :
    (o.filter (· ≠ other)).toList.count id = o.toList.count id := by
  cases o with
  | none => rfl
  | some held =>
    by_cases same : held = other
    · subst same
      rw [Option.filter_some_neg (by simp), Option.toList_none, Option.toList_some,
        List.count_nil, List.count_eq_zero.mpr (by simpa using different)]
    · rw [Option.filter_some_pos (by simpa using same)]

namespace Sound

/-- The next identifier is new. -/
theorem next_fresh {s : SearchSession} (sound : s.Sound) : s.lastRequestId + 1 ∉ s.issued := by
  intro member
  have bounded := sound.known _ member
  omega

/-! ## Steps of the client -/

theorem requestIndexedSearch {s : SearchSession} (sound : s.Sound) (serializable : Bool) :
    (s.requestIndexedSearch serializable).Sound := by
  have known : ∀ id ∈ (s.lastRequestId + 1) :: s.issued, id ≤ s.lastRequestId + 1 := by
    intro id member
    rcases List.mem_cons.mp member with rfl | old
    · exact le_rfl
    · exact Nat.le_succ_of_le (sound.known id old)
  -- the new search is in one place more than before, and every other in as many
  have once : ∀ id ∉ s.cancelled, s.places id + (if s.lastRequestId + 1 = id then 1 else 0) =
      if id ∈ (s.lastRequestId + 1) :: s.issued then 1 else 0 := by
    intro id kept
    rw [sound.once id kept]
    by_cases new : s.lastRequestId + 1 = id
    · subst new
      rw [if_neg sound.next_fresh, if_pos rfl, if_pos List.mem_cons_self]
    · have same : id ∈ (s.lastRequestId + 1) :: s.issued ↔ id ∈ s.issued :=
        List.mem_cons.trans (or_iff_right (Ne.symm new))
      rw [if_neg new, Nat.add_zero]
      simp [same]
  cases serializable with
  | true =>
    refine ⟨known, fun id kept => ?_, fun id member kept quiet => ?_, fun id among => ?_,
      sound.silenced⟩
    · refine Eq.trans ?_ (once id kept)
      simp only [places, runs, SearchSession.requestIndexedSearch, if_true, List.count_append,
        List.count_singleton, beq_iff_eq, SearchFrame.search.injEq]
      omega
    · rcases List.mem_cons.mp member with rfl | old
      · exact .head _
      · exact .tail _ (sound.waiting id old kept quiet)
    · refine sound.requested id (among.imp_left fun member => ?_)
      rcases List.mem_append.mp member with old | new
      · exact old
      · exact absurd (List.mem_singleton.mp new) SearchFrame.noConfusion
  | false =>
    refine ⟨known, fun id kept => ?_, fun id member kept quiet => ?_, sound.requested,
      sound.silenced⟩
    · refine Eq.trans ?_ (once id kept)
      simp only [places, runs, SearchSession.requestIndexedSearch, Bool.false_eq_true, if_false,
        List.countP_append, List.countP_singleton, decide_eq_true_eq]
      omega
    · simp only [runs, SearchSession.requestIndexedSearch, Bool.false_eq_true, if_false,
        List.countP_append, List.countP_singleton, decide_eq_true_eq, Nat.add_eq_zero_iff,
        ite_eq_right_iff, Nat.one_ne_zero, imp_false] at quiet
      rcases List.mem_cons.mp member with rfl | old
      · exact absurd rfl quiet.2
      · exact sound.waiting id old kept quiet.1

theorem requestCancel {s : SearchSession} (sound : s.Sound) (requestId : Nat) :
    (s.requestCancel requestId).Sound := by
  rw [SearchSession.requestCancel]
  split_ifs with zero
  · exact sound
  refine ⟨sound.known, fun id kept => ?_, fun id member kept quiet => ?_, fun id among => ?_,
    fun id its silent => .tail _ (sound.silenced id its silent)⟩
  · refine Eq.trans ?_ (sound.once id fun old => kept (.tail _ old))
    simp [places, runs]
  · have other : id ≠ requestId := fun same => kept (same ▸ (.head _))
    refine List.mem_filter.mpr ⟨?_, decide_eq_true other⟩
    exact sound.waiting id member (fun old => kept (.tail _ old)) quiet
  · rcases among with written | wired
    · rcases List.mem_append.mp written with old | new
      · exact .tail _ (sound.requested id (.inl old))
      · obtain rfl := SearchFrame.cancel.inj (List.mem_singleton.mp new)
        exact .head _
    · exact .tail _ (sound.requested id (.inr wired))

/-- A search whose response is on its way has not been run, so its callback is still there. -/
theorem callback_mem {s : SearchSession} {response : SearchResponse} (sound : s.Sound)
    (among : response ∈ s.responses) (kept : response.requestId ∉ s.cancelled) :
    response.requestId ∈ s.indexedSearchCallbacks := by
  have once := sound.once _ kept
  have here : 0 < s.responses.countP (·.requestId = response.requestId) :=
    List.countP_pos_iff.mpr ⟨response, among, decide_eq_true rfl⟩
  unfold places at once
  split_ifs at once with issued
  · exact sound.waiting _ issued kept (by omega)
  · omega

variable (sound : s.Sound)

include sound

theorem deliver (stepped : s.step .deliver = some s') : s'.Sound := by
  cases arrived : s.responses with
  | nil =>
    simp only [step, arrived] at stepped
    exact absurd stepped.symm (Option.some_ne_none _)
  | cons response rest =>
    have first : response ∈ s.responses := arrived ▸ (.head _)
    simp only [step, arrived] at stepped
    split_ifs at stepped with present
    · obtain rfl := Option.some.inj stepped
      refine ⟨sound.known, fun id kept => ?_, fun id member kept quiet => ?_, sound.requested,
        sound.silenced⟩
      · refine Eq.trans ?_ (sound.once id kept)
        simp only [places, runs, arrived, List.countP_append, List.countP_cons, List.countP_nil]
        omega
      · simp only [runs, List.countP_append, List.countP_singleton, decide_eq_true_eq,
          Nat.add_eq_zero_iff, ite_eq_right_iff, Nat.one_ne_zero, imp_false] at quiet
        refine List.mem_filter.mpr ⟨sound.waiting id member kept quiet.1, ?_⟩
        exact decide_eq_true (Ne.symm quiet.2)
    · obtain rfl := Option.some.inj stepped
      refine sound.of_client ⟨rfl, rfl, rfl, rfl, rfl⟩ (fun id kept => ?_)
        sound.requested sound.silenced
      -- a response without a callback is one for a search that was cancelled
      have other : response.requestId ≠ id := by
        rintro rfl
        exact present (sound.callback_mem first kept)
      simp only [places, runs, arrived, List.countP_cons, decide_eq_true_eq, if_neg other,
        Nat.add_zero]

/-! ## Steps of the engine -/

theorem write {i : Nat} (stepped : s.step (.write i) = some s') : s'.Sound := by
  obtain ⟨frame, here, rfl⟩ := Option.map_eq_some_iff.mp stepped
  obtain ⟨bound, rfl⟩ := List.getElem?_eq_some_iff.mp here
  have taken := List.getElem_cons_eraseIdx_perm bound
  refine sound.of_client ⟨rfl, rfl, rfl, rfl, rfl⟩ (fun id _ => ?_) (fun id among => ?_)
    sound.silenced
  · have counted := taken.count_eq (.search id)
    rw [List.count_cons] at counted
    simp only [places, runs, List.count_append, List.count_singleton]
    omega
  · refine sound.requested id ?_
    rcases among with kept | wired
    · exact .inl (List.mem_of_mem_eraseIdx kept)
    · rcases List.mem_append.mp wired with old | new
      · exact .inr old
      · rw [List.mem_singleton.mp new]
        exact .inl (List.getElem_mem bound)

/-- The searches in the way of one that arrives were cancelled. -/
theorem startIndexedSearch {requestId : Nat} {rest : List SearchFrame}
    (arrived : s.wire = .search requestId :: rest)
    (pending : ∀ id, s.pendingIndexedSearch = some id → id ∈ s.cancelled)
    (active : ∀ id, s.worker.active? = some id → id ∈ s.cancelled)
    (started : s' = { s with wire := rest }.startIndexedSearch requestId) : s'.Sound := by
  subst started
  refine sound.of_client ⟨rfl, rfl, rfl, rfl, rfl⟩ (fun id kept => ?_)
    (fun id among => ?_) (fun id its silent => ?_)
  · have none : s.pendingIndexedSearch.toList.count id = 0 := by
      refine List.count_eq_zero.mpr fun member => kept (pending id ?_)
      exact Option.mem_toList.mp member
    have same : s.worker.cancelActive.requestId? = s.worker.requestId? :=
      SearchWorker.requestId?_cancelActive s.worker
    simp only [places, runs, SearchSession.startIndexedSearch, arrived, List.count_cons,
      beq_iff_eq, SearchFrame.search.injEq, same, none, Option.toList_some, List.count_nil]
    omega
  · exact sound.requested id (among.imp_right fun wired => arrived ▸ List.mem_cons_of_mem _ wired)
  · exact SearchWorker.silenced_cancelActive its silent (sound.silenced id) (active id)

theorem cancelIndexedSearch {requestId : Nat} {rest : List SearchFrame}
    (arrived : s.wire = .cancel requestId :: rest)
    (done : s' = { s with wire := rest }.cancelIndexedSearch requestId) : s'.Sound := by
  subst done
  have asked : requestId ∈ s.cancelled := by
    refine sound.requested requestId (.inr ?_)
    rw [arrived]
    exact .head _
  have requested : ∀ id, .cancel id ∈ s.outbox ∨ .cancel id ∈ rest → id ∈ s.cancelled := by
    intro id among
    exact sound.requested id (among.imp_right fun wired => arrived ▸ List.mem_cons_of_mem _ wired)
  have wired : ∀ id, s.wire.count (.search id) = rest.count (.search id) := by
    intro id
    rw [arrived, List.count_cons_of_ne SearchFrame.noConfusion]
  by_cases zero : requestId = 0
  · rw [SearchSession.cancelIndexedSearch, if_pos zero]
    refine sound.of_client ⟨rfl, rfl, rfl, rfl, rfl⟩ (fun id _ => ?_) requested
      sound.silenced
    simp only [places, runs, wired id]
  · rw [SearchSession.cancelIndexedSearch, if_neg zero]
    refine sound.of_client ⟨rfl, rfl, rfl, rfl, rfl⟩ (fun id kept => ?_) requested
      (fun id its silent => ?_)
    · have other : id ≠ requestId := fun same => kept (same ▸ asked)
      have pending := count_filter_ne s.pendingIndexedSearch other
      have worker : (if s.worker.active? = some requestId then s.worker.cancelActive
          else s.worker).requestId? = s.worker.requestId? := by
        split_ifs
        · exact s.worker.requestId?_cancelActive
        · rfl
      simp only [places, runs, wired id, pending, worker]
    · dsimp only at its silent
      split_ifs at its silent with current
      · refine SearchWorker.silenced_cancelActive its silent (sound.silenced id) fun mine => ?_
        rw [Option.some.inj (mine.symm.trans current)]
        exact asked
      · exact sound.silenced id its silent

theorem receive (guarded : s.careful .receive = true) (stepped : s.step .receive = some s') :
    s'.Sound := by
  match arrived : s.wire with
  | [] =>
    simp only [step, arrived] at stepped
    exact absurd stepped.symm (Option.some_ne_none _)
  | .search requestId :: rest =>
    simp only [step, arrived] at stepped
    simp only [careful, arrived, Bool.and_eq_true, Option.all_eq_true, decide_eq_true_eq]
      at guarded
    exact sound.startIndexedSearch arrived guarded.1 guarded.2 (Option.some.inj stepped).symm
  | .cancel requestId :: rest =>
    simp only [step, arrived] at stepped
    exact sound.cancelIndexedSearch arrived (Option.some.inj stepped).symm

/-! ## Steps of the worker -/

/-- The worker goes on with its search. -/
theorem proceed {worker : SearchWorker}
    (same : worker.requestId? = s.worker.requestId?)
    (silent : worker.silenced = true → s.worker.silenced = true) :
    Sound { s with worker := worker } := by
  refine sound.of_client ⟨rfl, rfl, rfl, rfl, rfl⟩ (fun id _ => ?_) sound.requested
    (fun id its quiet => sound.silenced id (same ▸ its) (silent quiet))
  simp [places, runs, same]

theorem work {choice : WorkChoice} (guarded : s.careful (.work choice) = true)
    (stepped : s.step (.work choice) = some s') : s'.Sound := by
  simp only [step, workStep] at stepped
  match working : s.worker with
  | .idle =>
    simp only [working] at stepped
    obtain ⟨requestId, pending, rfl⟩ := Option.map_eq_some_iff.mp stepped
    refine sound.of_client ⟨rfl, rfl, rfl, rfl, rfl⟩ (fun id _ => ?_)
      sound.requested (fun id _ silent => absurd silent Bool.false_ne_true)
    simp only [places, runs, working, pending, SearchWorker.requestId?, Option.toList_some,
      Option.toList_none, List.count_nil]
    omega
  | .acquiring requestId cancelled =>
    simp only [working] at stepped
    obtain rfl := Option.some.inj stepped
    refine sound.proceed ?_ fun silent => ?_
    · rw [working]
      split_ifs <;> rfl
    · rw [working]
      split_ifs at silent with flagged permitted
      · exact flagged
      · exact silent
      · simpa [SearchWorker.silenced] using silent
  | .executing requestId cancelled =>
    simp only [working] at stepped
    simp only [careful, working, Bool.or_eq_true, decide_eq_true_eq] at guarded
    obtain rfl := Option.some.inj stepped
    refine sound.proceed (by rw [working]; rfl) fun silent => ?_
    rw [working]
    rcases Bool.or_eq_true_iff.mp silent with flagged | reported
    · exact flagged
    · exact guarded.resolve_left (not_not_intro (of_decide_eq_true reported))
  | .responded requestId status cancelled =>
    simp only [working] at stepped
    obtain rfl := Option.some.inj stepped
    exact sound.proceed (by rw [working]; rfl) fun silent => by rw [working]; exact silent
  | .writing requestId status cancelled =>
    have silenced := sound.silenced requestId (by rw [working]; rfl)
    simp only [working, SearchWorker.silenced] at stepped silenced
    by_cases dropped : (cancelled || status = .cancelled) = true
    · rw [if_pos dropped] at stepped
      obtain rfl := Option.some.inj stepped
      refine sound.of_client ⟨rfl, rfl, rfl, rfl, rfl⟩ (fun id kept => ?_)
        sound.requested (fun id its _ => absurd its.symm (Option.some_ne_none _))
      -- the worker drops a search that was cancelled, and no other
      have other : requestId ≠ id := fun same => kept (same ▸ silenced dropped)
      simp only [places, runs, working, SearchWorker.requestId?, Option.toList_some,
        Option.toList_none, List.count_nil, List.count_singleton, beq_iff_eq, if_neg other]
    · rw [if_neg dropped] at stepped
      obtain rfl := Option.some.inj stepped
      refine sound.of_client ⟨rfl, rfl, rfl, rfl, rfl⟩ (fun id _ => ?_)
        sound.requested (fun id its _ => absurd its.symm (Option.some_ne_none _))
      simp only [places, runs, working, SearchWorker.requestId?, Option.toList_some,
        Option.toList_none, List.count_nil, List.count_singleton, beq_iff_eq,
        List.countP_append, List.countP_singleton, decide_eq_true_eq]
      omega

theorem step {action : SearchAction} (guarded : s.careful action = true)
    (stepped : s.step action = some s') : s'.Sound := by
  cases action with
  | search serializable =>
    obtain rfl := Option.some.inj stepped
    exact sound.requestIndexedSearch serializable
  | otherRequest =>
    obtain rfl := Option.some.inj stepped
    exact ⟨fun id member => Nat.le_succ_of_le (sound.known id member), sound.once,
      sound.waiting, sound.requested, sound.silenced⟩
  | cancel requestId =>
    obtain rfl := Option.some.inj stepped
    exact sound.requestCancel requestId
  | write i => exact sound.write stepped
  | receive => exact sound.receive guarded stepped
  | work choice => exact sound.work guarded stepped
  | deliver => exact sound.deliver stepped

end Sound

/-! ## Whole runs -/

/-- States of runs in which a search that arrives finds only cancelled ones in its way. -/
def CarefulRun : SearchSession → Prop :=
  Transition.Reachable step (· = {}) fun s action => s.careful action = true

theorem CarefulRun.sound {s : SearchSession} (run : CarefulRun s) : s.Sound :=
  Transition.Reachable.invariant (fun _ start => start ▸ sound_initial)
    (fun _ _ _ sound guarded stepped => sound.step guarded stepped) run

/-- **No search is dropped.**  Once the worker is idle and nothing is pending or on its way, the
callback of every search that was not cancelled has run, and has run once. -/
theorem callback_runs_once {s : SearchSession} (run : CarefulRun s) (settled : s.Settled)
    {requestId : Nat} (issued : requestId ∈ s.issued) (kept : requestId ∉ s.cancelled) :
    s.runs requestId = 1 := by
  obtain ⟨worker, pending, outbox, wire, responses⟩ := settled
  have once := run.sound.once requestId kept
  rw [if_pos issued] at once
  simpa [places, worker, pending, outbox, wire, responses, SearchWorker.requestId?] using once

/-- A search that is asked for, travels to the engine, is executed and answered. -/
def answered : List SearchAction :=
  [.search true, .write 0, .receive, .work {}, .work {}, .work {}, .work {}, .work {}, .deliver]

/-- The session after two searches, each answered before the next is asked for. -/
def oneByOne : SearchSession :=
  (Transition.run step {} (answered ++ answered)).getD {}

theorem carefulRun_oneByOne : CarefulRun oneByOne := by
  have exec : Transition.run (fun s action => if s.careful action then s.step action else none)
      {} (answered ++ answered) = some oneByOne := by
    decide +kernel
  have start : CarefulRun {} := .start rfl
  exact start.of_checked_run (fun _ _ _ care => care) (fun _ _ _ _ _ _ => trivial) trivial exec

theorem callback_runs_once_one_by_one :
    1 ∈ oneByOne.issued ∧ oneByOne.Settled ∧ oneByOne.runs 1 = 1 :=
  ⟨by decide +kernel, by decide +kernel,
    callback_runs_once carefulRun_oneByOne (by decide +kernel) (by decide +kernel)
      (by decide +kernel)⟩

/-- While the search of the panel is executed, the ranking asks for one: the panel's search is not
answered, and its callback stays. -/
def superseding : List SearchAction :=
  [.search true, .write 0, .receive, .work {}, .work {}, .search true, .write 0, .receive, .work {},
    .work {}, .work {}, .work {}, .work {}, .work {}, .work {}, .work {}, .deliver]

theorem superseded_search_unanswered :
    ∃ s, Transition.run step {} superseding = some s ∧ s.Settled ∧ s.issued = [2, 1] ∧
      s.cancelled = [] ∧ s.runs 2 = 1 ∧ s.runs 1 = 0 ∧ s.indexedSearchCallbacks = [1] := by
  refine ⟨_, (Option.some_get (by decide +kernel)).symm, ?_⟩
  decide +kernel

end SearchSession

end FastFiles.Engine
