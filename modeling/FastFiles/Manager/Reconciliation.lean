import FastFiles.Manager.ScanCoverage

/-!
# A finished reconciliation pass has seen the whole volume

`FinishReconciliationPass` removes the rows of a volume that no batch has touched
since `BeginReconciliationPass`.  That is safe when a scan of the whole volume was
requested after the pass had begun and all its batches were applied
(`PassJustified`).  The pass lives in the pipeline and the attempt in the session
manager, so the invariant has to pair the two: a session that runs a
reconciliation is in one of three stages (`Stage`), from the claim over
`BeginReconciliationPass` to the request, and in the last of them every item on
its way belongs to the attempt that was requested for the pass.

`TriggerReconciliation` claims the attempt whatever is still on its way.  When an
attempt that was superseded is still to be answered by the service, its terminal
is taken for that of the reconciliation: `reconciliation_by_foreign_completion` is
a run in which the pass is finished by a scan that was requested before it began
and started behind the first record.  `finishReconciliationPass_justified` is the
property for all runs in which a reconciliation is claimed only when no other
attempt is outstanding (`ReconciliationAlone`).
-/

namespace FastFiles.Manager

open FastFiles.WorkerStream FastFiles.Transition VolumeState

/-! ## The property -/

/-- The scan of attempt `k` was requested from the beginning of the volume after
pass `p` had begun. -/
def ScannedFor (p k : Nat) (history : List Event) : Prop :=
  ∃ newer cursor older, history = newer ++ .scanRequested k cursor :: older ∧
    cursor.start = 0 ∧ .passBegun p ∈ older

/-- Every row the pass leaves unseen is gone from the volume: some scan requested
from the beginning after the pass had begun was completed, none of its batches was
lost, and every record was applied from one of them. -/
def PassJustified (volume : Volume) (history : List Event) (p : Nat) : Prop :=
  ∃ k, ScannedFor p k history ∧ .completionAccepted k ∈ history ∧ .batchLost k ∉ history ∧
    ∀ i < volume.recordCount, ∃ first last,
      .batchApplied k first last ∈ history ∧ first ≤ i ∧ i < last

/-- Every pass that was finished was justified when `FinishReconciliationPass` ran. -/
def FinishesJustified (volume : Volume) (history : List Event) : Prop :=
  ∀ newer p older, history = newer ++ .passFinished p :: older → PassJustified volume older p

variable {history history' : List Event} {k : Nat}

theorem ScannedFor.suffix {p : Nat} (h : ScannedFor p k history) (grows : history <:+ history') :
    ScannedFor p k history' := by
  obtain ⟨newer, cursor, older, rfl, start, begun⟩ := h
  obtain ⟨newest, rfl⟩ := grows
  exact ⟨newest ++ newer, cursor, older, by rw [List.append_assoc], start, begun⟩

variable {p : Nat} {volume : Volume}

theorem PassJustified.suffix (h : PassJustified volume history p) (grows : history <:+ history')
    (kept : ∀ k, .batchLost k ∉ history → .batchLost k ∉ history') :
    PassJustified volume history' p := by
  obtain ⟨k, scanned, accepted, whole, covered⟩ := h
  refine ⟨k, scanned.suffix grows, grows.subset accepted, kept k whole, fun i hi => ?_⟩
  obtain ⟨first, last, applied, bounds⟩ := covered i hi
  exact ⟨first, last, grows.subset applied, bounds⟩

theorem FinishesJustified.cons {history : List Event} (h : FinishesJustified volume history)
    {event : Event} (new : ∀ p, event = .passFinished p → PassJustified volume history p) :
    FinishesJustified volume (event :: history) := by
  intro newer p older split
  cases newer with
  | nil =>
    obtain ⟨rfl, rfl⟩ := List.cons.inj split
    exact new p rfl
  | cons first newer => exact h newer p older (List.cons.inj split).2

theorem FinishesJustified.grows {kind : Event → Bool} (h : FinishesJustified volume history)
    (grows : Grows kind history history') (other : ∀ p, kind (.passFinished p) = false) :
    FinishesJustified volume history' := by
  obtain rfl | ⟨event, isKind, rfl⟩ := grows
  · exact h
  · refine h.cons fun p eq => ?_
    rw [eq, other p] at isKind
    cases isKind

/-! ## The condition on runs -/

/-- The completion of a reconciliation was accepted and its pass is about to be
finished. -/
def Task.finalizing : Task → Bool
  | .completeCheck _ true _ | .completeFinish _ _ => true
  | _ => false

/-- The runs in which a reconciliation is claimed only when no other attempt is
outstanding: nothing of one is on its way, no other thread is about to send its
request, and the reader is not finishing a pass. -/
def ReconciliationAlone (s : VolumeState) : Action → Prop
  | .run t _ =>
    ∀ e ret, s.threads t = .triggerClaim e ret →
      (s.core.triggerClaim e ret).2 = .triggerBegin e ret →
      (s.client scanView).items = [] ∧ (∀ u, (s.threads u).unsent = false) ∧
        (s.threads .reader).finalizing = false
  | _ => True

/-! ## The invariant -/

/-- The attempt in flight is a reconciliation. -/
def VolumeSession.Reconciling (session : VolumeSession) : Prop :=
  session.scanInProgress = true ∧ session.reconciliationScan = true

/-- The pass that is active, if any, is `p`. -/
def Core.PassIs (c : Core) (p : Nat) : Prop :=
  ∀ q, c.pass = some q → q = p

/-- The stages of a reconciliation in flight. -/
inductive VolumeState.Stage (s : VolumeState) : Prop
  /-- The attempt was claimed and the pass is about to begin. -/
  | claimed (t : ThreadId) (e : Nat) (ret : Continuation) : s.threads t = .triggerBegin e ret →
      (∀ u, u ≠ t → (s.threads u).unsent = false) → (s.client scanView).items = [] → Stage s
  /-- Pass `p` has begun and the request is about to be sent. -/
  | begun (t : ThreadId) (e : Nat) (ret : Continuation) (p : Nat) :
      s.threads t = .triggerSend e ret → (∀ u, u ≠ t → (s.threads u).unsent = false) →
      (s.client scanView).items = [] → .passBegun p ∈ s.core.history → s.core.PassIs p → Stage s
  /-- Attempt `k` was requested for pass `p`, and nothing else is on its way. -/
  | sent (k p : Nat) : (∀ u, (s.threads u).unsent = false) → ScannedFor p k s.core.history →
      (k, 0) ∈ (s.client scanView).requested → (∀ x ∈ (s.client scanView).items, x.worker = k) →
      s.core.PassIs p → Stage s

/-- The invariant behind reconciliation passes. -/
structure PassGuarded (volume : Volume) (s : VolumeState) : Prop where
  owned : s.Owned
  linked : s.Linked
  sound : (s.client scanView).Sound volume.recordCount
  running : ∀ session, s.core.owners.session = some session → session.Reconciling → s.Stage
  settled : s.SettledFor VolumeSession.Reconciling
  finalizing : (s.threads .reader).finalizing = true →
    (∀ t e ret, s.threads t ≠ .triggerBegin e ret) ∧
      ∃ p, s.core.PassIs p ∧ PassJustified volume s.core.history p
  justified : FinishesJustified volume s.core.history

/-! ## The active pass -/

variable {env : Env} {task : Task} {s s' : VolumeState} {a : Action}

/-- Only `BeginReconciliationPass` makes a pass active. -/
theorem Task.pass_run (other : ∀ e ret, task ≠ .triggerBegin e ret)
    {c : Core} (h : (task.run env c).1.pass = some p) : c.pass = some p := by
  cases writes : task.writesPass with
  | false =>
    rw [← ((task.footprint_run env c).pass writes).pass]
    exact h
  | true =>
    cases task with
    | triggerBegin e ret => exact absurd rfl (other e ret)
    | completeFinish e deferred =>
      simp only [Task.run, Core.completeFinish] at h
      split at h
      · exact h
      · rename_i serial active
        dsimp only [Core.record] at h
        split at h
        · cases h
        · rw [active]
          exact h
    | dropPass _ | completeAbort _ _ | completeForeign _ _ | failedAbort | settleAbort => cases h
    | _ => cases writes

theorem Moved.passIs (moved : Moved volume s a s')
    (other : ∀ t env e ret, a = .run t env → s.threads t ≠ .triggerBegin e ret)
    (h : s.core.PassIs p) : s'.core.PassIs p := by
  intro q hq
  refine h q ?_
  cases moved with
  | run t env _ => exact Task.pass_run (fun e ret => other t env e ret rfl) hq
  | @deliver env e frame core _ taken =>
    rw [← (Core.SameBooks.takeFrame taken).pass, ← (frame.footprint_receive env e core).pass.pass]
    exact hq
  | spawn _ spawned =>
    rw [advance_core, spawned.owners_only.1] at hq
    exact hq
  | core move =>
    rw [← move.row.2]
    exact hq

/-! ## Stages -/

section Stages

variable {volume : Volume} {s s' : VolumeState} {a : Action}

variable {session' : VolumeSession}

/-- A session that runs a reconciliation after a section was just claimed, or ran it
before and nothing else was claimed. -/
theorem OwnersStep.reconciling {c : Core} {task task' : Task} {owners : Owners}
    {verdicts : List (Option Bool)} (h : OwnersStep env c task owners verdicts task')
    (hs : owners.session = some session') (running : session'.Reconciling) :
    (∃ e ret, task = .triggerClaim e ret ∧ task' = .triggerBegin e ret) ∨
      ((∃ session, c.owners.session = some session ∧ session.Reconciling) ∧
        (task'.unsent = true → task.unsent = true)) := by
  have idle {task₀ : Task} (h : task'.unsent = false) (h' : task'.unsent = true) :
      task₀.unsent = true := Bool.noConfusion (h.symm.trans h')
  have found {e session} := @Core.session_of_find c e session
  cases h with
  | reconcile e ret _ _ _ _ _ => exact .inl ⟨e, ret, rfl, rfl⟩
  | claim _ _ _ _ _ _ _ _ | supersede _ _ _ _ _ _ _ =>
    cases hs
    cases running.2
  | drop _ _ => cases hs
  | dropNone _ gone =>
    rw [Owners.clearConnectionScoped_session, gone] at hs
    cases hs
  | rearm _ _ _ =>
    rw [Owners.rearmFailedAdmissionLocked, Owners.installNonAuthoritativeRetryLocked_session] at hs
    cases hs
    cases running.1
  | keep _ _ unsent => exact .inr ⟨⟨session', hs, running⟩, unsent⟩
  | startRequeue _ _ _ _ _ _ sent | clear _ _ _ _ sent | settleRunning _ _ _ _ _ _ _ sent
  | settleQueue _ _ _ _ _ _ sent => exact .inr ⟨⟨session', hs, running⟩, idle sent⟩
  | triggerRequeue _ ret _ _ => exact .inr ⟨⟨session', hs, running⟩, idle (ret.unsent_resume _)⟩
  | requeue _ _ => exact .inr ⟨⟨session', hs, running⟩, idle rfl⟩
  | retry | retryFloor | adoptGone =>
    simp only [Owners.installNonAuthoritativeRetryLocked_session,
      Owners.mergeDurableFloorLocked_session, Owners.floorDispatch_session] at hs
    exact .inr ⟨⟨session', hs, running⟩, idle rfl⟩
  | settleFloor _ _ _ _ _ _ sent =>
    rw [Owners.floorDispatch_session] at hs
    exact .inr ⟨⟨session', hs, running⟩, idle sent⟩
  | journalOpen _ _ ret h | defer _ ret h _ =>
    cases hs
    exact .inr ⟨⟨_, found h, running⟩, idle (ret.unsent_resume _)⟩
  | mark _ h | deferAgain _ h =>
    cases hs
    exact .inr ⟨⟨_, found h, running⟩, idle rfl⟩

/-- The same for a move. -/
theorem Moved.reconciling (moved : Moved volume s a s')
    (hs : s'.core.owners.session = some session') (running : session'.Reconciling) :
    (∃ t env e ret, a = .run t env ∧ s.threads t = .triggerClaim e ret ∧
      ((s.threads t).run env s.core).2 = .triggerBegin e ret) ∨
    ((∃ session, s.core.owners.session = some session ∧ session.Reconciling) ∧
      ∀ t env, a = .run t env → ((s.threads t).run env s.core).2.unsent = true →
        (s.threads t).unsent = true) := by
  cases moved with
  | run t env busy =>
    rcases (s.threads t).owners_run.reconciling hs running with
      ⟨e, ret, task, claims⟩ | ⟨before, unsent⟩
    · exact .inl ⟨t, env, e, ret, rfl, task, claims⟩
    · refine .inr ⟨before, fun u env' ha => ?_⟩
      cases ha
      exact unsent
  | deliver env free taken =>
    refine .inr ⟨?_, nofun⟩
    rcases Frame.session_receive hs with ⟨session, hcore, change⟩ | ⟨-, -, -, -, rfl⟩
    · refine ⟨session, (Core.SameBooks.takeFrame taken).owners ▸ hcore, ?_⟩
      cases change with
      | completed _ _ _ | failed _ _ _ => cases running.1
      | _ => exact running
    · cases running.1
  | spawn free spawned =>
    exact .inr ⟨⟨session', spawned.owners.session hs, running⟩, by rintro t env rfl; cases spawned⟩
  | core move =>
    exact .inr ⟨⟨session', move.session hs, running⟩, by rintro t env rfl; cases move⟩

/-- A stage is kept by every move that claims and sends nothing. -/
theorem VolumeState.Stage.moved (stage : s.Stage) (owned : s.Owned) (moved : Moved volume s a s')
    (quiet : ∀ t env, a = .run t env → (s.threads t).unsent = false ∧
      ((s.threads t).run env s.core).2.unsent = false) : s'.Stage := by
  have requested : (s'.client scanView).requested = (s.client scanView).requested := by
    refine moved.scanRequested fun t env ha => ?_
    have unsent := (quiet t env ha).1
    cases task : s.threads t with
    | startSend _ _ _ | triggerSend _ _ => rw [task] at unsent; cases unsent
    | _ => rfl
  have step := moved.scanStep owned
  have nothing (h : (s.client scanView).items = []) : (s'.client scanView).items = [] :=
    step.items_nil requested h
  have pass {p : Nat} (h : s.core.PassIs p) : s'.core.PassIs p := by
    refine moved.passIs (fun t env e ret ha task => ?_) h
    have unsent := (quiet t env ha).1
    rw [task] at unsent
    cases unsent
  have rest (u : ThreadId) (h : (s.threads u).unsent = true) : s'.threads u = s.threads u := by
    have move := moved.threadMove u
    generalize s'.threads u = task' at move ⊢
    cases move with
    | rest => rfl
    | run env ha => rw [(quiet u env ha).1] at h; cases h
    | first free _ | started free _ => rw [free] at h; cases h
  have other (u : ThreadId) (h : (s.threads u).unsent = false) :
      (s'.threads u).unsent = false := by
    have move := moved.threadMove u
    generalize s'.threads u = task' at move ⊢
    cases move with
    | rest => exact h
    | run env ha => exact (quiet u env ha).2
    | first _ first => cases first <;> rfl
    | started _ started => cases started <;> rfl
  cases stage with
  | claimed t e ret task others empty =>
    refine .claimed t e ret ?_ (fun u hu => other u (others u hu)) (nothing empty)
    rw [rest t (by rw [task]; rfl), task]
  | begun t e ret p task others empty begun passIs =>
    refine .begun t e ret p ?_ (fun u hu => other u (others u hu)) (nothing empty)
      (moved.grows.1.subset begun) (pass passIs)
    rw [rest t (by rw [task]; rfl), task]
  | sent k p others scanned known mine passIs =>
    refine .sent k p (fun u => other u (others u)) (scanned.suffix moved.grows.1) ?_
      (step.workers (P := fun w => w = k) (absurd requested) mine) (pass passIs)
    rw [requested]
    exact known

variable {ret : Continuation} {t : ThreadId} {e : Nat}

section

variable (guarded : PassGuarded volume s)

include guarded

/-- The claim is the first stage. -/
theorem PassGuarded.stage_claimed (ok : ReconciliationAlone s (.run t env))
    (task : s.threads t = .triggerClaim e ret)
    (claims : ((s.threads t).run env s.core).2 = .triggerBegin e ret) :
    (s.advance t ((s.threads t).run env s.core)).Stage := by
  have moved : Moved volume s (.run t env) _ := .run t env (by simp [task])
  have claims' : (s.core.triggerClaim e ret).2 = .triggerBegin e ret := by
    rw [task] at claims
    exact claims
  obtain ⟨empty, sent, -⟩ := ok e ret task claims'
  refine .claimed t e ret ?_ (fun u hu => ?_) ?_
  · rw [advance_threads_self, claims]
  · rw [advance_threads_of_ne hu]
    exact sent u
  · exact (moved.scanStep guarded.owned).items_nil
      (Task.scanRequested_run (by rw [task]; rfl) env [] s.core) empty

section

variable (env : Env) (others : ∀ u, u ≠ t → (s.threads u).unsent = false)
  (empty : (s.client scanView).items = [])

include others empty

/-- `BeginReconciliationPass` leads to the second. -/
theorem PassGuarded.stage_begun (task : s.threads t = .triggerBegin e ret) :
    (s.advance t ((s.threads t).run env s.core)).Stage := by
  have moved : Moved volume s (.run t env) _ := .run t env (by simp [task])
  refine .begun t e ret s.core.passes ?_ (fun u hu => ?_) ?_ ?_ ?_
  · rw [advance_threads_self, task]
    rfl
  · rw [advance_threads_of_ne hu]
    exact others u hu
  · exact (moved.scanStep guarded.owned).items_nil
      (Task.scanRequested_run (by rw [task]; rfl) env [] s.core) empty
  · rw [task]
    exact .head _
  · intro q hq
    rw [task] at hq
    exact (Option.some.inj hq).symm

/-- The request leads to the third, whether its write is reported as failed or not. -/
theorem PassGuarded.stage_sent (task : s.threads t = .triggerSend e ret)
    (begun : .passBegun p ∈ s.core.history) (passIs : s.core.PassIs p) :
    (s.advance t ((s.threads t).run env s.core)).Stage := by
  have moved : Moved volume s (.run t env) _ := .run t env (by simp [task])
  refine .sent s.core.attempts p (fun u => ?_) ?_ ?_ (fun x hx => ?_) ?_
  · by_cases hu : u = t
    · subst hu
      rw [advance_threads_self, task, Task.run, Core.triggerSend]
      dsimp only
      split
      · exact ret.unsent_resume true
      · rfl
    · rw [advance_threads_of_ne hu]
      exact others u hu
  · rw [task]
    exact ⟨[], .empty, s.core.history, rfl, rfl, begun⟩
  · rw [task]
    exact .head _
  · rcases (moved.scanStep guarded.owned).origin hx with ⟨o, ho, -⟩ | ⟨worker, -⟩
    · rw [empty] at ho
      cases ho
    · exact worker
  · intro q hq
    rw [task] at hq
    exact passIs q hq

end

/-- **A running reconciliation stays in step with its pass.** -/
theorem PassGuarded.running_moved (moved : Moved volume s a s') (ok : ReconciliationAlone s a)
    (hs : s'.core.owners.session = some session') (running : session'.Reconciling) :
    s'.Stage := by
  rcases moved.reconciling hs running with
    ⟨t, env, e, ret, rfl, task, claims⟩ | ⟨⟨session, before, wasRunning⟩, unsent⟩
  · rw [moved.run_eq]
    exact guarded.stage_claimed ok task claims
  have stage := guarded.running session before wasRunning
  -- a thread that has nothing to send changes nothing
  have quiet (h : ∀ t env, a = .run t env → (s.threads t).unsent = false) : s'.Stage := by
    refine stage.moved guarded.owned moved fun t env ha => ⟨h t env ha, ?_⟩
    refine Bool.eq_false_iff.mpr fun h' => ?_
    have := h t env ha
    rw [unsent t env ha h'] at this
    cases this
  by_cases runs : ∃ t env, a = .run t env
  · obtain ⟨t, env, rfl⟩ := runs
    obtain rfl := moved.run_eq
    cases stage with
    | claimed u e ret task others empty =>
      by_cases ht : t = u
      · subst ht
        exact guarded.stage_begun env others empty task
      · exact quiet fun t' env' ha => by cases ha; exact others t ht
    | begun u e ret p task others empty begun passIs =>
      by_cases ht : t = u
      · subst ht
        exact guarded.stage_sent env others empty task begun passIs
      · exact quiet fun t' env' ha => by cases ha; exact others t ht
    | sent k p others _ _ _ _ => exact quiet fun t' _ _ => others t'
  · exact quiet fun t env ha => absurd ⟨t, env, ha⟩ runs

/-- A reconciliation is claimed with nothing ahead of it. -/
theorem PassGuarded.inherits (moved : Moved volume s a s')
    (ok : ReconciliationAlone s a) : s.Inherits VolumeSession.Reconciling s' := by
  intro session' hs running
  rcases moved.reconciling hs running with ⟨t, env, e, ret, rfl, task, claims⟩ | ⟨before, -⟩
  · left
    rw [task] at claims
    have requested : (s'.client scanView).requested = (s.client scanView).requested := by
      refine moved.scanRequested fun u env' ha => ?_
      cases ha
      rw [task]
      rfl
    have empty := (moved.scanStep guarded.owned).items_nil requested (ok e ret task claims).1
    intro w _ x hx
    rw [empty] at hx
    cases hx
  · exact .inr before

end

end Stages

/-! ## Finishing a pass -/

section Finishing

variable {volume : Volume} {s s' : VolumeState} {a : Action}

/-- While the reader is busy with anything but a batch, no batch is lost. -/
theorem Moved.scanLost (moved : Moved volume s a s') (owned : s.Owned)
    (busy : s.threads .reader ≠ .idle) (hand : (s.threads .reader).inHand = []) :
    (s'.client scanView).lost = (s.client scanView).lost := by
  cases moved with
  | run t env _ =>
    refine Task.scanLost_run ?_ env [] s.core
    cases task : s.threads t with
    | batchApply e a first cursor =>
      have ht : t = .reader := owned.reader (by rw [task]; rfl)
      subst ht
      rw [task] at hand
      cases hand
    | _ => rfl
  | deliver env free _ => exact absurd free busy
  | @spawn a t result _ spawned =>
    show (result.1.client scanView []).lost = (s.core.client scanView []).lost
    rw [spawned.sameTraffic.client]
  | core move => exact (move.scanServed []).lost

theorem Task.Next.finalizing {task task' : Task} (next : task.Next task')
    (h : task'.finalizing = true) : task.finalizing = true := by
  cases next with
  | completeCheck_pass _ _ => rfl
  | _ => first | cases h | cases ‹Continuation› <;> cases h | cases ‹Bool› <;> cases h

variable {e : Nat} {core : Core} {frame : Frame}

/-- Only a claim leads to `BeginReconciliationPass`. -/
theorem Task.Next.of_triggerBegin {ret : Continuation}
    (next : task.Next (.triggerBegin e ret)) : task = .triggerClaim e ret := by
  generalize target : Task.triggerBegin e ret = task' at next
  cases next with
  | triggerClaim _ _ =>
    cases target
    rfl
  | _ =>
    first | cases target | cases ‹Continuation› <;> cases target | cases ‹Bool› <;> cases target

/-- **A completion that is accepted for a reconciliation justifies its pass.** -/
theorem PassGuarded.accepted (guarded : PassGuarded volume s) {e w : Nat}
    (free : s.threads .reader = .idle) (taken : s.core.takeFrame = some (e, .scanComplete w, core))
    {session : VolumeSession} (hs : s.core.owners.session = some session)
    (running : session.Reconciling) (clean : session.Clean) :
    (∀ u, (s.threads u).unsent = false) ∧ ∃ p, s.core.PassIs p ∧
      PassJustified volume (.completionAccepted w :: s.core.history) p := by
  have items : (s.client scanView).items = .finished w :: core.stream scanView :=
    client_items rfl free taken
  have settled := guarded.settled session hs running clean (by simp [free])
  have kept : w ∉ (s.client scanView).lost := by
    intro lost
    exact settled w lost (.finished w) (by simp [items]) rfl
  cases guarded.running session hs running with
  | claimed _ _ _ _ _ empty | begun _ _ _ _ _ _ empty _ _ =>
    rw [items] at empty
    cases empty
  | sent k p others scanned requested mine passIs =>
    obtain rfl : w = k := mine (.finished w) (by simp [items])
    have older : s.core.history <:+ .completionAccepted w :: s.core.history :=
      List.suffix_cons _ _
    refine ⟨others, p, passIs, w, scanned.suffix older, .head _, ?_, fun i hi => ?_⟩
    · rw [lost_iff] at kept
      simpa [Core.Lost] using kept
    · have applied := guarded.sound.covers_finished items kept requested (Nat.zero_le i) hi
      obtain ⟨first, last, mem, bounds⟩ := (s.appliedBy_iff w i).mp applied
      exact ⟨first, last, .tail _ mem, bounds⟩

theorem Frame.First.finalizing (first : frame.First e task) (h : task.finalizing = true) :
    ∃ w deferred, frame = .scanComplete w ∧ task = .completeCheck e true deferred := by
  cases first with
  | scanComplete w was deferred =>
    cases was with
    | true => exact ⟨w, deferred, rfl, rfl⟩
    | false => cases h
  | _ => cases h

variable (guarded : PassGuarded volume s)

include guarded

/-- Nothing is claimed and nothing is lost while a pass is being finished. -/
theorem PassGuarded.finalizing_kept (moved : Moved volume s a s') (ok : ReconciliationAlone s a)
    (was : (s.threads .reader).finalizing = true) :
    (∀ t e ret, s'.threads t ≠ .triggerBegin e ret) ∧
      ∃ p, s'.core.PassIs p ∧ PassJustified volume s'.core.history p := by
  obtain ⟨none, p, passIs, justified⟩ := guarded.finalizing was
  have busy : s.threads .reader ≠ .idle := by
    intro idle
    rw [idle] at was
    cases was
  have hand : (s.threads .reader).inHand = [] := by
    cases task : s.threads .reader with
    | batchApply _ _ _ _ =>
      rw [task] at was
      cases was
    | _ => rfl
  refine ⟨fun t e ret task' => ?_, p, moved.passIs (fun t _ e ret _ => none t e ret) passIs,
    justified.suffix moved.grows.1 fun k whole lost => whole ?_⟩
  · have move := moved.threadMove t
    rw [task'] at move
    generalize target : Task.triggerBegin e ret = next at move
    cases move with
    | rest => exact none t e ret target.symm
    | first _ first => subst target; cases first
    | started _ started => subst target; cases started
    | run env ha =>
      subst ha
      have next := (s.threads t).run_next env s.core
      rw [← target] at next
      have claim := next.of_triggerBegin
      rw [claim] at target
      have := (ok e ret claim target.symm).2.2
      rw [was] at this
      cases this
  · have lost' := (s'.lost_iff k).mpr lost
    rw [moved.scanLost guarded.owned busy hand] at lost'
    exact (s.lost_iff k).mp lost'

/-- The reader begins to finish a pass when it accepts a completion. -/
theorem PassGuarded.finalizing_begins (free : s.threads .reader = .idle)
    (taken : s.core.takeFrame = some (e, frame, core))
    (h : (frame.receive env e core).2.finalizing = true) :
    (∀ t e' ret, (s.advance .reader (frame.receive env e core)).threads t ≠
        .triggerBegin e' ret) ∧
      ∃ p, (frame.receive env e core).1.PassIs p ∧
        PassJustified volume (frame.receive env e core).1.history p := by
  obtain ⟨w, deferred, rfl, task⟩ := (frame.receive_first env e core).finalizing h
  obtain ⟨session, found, clean, running, was, -, closed⟩ :=
    Core.receiveScanComplete_accepts task
  have hs : s.core.owners.session = some session :=
    (Core.SameBooks.takeFrame taken).owners ▸ (Core.find_eq_some.mp found).1
  obtain ⟨sent, p, passIs, justified⟩ := guarded.accepted free taken hs ⟨running, was.symm⟩ clean
  refine ⟨fun t e' ret task' => ?_, p, ?_, ?_⟩
  · by_cases ht : t = .reader
    · subst ht
      rw [advance_threads_self] at task'
      cases task.symm.trans task'
    · rw [advance_threads_of_ne ht] at task'
      have unsent := sent t
      rw [task'] at unsent
      cases unsent
  · intro q hq
    refine passIs q ?_
    rw [← (Core.SameBooks.takeFrame taken).pass,
      ← (Frame.footprint_receive (.scanComplete w) env e core).pass.pass]
    exact hq
  · rw [Frame.receive, closed]
    show PassJustified volume (.completionAccepted w :: core.history) p
    rw [(Core.recorded_takeFrame taken).1]
    exact justified

theorem PassGuarded.finalizing_moved (moved : Moved volume s a s') (ok : ReconciliationAlone s a)
    (h : (s'.threads .reader).finalizing = true) :
    (∀ t e ret, s'.threads t ≠ .triggerBegin e ret) ∧
      ∃ p, s'.core.PassIs p ∧ PassJustified volume s'.core.history p := by
  by_cases was : (s.threads .reader).finalizing = true
  · exact guarded.finalizing_kept moved ok was
  cases moved.readerMove with
  | rest same => exact absurd (same ▸ h) was
  | run env =>
    rw [advance_threads_self] at h
    exact absurd (((s.threads .reader).run_next env s.core).finalizing h) was
  | deliver env free taken =>
    rw [advance_threads_self] at h
    exact guarded.finalizing_begins free taken h

theorem PassGuarded.justified_moved (moved : Moved volume s a s') :
    FinishesJustified volume s'.core.history := by
  cases moved with
  | run t env _ =>
    cases task : s.threads t with
    | completeFinish e deferred =>
      have ht : t = .reader := guarded.owned.reader (by rw [task]; rfl)
      subst ht
      obtain ⟨-, p, passIs, justified⟩ := guarded.finalizing (by rw [task]; rfl)
      rw [advance_core, Task.run, Core.completeFinish]
      split
      · exact guarded.justified
      · rename_i serial active
        refine guarded.justified.cons fun q hq => ?_
        cases hq
        rw [passIs serial active]
        exact justified
    | _ =>
      rw [advance_core]
      exact guarded.justified.grows (Task.footprint_run _ env s.core).history fun _ => rfl
  | @deliver env e frame core free taken =>
    have grows := (frame.footprint_receive env e core).history
    rw [(Core.recorded_takeFrame taken).1] at grows
    exact guarded.justified.grows grows fun _ => by cases frame <;> rfl
  | spawn _ spawned =>
    rw [advance_core, spawned.owners_only.1]
    exact guarded.justified
  | @core a _ move => exact guarded.justified.grows move.grows.1 fun _ => by cases a <;> rfl

end Finishing

/-! ## All runs -/

theorem PassGuarded.initial (volume : Volume) (journal : Journal) :
    PassGuarded volume (.initial journal) where
  owned := nofun
  linked := ⟨nofun, nofun⟩
  sound := client_initial journal volume.recordCount rfl
  running := nofun
  settled := nofun
  finalizing := nofun
  justified := by
    intro newer p older split
    cases newer <;> cases split

/-- **One guarded move keeps the invariant.** -/
theorem PassGuarded.moved (guarded : PassGuarded volume s) (moved : Moved volume s a s')
    (ok : ReconciliationAlone s a) : PassGuarded volume s' where
  owned := guarded.owned.moved moved
  linked := guarded.linked.moved moved
  sound := guarded.sound.step (moved.scanStep guarded.owned)
  running _ hs running := guarded.running_moved moved ok hs running
  settled := guarded.settled.moved guarded.owned guarded.linked guarded.sound moved
    (guarded.inherits moved ok)
  finalizing := guarded.finalizing_moved moved ok
  justified := guarded.justified_moved moved

/-- **Reconciliation removes no live row.**  In every run of any number of volumes in
which a reconciliation is claimed only when no other attempt is outstanding,
whenever `FinishReconciliationPass` ran on a pass, a scan from the beginning of the
volume was requested after the pass had begun, its completion was accepted, none
of its batches was lost and every record of the volume was applied from one. -/
theorem finishReconciliationPass_justified {ι : Type} (volumes : ι → Volume) {s : ι → VolumeState}
    (reach : Family (fun i => step (volumes i)) Initial ReconciliationAlone s) (i : ι)
    {newer older : List Event} {p : Nat}
    (finished : (s i).core.history = newer ++ .passFinished p :: older) :
    PassJustified (volumes i) older p := by
  have guarded : PassGuarded (volumes i) (s i) := by
    refine (reach.component i).invariant ?_ ?_
    · rintro _ ⟨journal, rfl⟩
      exact .initial (volumes i) journal
    · intro s a s' guarded ok h
      exact guarded.moved (step_moved h) ok
  exact guarded.justified newer p older finished

/-! ### Two runs -/

/-- A completely scanned volume is due for a reconciliation, which is claimed and
requested. -/
def reconciliationRequested : List Action :=
  List.flatten
    [wholeScan, List.replicate 2 (.run .reader (.good 0)),
      [.schedulerSweep (.good reconciliationInterval)],
      List.replicate 3 (.run .scheduler (.good 0)), [.serve (.good 0)]]

/-- The reconciliation scans the volume and its pass is finished. -/
def wholeReconciliation : List Action :=
  List.flatten
    [reconciliationRequested, [.scanBatch 3 8, .scanComplete, .deliver (.good 0)],
      readBatch (.good 0), readCompletion 0]

/-- The first scan fails after its first record and is retried from there.  Before the
marker of the retry is read, a resume supersedes it; the marker then makes the
session believe that the superseding attempt has started, and the retry completes
it. -/
def supersededScan : List Action :=
  List.flatten
    [initialScanRequested,
      [.serve (.good 0), .scanBatch 1 8, .scanFailed, .serve (.refusing 0), .deliver (.good 0)],
      readBatch (.good 0),
      [.deliver (.good 0), .run .reader (.good 0), .schedulerTake (.good 9)],
      List.replicate 7 (.run .scheduler (.good 9)),
      [.serve (.good 9), .serve (.refusing 9), .setIndexingPaused true, .setIndexingPaused false,
        .resume 0 7],
      List.replicate 5 (.run (.control 0) (.good 9)),
      [.deliver (.good 9), .scanBatch 2 8, .scanComplete], readBatch (.good 9),
      [.deliver (.good 9)], List.replicate 4 (.run .reader (.good 9))]

/-- A reconciliation is claimed while the superseding attempt, which starts at the
second record, is still to be answered; its completion finishes the pass. -/
def foreignCompletion : List Action :=
  List.flatten
    [supersededScan, [.schedulerSweep (.good reconciliationInterval)],
      List.replicate 3 (.run .scheduler (.good 9)),
      [.serve (.good 9), .scanBatch 2 8, .scanComplete, .deliver (.good 9)],
      readBatch (.good 9), readCompletion 9]

/-- A decidable condition that implies `ReconciliationAlone` while no thread of the UI
server is inside the manager. -/
def reconciliationAloneCheck (s : VolumeState) : Action → Bool
  | .run t _ =>
    match s.threads t with
    | .triggerClaim _ _ =>
      (s.client scanView).items.isEmpty &&
        [.reader, .scheduler, .lifecycle].all fun u =>
          !(s.threads u).unsent && !(s.threads u).finalizing
    | _ => true
  | .resume _ _ => false
  | _ => true

theorem reconciliationAlone_of_check (s : VolumeState) (a : Action) (idle : s.Unattended)
    (h : reconciliationAloneCheck s a = true) : ReconciliationAlone s a := by
  cases a with
  | run t env =>
    intro e ret task _
    simp only [reconciliationAloneCheck, task, List.all_cons, List.all_nil, Bool.and_true,
      Bool.and_eq_true, Bool.not_eq_true', List.isEmpty_iff] at h
    refine ⟨h.1, fun u => ?_, h.2.1.2⟩
    cases u with
    | reader => exact h.2.1.1
    | scheduler => exact h.2.2.1.1
    | lifecycle => exact h.2.2.2.1
    | control n => rw [idle n]; rfl
  | _ => trivial

/-- A reconciliation that is alone is a run of the kind the theorem speaks of, and its
pass is finished by a scan that has seen the whole volume. -/
theorem finishReconciliationPass_justified_whole :
    ∃ s : Unit → VolumeState, ∃ older,
      Family (fun _ => step ⟨3⟩) Initial ReconciliationAlone s ∧
        (s ()).core.history = [] ++ .passFinished 0 :: older ∧ PassJustified ⟨3⟩ older 0 := by
  have exec : (run (fun s a => if reconciliationAloneCheck s a then step ⟨3⟩ s a else none)
      (.initial ⟨1, 0⟩) wholeReconciliation).map (·.core.history.head?) =
        some (some (.passFinished 0)) := by
    decide +kernel
  obtain ⟨t, exec, head⟩ := Option.map_eq_some_iff.mp exec
  have reach : Family (fun _ : Unit => step ⟨3⟩) Initial ReconciliationAlone fun _ => t :=
    .of_component (.of_checked_run reconciliationAlone_of_check
      (fun _ _ _ idle checked h => idle.moved (step_moved h) (by rintro _ _ rfl; cases checked))
      (.start ⟨_, rfl⟩) (fun _ => rfl) exec)
  have finished : t.core.history = [] ++ .passFinished 0 :: t.core.history.tail :=
    List.eq_cons_of_mem_head? head
  exact ⟨fun _ => t, t.core.history.tail, reach, finished,
    finishReconciliationPass_justified (fun _ => ⟨3⟩) reach () finished⟩

/-- Whether some accepted completion belongs to a scan requested after the pass had
begun. -/
def acceptedFor (p : Nat) (accepted : List Nat) : List Event → Bool
  | .scanRequested k _ :: older =>
    (accepted.contains k && older.contains (.passBegun p)) || acceptedFor p accepted older
  | _ :: older => acceptedFor p accepted older
  | [] => false

/-- The attempt an accepted completion belongs to. -/
def Event.accepted : Event → Option Nat
  | .completionAccepted k => some k
  | _ => none

theorem acceptedFor_of_scannedFor {p : Nat} {accepted : List Nat} (mem : k ∈ accepted)
    {history : List Event} (scanned : ScannedFor p k history) :
    acceptedFor p accepted history = true := by
  obtain ⟨newer, cursor, older, rfl, -, begun⟩ := scanned
  induction newer with
  | nil => simp [acceptedFor, mem, begun]
  | cons event newer ih =>
    cases event with
    | scanRequested _ _ => exact Bool.or_eq_true _ _ ▸ .inr ih
    | _ => exact ih

/-- **Live rows are removed.**  The pass is finished although no scan that was requested
after it had begun was ever completed; record 0, which is on the volume, was not
seen by the pass. -/
theorem reconciliation_by_foreign_completion :
    ∃ s : Unit → VolumeState, ∃ older,
      Family (fun _ => step ⟨2⟩) Initial (fun _ _ => True) s ∧
        (s ()).core.history = [] ++ .passFinished 0 :: older ∧ ¬ PassJustified ⟨2⟩ older 0 := by
  have exec : (run (step ⟨2⟩) (.initial ⟨1, 0⟩) foreignCompletion).map
      (fun s => (s.core.history.head?, acceptedFor 0
        (s.core.history.tail.filterMap Event.accepted) s.core.history.tail)) =
        some (some (.passFinished 0), false) := by
    decide +kernel
  obtain ⟨t, exec, result⟩ := Option.map_eq_some_iff.mp exec
  obtain ⟨head, foreign⟩ := Prod.mk.inj result
  refine ⟨fun _ => t, t.core.history.tail, .of_component (.of_run (.start ⟨_, rfl⟩) exec),
    List.eq_cons_of_mem_head? head, ?_⟩
  rintro ⟨k, scanned, accepted, -⟩
  have mem : k ∈ t.core.history.tail.filterMap Event.accepted :=
    List.mem_filterMap.mpr ⟨_, accepted, rfl⟩
  rw [acceptedFor_of_scannedFor mem scanned] at foreign
  cases foreign

end FastFiles.Manager
