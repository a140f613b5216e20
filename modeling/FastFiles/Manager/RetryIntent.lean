import FastFiles.Foundations.Obligation
import FastFiles.Manager.Reconciliation

/-!
# Owed scan work is on record

When an attempt ends without authority, the volume owes a scan, or a reconciliation
if the attempt was one.  The intent is held by the attempt in flight, the queued
retry, the scheduler's dispatch or the durable floor (`Owners.holders`); it migrates
between them under two locks and through several windows without either.
`IntentKept` is the invariant: exactly one of the four holds what is owed, and a
reconciliation that is owed is held as one.

The code does not keep it in all runs.  `OnScanComplete` installs a next owner when a
batch was lost, but not when the volume was paused: `retryIntent_lost_while_paused` is
a run in which a reconciliation completes while the volume is paused and nobody owes
it any more.  `retryIntent_kept` is the property for all runs without that and
without four races of the same kind (`IntentGuarded`).
-/

namespace FastFiles.Manager

open FastFiles.Obligation FastFiles.Transition VolumeSession Owners VolumeState

/-! ## Holders -/

/-- The kind of the attempt in flight. -/
def VolumeSession.attempt (session : VolumeSession) : Option Bool :=
  if session.scanInProgress then some session.reconciliationScan else none

/-- The kinds of work held by the attempt in flight, the queue, the scheduler's
dispatch and the durable floor. -/
def Owners.holders (o : Owners) : List Bool :=
  (o.session.bind attempt).toList ++
    (o.failedScanRetry.map (·.reconciliation)).toList ++
    (o.schedulerDispatchRetry.map (·.reconciliation)).toList ++
    (o.scanReissueFloor.map (·.reconciliation)).toList

variable {kind : Bool}

theorem VolumeSession.attempt_eq_some {session : VolumeSession} :
    session.attempt = some kind ↔
      session.scanInProgress = true ∧ session.reconciliationScan = kind := by
  unfold attempt
  split <;> simp_all

namespace Owners

variable {o : Owners} {session session' : VolumeSession} {retry : FailedScanRetry}

/-- At most one place holds anything. -/
def Single (o : Owners) : Prop :=
  o.holders.length ≤ 1

theorem holders_setSession (hs : o.session = some session)
    (same : session'.attempt = session.attempt) : (o.setSession session').holders = o.holders := by
  simp [holders, setSession, hs, same]

section

variable (single : o.Single) (hs : o.session = some session) (running : session.attempt = some kind)

include single hs running

/-- The attempt in flight is the only holder. -/
theorem Single.of_attempt :
    o.failedScanRetry = none ∧ o.schedulerDispatchRetry = none ∧ o.scanReissueFloor = none := by
  simp only [Single, holders, hs, Option.bind_some, running] at single
  cases hq : o.failedScanRetry <;> cases hd : o.schedulerDispatchRetry <;>
    cases hf : o.scanReissueFloor <;> simp_all

theorem Single.holders_of_attempt : o.holders = [kind] := by
  obtain ⟨queue, dispatch, floor⟩ := single.of_attempt hs running
  simp [holders, hs, running, queue, dispatch, floor]

/-- A closed attempt leaves no holder. -/
theorem Single.holders_close (closed : session'.attempt = none) :
    (o.setSession session').holders = [] := by
  obtain ⟨queue, dispatch, floor⟩ := single.of_attempt hs running
  simp [holders, setSession, closed, queue, dispatch, floor]

end

/-- The floor is the only holder. -/
theorem Single.holders_requeueFloor (single : o.Single) (hf : o.scanReissueFloor = some retry) :
    (o.requeueFloor retry).holders = o.holders := by
  simp only [Single, holders, hf] at single
  cases ha : o.session.bind attempt <;> cases hq : o.failedScanRetry <;>
    cases hd : o.schedulerDispatchRetry <;> simp_all [holders, requeueFloor]

theorem Single.holders_floorDispatch (single : o.Single)
    (hd : o.schedulerDispatchRetry = some retry) :
    (o.floorDispatch retry).holders = o.holders := by
  simp only [Single, holders, hd] at single
  cases ha : o.session.bind attempt <;> cases hq : o.failedScanRetry <;>
    cases hf : o.scanReissueFloor <;>
    simp_all [holders, floorDispatch, mergeDurableFloorLocked]

theorem Single.holders_requeueDispatch (single : o.Single)
    (hd : o.schedulerDispatchRetry = some retry) (now : Nat) :
    (o.requeueDispatch retry now).holders = o.holders := by
  simp only [Single, holders, hd] at single
  cases ha : o.session.bind attempt <;> cases hq : o.failedScanRetry <;>
    cases hf : o.scanReissueFloor <;> simp_all [holders, requeueDispatch]

theorem Single.holders_take (single : o.Single) (hq : o.failedScanRetry = some retry) :
    { o with schedulerDispatchRetry := some retry, failedScanRetry := none }.holders =
      o.holders := by
  simp only [Single, holders, hq] at single
  cases ha : o.session.bind attempt <;> cases hd : o.schedulerDispatchRetry <;>
    cases hf : o.scanReissueFloor <;> simp_all [holders]

theorem holders_postpone (due : Nat → Nat) : ({ o with
      failedScanRetry := o.failedScanRetry.map fun retry : FailedScanRetry =>
        { retry with due := due retry.due } } : Owners).holders = o.holders := by
  simp [holders, Function.comp_def]

theorem holders_claim (floor : o.scanReissueFloor = none) (session : VolumeSession) (kind : Bool) :
    (o.claimActiveAttemptLocked session kind).holders = [kind] := by
  simp [holders, claimActiveAttemptLocked, attempt, floor]

theorem holders_merge (empty : o.holders = []) (retry : FailedScanRetry) :
    (o.mergeDurableFloorLocked retry).holders = [retry.reconciliation] := by
  simp only [holders, List.append_eq_nil_iff, Option.toList_eq_nil_iff, Option.map_eq_none_iff]
    at empty
  simp [holders, mergeDurableFloorLocked, empty]

theorem holders_install (empty : o.holders = []) (active : Bool) (retry : FailedScanRetry) :
    (o.installNonAuthoritativeRetryLocked active retry).holders = [retry.reconciliation] := by
  simp only [holders, List.append_eq_nil_iff, Option.toList_eq_nil_iff, Option.map_eq_none_iff]
    at empty
  unfold installNonAuthoritativeRetryLocked
  cases active <;> simp [holders, mergeDurableFloorLocked, empty]

/-- An erased session leaves its intent on the floor. -/
theorem Single.holders_eraseSession (single : o.Single) (hs : o.session = some session)
    (now : Nat) : (o.eraseSession session now).holders = o.holders := by
  cases attempt : session.attempt with
  | some kind =>
    obtain ⟨queue, dispatch, floor⟩ := single.of_attempt hs attempt
    obtain ⟨running, rfl⟩ := attempt_eq_some.mp attempt
    simp [holders, eraseSession, transferSessionRetryToFloorLocked, foldDispatch, pendingRetry,
      mergeDurableFloorLocked, hs, attempt, queue, dispatch, floor, running]
  | none =>
    have idle : session.scanInProgress = false := by simpa [VolumeSession.attempt] using attempt
    simp only [Single, holders, hs, Option.bind_some, attempt] at single
    cases hq : o.failedScanRetry <;> cases hd : o.schedulerDispatchRetry <;>
      cases hf : o.scanReissueFloor <;>
      simp_all [holders, eraseSession, transferSessionRetryToFloorLocked, foldDispatch,
        pendingRetry, mergeDurableFloorLocked]

/-- A new session has no attempt in flight. -/
theorem holders_create (gone : o.session = none) (e : Nat) :
    (o.setSession (.fresh e)).holders = o.holders := by
  simp [holders, setSession, gone, attempt, fresh]

/-- Without a session there is nothing connection-scoped to clear. -/
theorem clearConnectionScoped_of_none (queue : o.failedScanRetry = none)
    (dispatch : o.schedulerDispatchRetry = none) : o.clearConnectionScoped = o := by
  obtain ⟨session, queue, dispatch, floor⟩ := o
  simp_all [clearConnectionScoped]

end Owners

/-! ## What a section does to the intent -/

/-- The completion of an attempt was accepted and is being made durable. -/
def Task.settling : Task → Bool
  | .completeCheck _ _ _ | .completeFinish _ _ | .completeRecheck _ _ | .completeMark _ _ _ _
  | .completeTime _ _ _ | .completeRetry _ _ | .completeClear _ _ _ => true
  | _ => false

/-- The thread has claimed a reconciliation whose admission is not over. -/
def Task.admitting : Task → Bool
  | .triggerBegin _ _ | .triggerSend _ _ | .triggerRearm _ _ => true
  | _ => false

/-- The ways in which a section changes holders and verdicts. -/
inductive IntentStep (holders : List Bool) (verdicts : List (Option Bool)) (task task' : Task) :
    List Bool → List (Option Bool) → Prop
  | keep : IntentStep holders verdicts task task' holders verdicts
  | claim (kind : Bool) : task.claims = true → task'.unsent = true →
      (∀ holder ∈ holders, holder ≤ kind) →
      IntentStep holders verdicts task task' [kind] verdicts
  | fail (kind : Bool) : holders = [kind] →
      IntentStep holders verdicts task task' [kind] (some kind :: verdicts)
  | retry (kind : Bool) : holders = [] → task.settling = true → task'.settling = false →
      IntentStep holders verdicts task task' [kind] (some kind :: verdicts)

variable {holders holders' : List Bool} {verdicts' verdicts : List (Option Bool)} {task : Task}

theorem IntentStep.handover {task' : Task}
    (h : IntentStep holders verdicts task task' holders' verdicts') :
    Handover holders verdicts holders' verdicts' := by
  cases h with
  | keep => exact .keep
  | claim kind _ _ bounds => exact .claim kind bounds
  | fail kind held => exact .fail kind (by simp [held])
  | retry kind empty _ _ => exact .fail kind (by simp [empty])

section Sections

variable {env : Env} {c : Core} {task task' : Task} {owners : Owners}
  {verdicts : List (Option Bool)}

/-- Nothing is queued or in dispatch without a session. -/
def Owners.Queued (o : Owners) : Prop :=
  o.session = none → o.failedScanRetry = none ∧ o.schedulerDispatchRetry = none

/-- What the section relies on. -/
structure Task.Intends (task task' : Task) (o : Owners) : Prop where
  single : o.Single
  queued : o.Queued
  /-- An initial scan is not claimed over a reconciliation. -/
  initial : ∀ e row ret, task = .startClaim e row ret → task' = .startSend e row ret →
    true ∉ o.holders
  admitting : task.admitting = true → ∀ session, o.session = some session → session.Reconciling
  settling : task.settling = true → o.holders = []

variable {session : VolumeSession}

theorem VolumeSession.Reconciling.attempt (h : session.Reconciling) :
    session.attempt = some true :=
  attempt_eq_some.mpr h

/-- Erasing the session ends the attempt in flight. -/
theorem Owners.Single.erased (single : c.owners.Single) (hs : c.owners.session = some session) :
    c.verdictsErased session = c.verdicts ∨
      ∃ kind, c.owners.holders = [kind] ∧ c.verdictsErased session = some kind :: c.verdicts := by
  unfold Core.verdictsErased
  split
  · rename_i running
    exact .inr ⟨_, single.holders_of_attempt hs
      (attempt_eq_some.mpr ⟨running, rfl⟩), rfl⟩
  · exact .inl rfl

variable {session' : VolumeSession}

/-- Other flags of the session do not matter. -/
theorem IntentStep.of_session {session : VolumeSession} (hs : c.owners.session = some session)
    (same : session'.attempt = session.attempt) :
    IntentStep c.owners.holders c.verdicts task task' (c.owners.setSession session').holders
      c.verdicts := by
  rw [holders_setSession hs same]
  exact .keep

/-- The attempt in flight ends without authority and its next owner is installed. -/
theorem IntentStep.of_end {session : VolumeSession} (single : c.owners.Single)
    (hs : c.owners.session = some session) (running : session.attempt = some kind)
    (closed : session'.attempt = none) (active : Bool) (due : Nat) :
    IntentStep c.owners.holders c.verdicts task task'
      ((c.owners.setSession session').installNonAuthoritativeRetryLocked active
        ⟨due, kind⟩).holders (some kind :: c.verdicts) := by
  rw [holders_install (single.holders_close hs running closed)]
  exact .fail kind (single.holders_of_attempt hs running)

theorem IntentStep.of_erase (single : c.owners.Single)
    (hs : c.owners.session = some session) (now : Nat) :
    IntentStep c.owners.holders c.verdicts task task' (c.owners.eraseSession session now).holders
      (c.verdictsErased session) := by
  rw [single.holders_eraseSession hs]
  rcases single.erased hs with same | ⟨kind, held, ended⟩
  · rw [same]
    exact .keep
  · rw [ended, held]
    exact .fail kind rfl

section

variable (h : OwnersStep env c task owners verdicts task')

include h

theorem OwnersStep.intent (intends : task.Intends task' c.owners) :
    IntentStep c.owners.holders c.verdicts task task' owners.holders verdicts := by
  have single := intends.single
  have found {e session} := @Core.session_of_find c e session
  cases h with
  | keep _ _ _ => exact .keep
  | journalOpen _ _ _ h | defer _ _ h _ | mark _ h | deferAgain _ h =>
    exact .of_session (found h) rfl
  | startRequeue _ _ _ _ _ floor _ | triggerRequeue _ _ _ floor =>
    rw [single.holders_requeueFloor floor]
    exact .keep
  | claim e row ret _ _ _ floor _ | supersede e row ret _ _ floor _ =>
    rw [holders_claim floor]
    refine .claim false rfl rfl fun holder mem => ?_
    cases holder with
    | false => exact le_rfl
    | true => exact absurd mem (intends.initial e row ret rfl rfl)
  | reconcile _ _ _ _ _ floor _ =>
    rw [holders_claim floor]
    exact .claim true rfl rfl fun holder _ => Bool.le_true holder
  | rearm e ret h =>
    exact .of_end single (found h) (intends.admitting rfl _ (found h)).attempt rfl _ _
  | drop ret h => exact .of_erase single h env.now
  | dropNone ret gone =>
    obtain ⟨queue, dispatch⟩ := intends.queued gone
    rw [clearConnectionScoped_of_none queue dispatch]
    exact .keep
  | retry e kind _ =>
    have empty := intends.settling rfl
    rw [holders_install empty]
    exact .retry kind empty rfl rfl
  | retryFloor e kind _ =>
    have empty := intends.settling rfl
    rw [holders_merge empty]
    exact .retry kind empty rfl rfl
  | clear _ _ _ _ _ =>
    have empty := intends.settling rfl
    have cleared : c.owners.clearRetryOwnerLocked.holders = c.owners.holders := by
      rw [empty]
      simp only [holders, List.append_eq_nil_iff] at empty
      simp [holders, clearRetryOwnerLocked, empty]
    rw [cleared]
    exact .keep
  | adoptGone _ _ held _ | settleFloor _ _ _ _ held _ _ =>
    rw [single.holders_floorDispatch held]
    exact .keep
  | requeue _ held | settleQueue _ _ _ _ held _ _ =>
    rw [single.holders_requeueDispatch held]
    exact .keep
  | settleRunning _ _ _ _ held h running _ =>
    have attempt := attempt_eq_some.mpr ⟨running, rfl⟩
    rw [(single.of_attempt (found h) attempt).2.1] at held
    cases held

/-- A reconciliation stays in flight unless it is superseded or its admission fails. -/
theorem OwnersStep.stays_reconciling
    (initial : ∀ e row ret, task = .startClaim e row ret → task' ≠ .startSend e row ret)
    (rearms : ∀ e ret, task ≠ .triggerRearm e ret)
    (before : ∀ session, c.owners.session = some session → session.Reconciling)
    (hs : owners.session = some session') : session'.Reconciling := by
  have found {e : Nat} {session : VolumeSession} (h : c.find e = some session) :
      session.Reconciling := before session (Core.find_eq_some.mp h).1
  cases h with
  | claim e row ret _ _ _ _ _ | supersede e row ret _ _ _ _ =>
    exact absurd rfl (initial e row ret rfl)
  | rearm e ret _ => exact absurd rfl (rearms e ret)
  | journalOpen _ _ _ h | defer _ _ h _ | mark _ h | deferAgain _ h =>
    cases hs
    exact ⟨(found h).1, (found h).2⟩
  | reconcile _ _ _ _ _ _ _ =>
    cases hs
    exact ⟨rfl, rfl⟩
  | drop _ _ => cases hs
  | dropNone | retry | retryFloor | adoptGone | settleFloor =>
    simp only [clearConnectionScoped_session, mergeDurableFloorLocked_session,
      installNonAuthoritativeRetryLocked_session, floorDispatch_session] at hs
    exact before session' hs
  | _ => exact before session' hs

theorem OwnersStep.queued (queued : c.owners.Queued) : owners.Queued := by
  have found {e : Nat} {session : VolumeSession} (h : c.find e = some session)
      {P : Prop} (gone : c.owners.session = none) : P := by
    rw [(Core.find_eq_some.mp h).1] at gone
    cases gone
  intro gone
  cases h with
  | keep _ _ _ => exact queued gone
  | journalOpen _ _ _ _ | defer _ _ _ _ | mark _ _ | deferAgain _ _ | claim _ _ _ _ _ _ _ _
  | supersede _ _ _ _ _ _ _ | reconcile _ _ _ _ _ _ _ => cases gone
  | rearm _ _ _ =>
    rw [rearmFailedAdmissionLocked, installNonAuthoritativeRetryLocked_session] at gone
    cases gone
  | startRequeue _ _ _ _ h _ _ | triggerRequeue _ _ h _ | settleRunning _ _ _ _ _ h _ _
  | settleQueue _ _ _ _ _ h _ => exact found h gone
  | retry _ _ h =>
    rw [installNonAuthoritativeRetryLocked_session] at gone
    exact found h gone
  | drop _ _ => exact ⟨rfl, rfl⟩
  | dropNone _ none =>
    obtain ⟨queue, dispatch⟩ := queued none
    rw [clearConnectionScoped_of_none queue dispatch]
    exact ⟨queue, dispatch⟩
  | retryFloor _ _ _ =>
    rw [mergeDurableFloorLocked_session] at gone
    unfold mergeDurableFloorLocked
    split <;> exact queued gone
  | clear _ _ _ _ _ => exact ⟨rfl, rfl⟩
  | adoptGone _ _ held _ | settleFloor _ _ _ _ held _ _ =>
    rw [floorDispatch_session] at gone
    rw [(queued gone).2] at held
    cases held
  | requeue _ held =>
    rw [(queued gone).2] at held
    cases held

end

end Sections

/-! ## What a frame does to the intent -/

section Frames

variable {env : Env} {e : Nat} {c : Core} {frame : Frame} {task' : Task} {owners : Owners}
  {verdicts : List (Option Bool)}

/-- The frames that can close an attempt. -/
def Frame.isTerminal : Frame → Bool
  | .scanComplete _ | .scanFailed _ => true
  | _ => false

/-- The ways in which a frame changes holders and verdicts. -/
inductive IntentFrame (holders : List Bool) (verdicts : List (Option Bool)) (task' : Task) :
    List Bool → List (Option Bool) → Prop
  | keep : task'.settling = false → IntentFrame holders verdicts task' holders verdicts
  | fail (kind : Bool) : holders = [kind] → task'.settling = false →
      IntentFrame holders verdicts task' [kind] (some kind :: verdicts)
  | succeed : IntentFrame holders verdicts task' [] (none :: verdicts)

theorem IntentFrame.handover {verdicts : List (Option Bool)} {task' : Task}
    (h : IntentFrame holders verdicts task' holders' verdicts') :
    Handover holders verdicts holders' verdicts' := by
  cases h with
  | keep _ => exact .keep
  | fail kind held _ => exact .fail kind (by simp [held])
  | succeed => exact .succeed

section

variable (h : OwnersFrame env e c frame owners verdicts task')

include h

theorem OwnersFrame.intent (first : frame.First e task') (single : c.owners.Single)
    (unpaused : ∀ a session, frame = .scanComplete a → c.paused = true →
      c.owners.session = some session → session.scanInProgress = true → ¬ session.Clean) :
    IntentFrame c.owners.holders c.verdicts task' owners.holders verdicts := by
  have found {session} := @Core.session_of_find c e session
  have attempt {session : VolumeSession} (running : session.scanInProgress = true) :
      session.attempt = some session.reconciliationScan :=
    attempt_eq_some.mpr ⟨running, rfl⟩
  have erased {session : VolumeSession} (hs : c.owners.session = some session)
      (idle : task'.settling = false) :
      IntentFrame c.owners.holders c.verdicts task'
        (c.owners.eraseSession session env.now).holders (c.verdictsErased session) := by
    rw [single.holders_eraseSession hs]
    rcases single.erased hs with same | ⟨kind, held, ended⟩
    · rw [same]
      exact .keep idle
    · rw [ended, held]
      exact .fail kind rfl idle
  have flags {session session' : VolumeSession} (h : c.find e = some session)
      (same : session'.attempt = session.attempt) (idle : task'.settling = false) :
      IntentFrame c.owners.holders c.verdicts task' (c.owners.setSession session').holders
        c.verdicts := by
    rw [holders_setSession (found h) same]
    exact .keep idle
  cases h with
  | keep _ _ other =>
    refine .keep ?_
    cases first with
    | scanComplete a was deferred => exact absurd rfl (other was deferred)
    | _ => rfl
  | dropped _ _ _ h | released _ h _ _ | opened _ _ _ h => exact flags h rfl rfl
  | completedLost _ h running _ _ | failed _ h running _ =>
    rw [holders_install (single.holders_close (found h) (attempt running) rfl)]
    exact .fail _ (single.holders_of_attempt (found h) (attempt running)) rfl
  | completedPaused a h running clean paused =>
    exact absurd clean (unpaused a _ rfl paused (found h) running)
  | accepted a h running _ _ =>
    rw [single.holders_close (found h) (attempt running) rfl]
    exact .succeed
  | retired _ hs _ => exact erased hs rfl
  | created gone _ _ =>
    rw [holders_create gone]
    exact .keep rfl
  | replaced hs _ _ _ =>
    rw [holders_create rfl]
    exact erased hs rfl

/-- Only a terminal ends a reconciliation in flight, and only a new session is not
one. -/
theorem OwnersFrame.stays_reconciling (terminal : frame.isTerminal = false)
    (creates : frame = .volumeList true → c.find e ≠ none)
    (before : ∀ session, c.owners.session = some session → session.Reconciling)
    (hs : owners.session = some session') : session'.Reconciling := by
  rcases h.session hs with ⟨session, hcore, change⟩ | ⟨rfl, gone, -⟩
  · have running := before session hcore
    cases change with
    | completed _ _ _ | failed _ _ _ => cases terminal
    | _ => exact ⟨running.1, running.2⟩
  · exact absurd gone (creates rfl)

theorem OwnersFrame.queued (queued : c.owners.Queued) : owners.Queued := by
  intro gone
  cases h with
  | keep _ _ _ => exact queued gone
  | dropped _ _ _ _ | released _ _ _ _ | opened _ _ _ _ | completedPaused _ _ _ _ _
  | accepted _ _ _ _ _ | created _ _ _ | replaced _ _ _ _ => cases gone
  | completedLost _ _ _ _ _ | failed _ _ _ _ =>
    rw [installNonAuthoritativeRetryLocked_session] at gone
    cases gone
  | retired _ _ _ => exact ⟨rfl, rfl⟩

end

end Frames

/-! ## What the other moves do to the intent -/

variable {c : Core} {owners : Owners}

theorem OwnersMove.intent (h : OwnersMove c owners verdicts) (single : c.owners.Single) :
    (owners.holders = c.owners.holders ∧ verdicts = c.verdicts) ∨
      ∃ kind, c.owners.holders = [kind] ∧ owners.holders = [kind] ∧
        verdicts = some kind :: c.verdicts := by
  cases h with
  | keep => exact .inl ⟨rfl, rfl⟩
  | postponed due => exact .inl ⟨holders_postpone due, rfl⟩
  | taken _ queued => exact .inl ⟨single.holders_take queued, rfl⟩
  | retired now hs =>
    rw [single.holders_eraseSession hs]
    rcases single.erased hs with same | ⟨kind, held, ended⟩
    · exact .inl ⟨rfl, same⟩
    · exact .inr ⟨kind, held, held, ended⟩

theorem OwnersMove.queued (h : OwnersMove c owners verdicts) (queued : c.owners.Queued) :
    owners.Queued := by
  intro gone
  cases h with
  | keep => exact queued gone
  | postponed _ => exact ⟨by simp [(queued gone).1], (queued gone).2⟩
  | taken hs _ =>
    cases hs.symm.trans gone
  | retired _ _ => exact ⟨rfl, rfl⟩

/-! ## The condition on runs -/

/-- The runs in which an intent is never dropped:

* an initial scan is not claimed while a reconciliation is in flight or in dispatch;
* nothing is claimed while the reader makes a completion durable;
* no completion that would have authority arrives while the volume is paused;
* no terminal arrives, and no session is created, while a reconciliation is being
  admitted. -/
def IntentGuarded (s : VolumeState) : Action → Prop
  | .run t env =>
    ((s.threads t).claims = true → ((s.threads t).run env s.core).2.unsent = true →
      (s.threads .reader).settling = false) ∧
    ∀ e row ret, s.threads t = .startClaim e row ret →
      ((s.threads t).run env s.core).2 = .startSend e row ret → true ∉ s.core.owners.holders
  | .deliver _ =>
    ∀ e frame core, s.core.takeFrame = some (e, frame, core) →
      (frame.isTerminal = true ∨ (frame = .volumeList true ∧ core.find e = none) →
        ∀ t, (s.threads t).admitting = false) ∧
      ∀ a session, frame = .scanComplete a → core.paused = true →
        core.owners.session = some session → session.scanInProgress = true → ¬ session.Clean
  | _ => True

/-! ## The invariant -/

/-- The invariant behind owed work. -/
structure IntentKept (s : VolumeState) : Prop where
  owned : s.Owned
  kept : Kept s.core.owners.holders s.core.verdicts
  queued : s.core.owners.Queued
  settling : (s.threads .reader).settling = true →
    s.core.owners.holders = [] ∧ owed s.core.verdicts = none
  admitting : ∀ t, (s.threads t).admitting = true →
    ∀ session, s.core.owners.session = some session → session.Reconciling
  alone : ∀ t u, (s.threads t).admitting = true → (s.threads u).admitting = true →
    s.core.owners.session.isSome = true → t = u

section Moves

variable {volume : Volume} {s s' : VolumeState} {a : Action}

theorem IntentKept.single (inv : IntentKept s) : s.core.owners.Single := inv.kept.single

variable {t : ThreadId}

/-- A settling thread is the reader. -/
theorem VolumeState.Owned.settling (owned : s.Owned)
    (h : (s.threads t).settling = true) : t = .reader := by
  refine owned.reader ?_
  cases task : s.threads t <;> rw [task] at h <;> first | rfl | cases h

variable {env : Env}

theorem IntentKept.intends (inv : IntentKept s) (ok : IntentGuarded s (.run t env)) :
    (s.threads t).Intends ((s.threads t).run env s.core).2 s.core.owners where
  single := inv.single
  queued := inv.queued
  initial := ok.2
  admitting := inv.admitting t
  settling := fun h => by
    have ht := inv.owned.settling h
    subst ht
    exact (inv.settling h).1

variable {e : Nat} {core : Core} {frame : Frame}

theorem Core.verdicts_takeFrame (taken : c.takeFrame = some (e, frame, core)) :
    core.verdicts = c.verdicts := by
  rw [verdicts, (recorded_takeFrame taken).1, verdicts]

/-- What a frame does to the intent of the whole state. -/
theorem IntentKept.intent_deliver (inv : IntentKept s)
    (taken : s.core.takeFrame = some (e, frame, core)) (ok : IntentGuarded s (.deliver env)) :
    IntentFrame s.core.owners.holders s.core.verdicts (frame.receive env e core).2
      (frame.receive env e core).1.owners.holders (frame.receive env e core).1.verdicts := by
  have books := Core.SameBooks.takeFrame taken
  have single : core.owners.Single := books.owners ▸ inv.single
  have intent := frame.owners_receive.intent (frame.receive_first env e core) single
    (ok e frame core taken).2
  rw [books.owners, Core.verdicts_takeFrame taken] at intent
  exact intent

theorem IntentKept.kept_moved (inv : IntentKept s) (moved : Moved volume s a s')
    (ok : IntentGuarded s a) : Kept s'.core.owners.holders s'.core.verdicts := by
  have other {core : Core} (h : OwnersMove s.core core.owners core.verdicts) :
      Kept core.owners.holders core.verdicts := by
    rcases h.intent inv.single with ⟨holders, verdicts⟩ | ⟨kind, held, holders, verdicts⟩
    · rw [holders, verdicts]
      exact inv.kept
    · rw [holders, verdicts]
      exact inv.kept.handover (.fail kind (by simp [held]))
  cases moved with
  | run t env _ =>
    exact inv.kept.handover ((s.threads t).owners_run.intent (inv.intends ok)).handover
  | deliver env _ taken => exact inv.kept.handover (inv.intent_deliver taken ok).handover
  | spawn _ spawned => exact other spawned.owners
  | core move => exact other move.owners

theorem IntentKept.queued_moved (inv : IntentKept s) (moved : Moved volume s a s') :
    s'.core.owners.Queued := by
  cases moved with
  | run t env _ => exact (s.threads t).owners_run.queued inv.queued
  | @deliver env e frame core _ taken =>
    have queued : core.owners.Queued := (Core.SameBooks.takeFrame taken).owners ▸ inv.queued
    exact frame.owners_receive.queued queued
  | spawn _ spawned => exact spawned.owners.queued inv.queued
  | core move => exact move.owners.queued inv.queued

variable {task' : Task}

theorem Task.Next.settling (next : task.Next task') (h : task'.settling = true) :
    task.settling = true := by
  cases next with
  | completeCheck_pass | completeCheck | completeFinish | completeRecheck_failed
  | completeRecheck | completeMark_failed | completeMark_finalized | completeMark
  | completeTime_failed | completeTime => rfl
  | _ => first | cases h | cases ‹Continuation› <;> cases h | cases ‹Bool› <;> cases h

theorem IntentKept.settling_moved (inv : IntentKept s) (moved : Moved volume s a s')
    (ok : IntentGuarded s a) (h : (s'.threads .reader).settling = true) :
    s'.core.owners.holders = [] ∧ owed s'.core.verdicts = none := by
  have other {core : Core} (was : (s.threads .reader).settling = true)
      (h : OwnersMove s.core core.owners core.verdicts) :
      core.owners.holders = [] ∧ owed core.verdicts = none := by
    rcases h.intent inv.single with ⟨holders, verdicts⟩ | ⟨kind, held, -, -⟩
    · rw [holders, verdicts]
      exact inv.settling was
    · rw [(inv.settling was).1] at held
      cases held
  have reader := moved.readerMove
  cases moved with
  | run t env _ =>
    have was : (s.threads .reader).settling = true := by
      cases reader with
      | rest same => exact same ▸ h
      | run =>
        rw [advance_threads_self] at h
        exact ((s.threads .reader).run_next env s.core).settling h
    obtain ⟨empty, none⟩ := inv.settling was
    have intent := (s.threads t).owners_run.intent (inv.intends ok)
    rw [advance_core]
    generalize ((s.threads t).run env s.core).1.owners.holders = holders' at intent ⊢
    generalize ((s.threads t).run env s.core).1.verdicts = verdicts' at intent ⊢
    cases intent with
    | keep => exact ⟨empty, none⟩
    | claim kind claims unsent _ =>
      rw [ok.1 claims unsent] at was
      cases was
    | fail kind held =>
      rw [empty] at held
      cases held
    | retry kind _ settles done =>
      -- the retry was the reader's own last section
      have ht := inv.owned.settling settles
      subst ht
      rw [advance_threads_self, done] at h
      cases h
  | @deliver env e frame core free taken =>
    rw [advance_threads_self] at h
    have intent := inv.intent_deliver taken ok
    rw [advance_core]
    generalize (frame.receive env e core).1.owners.holders = holders' at intent ⊢
    generalize (frame.receive env e core).1.verdicts = verdicts' at intent ⊢
    cases intent with
    | keep idle | fail _ _ idle =>
      rw [idle] at h
      cases h
    | succeed => exact ⟨rfl, rfl⟩
  | @spawn a t result free spawned =>
    rw [advance_threads_of_ne spawned.ne_reader] at h
    exact other h spawned.owners
  | core move => exact other h move.owners

/-- A thread begins to admit a reconciliation by claiming it. -/
theorem Task.Next.admitting (next : task.Next task') (h : task'.admitting = true) :
    (task.admitting = true ∧ ∀ e ret, task ≠ .triggerRearm e ret) ∨
      (∃ e ret, task = .triggerClaim e ret) ∧ task'.unsent = true := by
  cases next with
  | triggerClaim e ret => exact .inr ⟨⟨e, ret, rfl⟩, rfl⟩
  | triggerBegin _ _ | triggerSend_failed _ _ => exact .inl ⟨rfl, by simp⟩
  | _ => first | cases h | cases ‹Continuation› <;> cases h | cases ‹Bool› <;> cases h

theorem Moved.admitting (moved : Moved volume s a s') (h : (s'.threads t).admitting = true) :
    ((s.threads t).admitting = true ∧
        ∀ env e ret, a = .run t env → s.threads t ≠ .triggerRearm e ret) ∨
      ∃ env, a = .run t env ∧ (∃ e ret, s.threads t = .triggerClaim e ret) ∧
        ((s.threads t).run env s.core).2.unsent = true := by
  by_cases runs : ∃ env, a = .run t env
  · obtain ⟨env, rfl⟩ := runs
    rw [moved.run_eq, advance_threads_self] at h
    rcases ((s.threads t).run_next env s.core).admitting h with ⟨was, other⟩ | ⟨claim, unsent⟩
    · exact .inl ⟨was, fun _ e ret _ => other e ret⟩
    · exact .inr ⟨env, rfl, claim, unsent⟩
  · refine .inl ⟨?_, fun env _ _ ha => absurd ⟨env, ha⟩ runs⟩
    have move := moved.threadMove t
    generalize s'.threads t = task' at move h
    cases move with
    | rest => exact h
    | run env ha => exact absurd ⟨env, ha⟩ runs
    | first _ first => cases first <;> cases h
    | started _ started => cases started <;> cases h

variable {session' : VolumeSession}

/-- A reconciliation is claimed for a session without an attempt in flight. -/
theorem OwnersStep.admits {ret : Continuation} {verdicts : List (Option Bool)}
    (h : OwnersStep env c (.triggerClaim e ret) owners verdicts task')
    (unsent : task'.unsent = true) (hs : owners.session = some session') :
    session'.Reconciling ∧
      ∃ session, c.owners.session = some session ∧ session.scanInProgress = false := by
  cases h with
  | keep _ _ claims => cases claims unsent
  | defer _ _ _ _ | triggerRequeue _ _ _ _ =>
    rw [Continuation.unsent_resume] at unsent
    cases unsent
  | reconcile _ _ found idle _ _ _ =>
    cases hs
    exact ⟨⟨rfl, rfl⟩, _, (Core.find_eq_some.mp found).1, idle⟩

variable {u : ThreadId}

theorem IntentKept.admitting_run (inv : IntentKept s) {t : ThreadId}
    (ok : IntentGuarded s (.run u env)) (was : (s.threads t).admitting = true)
    (rearms : t = u → ∀ e ret, s.threads t ≠ .triggerRearm e ret)
    (hs : ((s.threads u).run env s.core).1.owners.session = some session') :
    session'.Reconciling := by
  obtain ⟨session, before, -⟩ := Task.session_run hs
  refine (s.threads u).owners_run.stays_reconciling ?_ ?_ (inv.admitting t was) hs
  · -- an initial scan would be claimed over the reconciliation
    intro e row ret task target
    refine ok.2 e row ret task target ?_
    rw [inv.single.holders_of_attempt before (inv.admitting t was session before).attempt]
    exact .head _
  · intro e ret task
    have admits : (s.threads u).admitting = true := by rw [task]; rfl
    have same := inv.alone t u was admits (by rw [before]; rfl)
    subst same
    exact rearms rfl e ret task

theorem IntentKept.admitting_moved (inv : IntentKept s) (moved : Moved volume s a s')
    (ok : IntentGuarded s a) (h : (s'.threads t).admitting = true)
    (hs : s'.core.owners.session = some session') :
    session'.Reconciling := by
  rcases moved.admitting h with ⟨was, rearms⟩ | ⟨env, rfl, ⟨e, ret, task⟩, unsent⟩
  · cases moved with
    | run u env _ =>
      refine inv.admitting_run ok was (fun same e ret => ?_) hs
      subst same
      exact rearms env e ret rfl
    | @deliver env e frame core _ taken =>
      have calm := (ok e frame core taken).1
      have owners := (Core.SameBooks.takeFrame taken).owners
      have busy {P : Prop} (none : ∀ u, (s.threads u).admitting = false) : P := by
        rw [none t] at was
        cases was
      refine frame.owners_receive.stays_reconciling ?_ ?_
        (fun session hs => inv.admitting t was session (owners ▸ hs)) hs
      · exact Bool.eq_false_iff.mpr fun terminal => busy (calm (.inl terminal))
      · exact fun listed gone => busy (calm (.inr ⟨listed, gone⟩))
    | spawn _ spawned => exact inv.admitting t was session' (spawned.owners.session hs)
    | core move => exact inv.admitting t was session' (move.session hs)
  · obtain rfl := moved.run_eq
    have step : OwnersStep env s.core (s.threads t) _ _ _ := (s.threads t).owners_run
    generalize (s.threads t).run env s.core = result at *
    rw [task] at step
    exact (step.admits unsent hs).1

/-- No session is created while a reconciliation is being admitted. -/
theorem IntentKept.session_before (moved : Moved volume s a s')
    (ok : IntentGuarded s a) (was : (s.threads t).admitting = true)
    (hs : s'.core.owners.session = some session') :
    s.core.owners.session.isSome = true := by
  have some {session : VolumeSession} (h : s.core.owners.session = some session) :
      s.core.owners.session.isSome = true := by rw [h]; rfl
  cases moved with
  | run u env _ =>
    obtain ⟨session, before, -⟩ := Task.session_run hs
    exact some before
  | @deliver env e frame core _ taken =>
    rcases Frame.session_receive hs with ⟨session, hcore, -⟩ | ⟨listed, gone, -⟩
    · exact some ((Core.SameBooks.takeFrame taken).owners ▸ hcore)
    · rw [(ok e frame core taken).1 (.inr ⟨listed, gone⟩) t] at was
      cases was
  | spawn _ spawned => exact some (spawned.owners.session hs)
  | core move => exact some (move.session hs)

/-- Nothing is claimed while another thread admits a reconciliation. -/
theorem IntentKept.not_claimed (inv : IntentKept s) (moved : Moved volume s a s') {t : ThreadId}
    (ha : a = .run t env) (claim : ∃ e ret, s.threads t = .triggerClaim e ret)
    (unsent : ((s.threads t).run env s.core).2.unsent = true) (was : (s.threads u).admitting = true)
    (hs : s'.core.owners.session = some session') : False := by
  subst ha
  obtain ⟨e, ret, task⟩ := claim
  obtain rfl := moved.run_eq
  have step : OwnersStep env s.core (s.threads t) _ _ _ := (s.threads t).owners_run
  generalize (s.threads t).run env s.core = result at *
  rw [task] at step
  obtain ⟨-, session, before, idle⟩ := step.admits unsent hs
  rw [(inv.admitting u was session before).1] at idle
  cases idle

theorem IntentKept.alone_moved (inv : IntentKept s) (moved : Moved volume s a s')
    (ok : IntentGuarded s a) {t : ThreadId} (ht : (s'.threads t).admitting = true)
    (hu : (s'.threads u).admitting = true) (some : s'.core.owners.session.isSome = true) :
    t = u := by
  obtain ⟨session', hs⟩ := Option.isSome_iff_exists.mp some
  rcases moved.admitting ht with ⟨wasT, -⟩ | ⟨env, runT, claimT, unsentT⟩
  · rcases moved.admitting hu with ⟨wasU, -⟩ | ⟨env, runU, claimU, unsentU⟩
    · exact inv.alone t u wasT wasU (IntentKept.session_before moved ok wasT hs)
    · exact (inv.not_claimed moved runU claimU unsentU wasT hs).elim
  · rcases moved.admitting hu with ⟨wasU, -⟩ | ⟨env', runU, -, -⟩
    · exact (inv.not_claimed moved runT claimT unsentT wasU hs).elim
    · rw [runT] at runU
      cases runU
      rfl

end Moves

/-! ## All runs -/

theorem IntentKept.initial (journal : Journal) : IntentKept (.initial journal) where
  owned := nofun
  kept := ⟨Nat.zero_le 1, nofun⟩
  queued := fun _ => ⟨rfl, rfl⟩
  settling := nofun
  admitting := nofun
  alone := nofun

/-- **One guarded move keeps the invariant.** -/
theorem IntentKept.moved {volume : Volume} {s s' : VolumeState} {a : Action}
    (inv : IntentKept s) (moved : Moved volume s a s') (ok : IntentGuarded s a) :
    IntentKept s' where
  owned := inv.owned.moved moved
  kept := inv.kept_moved moved ok
  queued := inv.queued_moved moved
  settling := inv.settling_moved moved ok
  admitting _ h _ hs := inv.admitting_moved moved ok h hs
  alone _ _ ht hu some := inv.alone_moved moved ok ht hu some

/-- **Owed scan work is never lost.**  In every guarded run of any number of volumes:
whenever an attempt of a volume ended without authority and no authoritative
completion has happened since, exactly one of the attempt in flight, the queued
retry, the scheduler's dispatch and the durable floor holds the work, and as a
reconciliation if one is owed. -/
theorem retryIntent_kept {ι : Type} (volumes : ι → Volume) {s : ι → VolumeState}
    (reach : Family (fun i => step (volumes i)) Initial IntentGuarded s) (i : ι) {kind : Bool}
    (due : owed (s i).core.verdicts = some kind) :
    ∃ holder, (s i).core.owners.holders = [holder] ∧ (kind = true → holder = true) := by
  have inv : IntentKept (s i) := by
    refine (reach.component i).invariant ?_ ?_
    · rintro _ ⟨journal, rfl⟩
      exact .initial journal
    · intro s a s' inv ok h
      exact inv.moved (step_moved h) ok
  obtain ⟨holder, held, le⟩ := inv.kept.held kind due
  exact ⟨holder, held, fun h => Bool.eq_true_of_true_le (h ▸ le)⟩

/-! ### Two runs -/

/-- The reconciliation fails. -/
def failedReconciliation : List Action :=
  reconciliationRequested ++ [.scanFailed, .deliver (.good 0), .deliver (.good 0)]

/-- The reconciliation completes just after the volume was paused. -/
def pausedReconciliation : List Action :=
  List.flatten
    [reconciliationRequested, [.scanBatch 3 8, .scanComplete, .deliver (.good 0)],
      readBatch (.good 0), [.setIndexingPaused true, .deliver (.good 0)]]

/-- A decidable condition that implies `IntentGuarded` while no thread of the UI server
is inside the manager. -/
def intentGuardedCheck (s : VolumeState) : Action → Bool
  | .run t _ =>
    match s.threads t with
    | .startClaim _ _ _ =>
      !(s.threads .reader).settling && !s.core.owners.holders.contains true
    | .triggerClaim _ _ => !(s.threads .reader).settling
    | _ => true
  | .deliver _ =>
    match s.core.takeFrame with
    | some (_, _, core) =>
      !core.paused && [.reader, .scheduler, .lifecycle].all fun u => !(s.threads u).admitting
    | none => true
  | .resume _ _ => false
  | _ => true

theorem intentGuarded_of_check (s : VolumeState) (a : Action) (idle : s.Unattended)
    (h : intentGuardedCheck s a = true) : IntentGuarded s a := by
  cases a with
  | run t env =>
    constructor
    · intro claims _
      cases task : s.threads t with
      | startClaim _ _ _ =>
        simp only [intentGuardedCheck, task, Bool.and_eq_true, Bool.not_eq_true'] at h
        exact h.1
      | triggerClaim _ _ => simpa [intentGuardedCheck, task] using h
      | _ => rw [task] at claims; cases claims
    · intro e row ret task _
      simp only [intentGuardedCheck, task, Bool.and_eq_true, Bool.not_eq_true'] at h
      simpa using h.2
  | deliver env =>
    intro e frame core taken
    simp only [intentGuardedCheck, taken, List.all_cons, List.all_nil, Bool.and_true,
      Bool.and_eq_true, Bool.not_eq_true'] at h
    refine ⟨fun _ u => ?_, fun _ _ _ paused => ?_⟩
    · cases u with
      | reader => exact h.2.1
      | scheduler => exact h.2.2.1
      | lifecycle => exact h.2.2.2
      | control n => rw [idle n]; rfl
    · rw [h.1] at paused
      cases paused
  | _ => trivial

/-- A reconciliation that fails is owed, and the queue holds it. -/
theorem retryIntent_kept_failed :
    ∃ s : Unit → VolumeState,
      Family (fun _ => step ⟨3⟩) Initial IntentGuarded s ∧ owed (s ()).core.verdicts = some true ∧
        ∃ holder, (s ()).core.owners.holders = [holder] ∧ (true = true → holder = true) := by
  have exec : (run (fun s a => if intentGuardedCheck s a then step ⟨3⟩ s a else none)
      (.initial ⟨1, 0⟩) failedReconciliation).map (fun s => owed s.core.verdicts) =
        some (some true) := by
    decide +kernel
  obtain ⟨t, exec, due⟩ := Option.map_eq_some_iff.mp exec
  have reach : Family (fun _ : Unit => step ⟨3⟩) Initial IntentGuarded fun _ => t :=
    .of_component (.of_checked_run intentGuarded_of_check
      (fun _ _ _ idle checked h => idle.moved (step_moved h) (by rintro _ _ rfl; cases checked))
      (.start ⟨_, rfl⟩) (fun _ => rfl) exec)
  exact ⟨fun _ => t, reach, due, retryIntent_kept (fun _ => ⟨3⟩) reach () due⟩

/-- **A lost intent.**  The reconciliation of a configured volume completed while the
volume was paused: it ended without authority, and nobody holds it. -/
theorem retryIntent_lost_while_paused :
    ∃ s : Unit → VolumeState,
      Family (fun _ => step ⟨3⟩) Initial (fun _ _ => True) s ∧
        (s ()).core.configured = some true ∧ owed (s ()).core.verdicts = some true ∧
        ¬ ∃ holder, (s ()).core.owners.holders = [holder] := by
  have exec : (run (step ⟨3⟩) (.initial ⟨1, 0⟩) pausedReconciliation).map
      (fun s => (s.core.configured, owed s.core.verdicts, s.core.owners.holders)) =
        some (some true, some true, []) := by
    decide +kernel
  obtain ⟨t, exec, result⟩ := Option.map_eq_some_iff.mp exec
  obtain ⟨configured, rest⟩ := Prod.mk.inj result
  obtain ⟨due, lost⟩ := Prod.mk.inj rest
  refine ⟨fun _ => t, .of_component (.of_run (.start ⟨_, rfl⟩) exec), configured, due, ?_⟩
  rintro ⟨holder, held⟩
  rw [lost] at held
  cases held

end FastFiles.Manager
