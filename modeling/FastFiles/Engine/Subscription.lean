import FastFiles.Foundations.Transition

/-!
# Subscribing to generations

The `Subscribe` case of `UiServer::HandleConnection` for one client, beside any number of calls of
`RepublishAndBroadcastGeneration`, `BroadcastEngineStatus` and `BroadcastDirectoryError`.  What is
done under a mutex is one step, and so are a read of the generation and a write of a frame.  A call
of the first kind goes by the generation it commits; one that fails to commit announces nothing, and
the directory error that may follow it is a call of its own.  The client subscribes before it asks
for anything else, so no reply to it is under way.

All three kinds copy the list of subscribers under its mutex and write to the copy.  The client is
registered before its acknowledgement is built and written, so a call that copies the list in
between may write to the client first (`announcement_overtakes_ack`).  Nothing else can:
`subscription_order` has the acknowledgement as the first frame in all runs in which nobody copies
the list between the two, and in every run no later generation is missed.
-/

namespace FastFiles.Engine

open Transition Function

/-- The frames that are written to a subscriber. -/
inductive SubscriberFrame where
  | subscribeAck (generation : Nat)
  | engineStatus
  | newGeneration (generation : Nat)
  | directoryError

/-- A call that writes to all subscribers. -/
inductive Broadcast where
  /-- `RepublishAndBroadcastGeneration`, by the generation it commits. -/
  | generation (number : Nat)
  /-- `BroadcastEngineStatus`, of `SetEngineStatus`. -/
  | status (call : Nat)
  /-- `BroadcastDirectoryError`, of `OnDirectoryChanged` when it could not publish. -/
  | error (call : Nat)
  deriving DecidableEq

namespace Broadcast

/-- What a call writes. -/
def frame : Broadcast → SubscriberFrame
  | .generation number => .newGeneration number
  | .status _ => .engineStatus
  | .error _ => .directoryError

/-- The calls that commit nothing. -/
def isNotice : Broadcast → Bool
  | .generation _ => false
  | _ => true

end Broadcast

/-- Where the handler of `Subscribe` stands. -/
inductive SubscribeHandler where
  | idle
  | registered
  /-- The payload of the acknowledgement has this generation. -/
  | built (generation : Nat)
  | acked (generation : Nat)
  | disconnected
  deriving DecidableEq

namespace SubscribeHandler

/-- The generation that was acknowledged. -/
def acknowledged : SubscribeHandler → Option Nat
  | .acked generation => some generation
  | _ => none

/-- The generation that was read for the acknowledgement. -/
def read : SubscribeHandler → Option Nat
  | .built generation | .acked generation => some generation
  | _ => none

/-- The client is on the list and its acknowledgement is not written yet. -/
def pending : SubscribeHandler → Bool
  | .registered | .built _ => true
  | _ => false

end SubscribeHandler

/-- Where a call stands. -/
inductive BroadcastStage where
  | unbegun
  | begun
  /-- The list of subscribers was copied, with the client or without. -/
  | copied (listed : Bool)
  | returned
  deriving DecidableEq

/-- The server as far as one client is concerned. -/
structure Subscription where
  generation : Nat := 0
  subscribed : Bool := false
  handler : SubscribeHandler := .idle
  calls : Broadcast → BroadcastStage := fun _ => .unbegun
  /-- The frames written to the client. -/
  frames : List SubscriberFrame := []
  /-- History: a write to the client failed. -/
  failed : Bool := false

/-- The generation in an acknowledgement and whether a call lists the client are those of the
state. -/
inductive SubscriptionAction where
  | subscribe
  | build
  | ack (generation : Nat) (written : Bool)
  /-- The handler's own `BroadcastEngineStatus`, to this client alone. -/
  | status (generation : Nat) (written : Bool)
  | commit
  /-- A call that commits nothing begins. -/
  | notice (call : Broadcast)
  | copy (call : Broadcast)
  | write (call : Broadcast) (listed written : Bool)

namespace Subscription

def step (s : Subscription) : SubscriptionAction → Option Subscription
  | .subscribe =>
    if s.handler = .idle then
      some (if s.generation = 0 then { s with handler := .disconnected }
        else { s with subscribed := true, handler := .registered })
    else none
  | .build =>
    if s.handler = .registered then some { s with handler := .built s.generation } else none
  | .ack generation written =>
    if s.handler = .built generation then
      some (if written then
          { s with handler := .acked generation, frames := s.frames ++ [.subscribeAck generation] }
        else { s with subscribed := false, handler := .disconnected, failed := true })
    else none
  | .status generation written =>
    if s.handler = .acked generation then
      some (if written then { s with frames := s.frames ++ [.engineStatus] }
        else { s with failed := true })
    else none
  | .commit =>
    some { s with
      generation := s.generation + 1
      calls := update s.calls (.generation (s.generation + 1)) .begun }
  | .notice call =>
    if call.isNotice = true ∧ s.calls call = .unbegun then
      some { s with calls := update s.calls call .begun }
    else none
  | .copy call =>
    if s.calls call = .begun then
      some { s with calls := update s.calls call (.copied s.subscribed) }
    else none
  | .write call listed written =>
    if s.calls call = .copied listed then
      let calls := update s.calls call .returned
      some (if !listed then { s with calls }
        else if written then { s with calls, frames := s.frames ++ [call.frame] }
        else { s with calls, subscribed := false, failed := true })
    else none

/-! ## No generation is missed -/

/-- The invariant behind the announcements. -/
structure Sound (s : Subscription) : Prop where
  later : ∀ number, s.generation < number → s.calls (.generation number) = .unbegun
  registered : s.handler.pending = true ∨ s.handler.read ≠ none →
    s.subscribed = true ∨ s.failed = true
  /-- A call is going to announce its generation, or has done so. -/
  covered : ∀ generation ∈ s.handler.read, ∀ number, generation < number → s.failed = false →
    s.calls (.generation number) ≠ .copied false ∧
      (s.calls (.generation number) = .returned → .newGeneration number ∈ s.frames)

variable {s s' : Subscription}

attribute [local grind] SubscribeHandler.acknowledged SubscribeHandler.read
  SubscribeHandler.pending Broadcast.frame Broadcast.isNotice
attribute [local grind =] update_apply
attribute [local grind cases] Sound

theorem Sound.step (sound : s.Sound) {action : SubscriptionAction}
    (moved : s.step action = some s') : s'.Sound := by
  unfold Subscription.step at moved
  cases action with
  | subscribe =>
    obtain ⟨stands, rfl⟩ := of_guarded moved
    split_ifs
    · refine ⟨sound.later, ?_, ?_⟩ <;> grind
    · refine ⟨sound.later, fun _ => .inl rfl, ?_⟩
      grind
  | build =>
    -- what is committed from here on is later than the generation that is read
    obtain ⟨stands, rfl⟩ := of_guarded moved
    refine ⟨sound.later, ?_, ?_⟩ <;> grind
  | ack generation written =>
    obtain ⟨stands, rfl⟩ := of_guarded moved
    split_ifs
    · refine ⟨sound.later, ?_, ?_⟩ <;> grind
    · refine ⟨sound.later, fun _ => .inr rfl, ?_⟩
      grind
  | status generation written =>
    obtain ⟨stands, rfl⟩ := of_guarded moved
    split_ifs
    · refine ⟨sound.later, sound.registered, ?_⟩
      grind
    · refine ⟨sound.later, fun _ => .inr rfl, ?_⟩
      grind
  | commit =>
    cases moved
    refine ⟨?_, sound.registered, ?_⟩ <;> grind
  | notice call =>
    obtain ⟨stands, rfl⟩ := of_guarded moved
    refine ⟨?_, sound.registered, ?_⟩ <;> grind
  | copy call =>
    -- behind the read of the generation the client is on the list
    obtain ⟨stands, rfl⟩ := of_guarded moved
    refine ⟨?_, sound.registered, ?_⟩ <;> grind
  | write call listed written =>
    obtain ⟨stands, rfl⟩ := of_guarded moved
    split_ifs
    · refine ⟨?_, sound.registered, ?_⟩ <;> grind
    · refine ⟨?_, sound.registered, ?_⟩ <;> grind
    · refine ⟨?_, fun _ => .inr rfl, ?_⟩ <;> grind

/-! ## The first frame -/

/-- Nobody copies the list of subscribers between the registration of the client and its
acknowledgement. -/
def CopiesApart (s : Subscription) : SubscriptionAction → Prop
  | .copy _ => s.handler.pending = false
  | _ => True

/-- The invariant behind the first frame. -/
structure Unannounced (s : Subscription) : Prop where
  absent : s.handler.acknowledged = none → s.handler.pending = false → s.subscribed = false
  /-- Up to the acknowledgement no call has the client on its list. -/
  unlisted : s.handler.acknowledged = none → ∀ call, s.calls call ≠ .copied true
  first : s.frames.head? = s.handler.acknowledged.map .subscribeAck

attribute [local grind cases] Unannounced

theorem Unannounced.step (holds : s.Unannounced) {action : SubscriptionAction}
    (apart : s.CopiesApart action) (moved : s.step action = some s') : s'.Unannounced := by
  -- a frame written behind the acknowledgement is not the first
  have behind (frame : SubscriberFrame) (acked : s.handler.acknowledged ≠ none) :
      (s.frames ++ [frame]).head? = s.frames.head? := by
    rw [List.head?_append, holds.first]
    cases found : s.handler.acknowledged <;> simp_all
  unfold Subscription.step at moved
  cases action with
  | subscribe =>
    obtain ⟨stands, rfl⟩ := of_guarded moved
    split_ifs <;> refine ⟨?_, ?_, ?_⟩ <;> grind
  | build =>
    obtain ⟨stands, rfl⟩ := of_guarded moved
    refine ⟨?_, ?_, ?_⟩ <;> grind
  | ack generation written =>
    obtain ⟨stands, rfl⟩ := of_guarded moved
    split_ifs <;> refine ⟨?_, ?_, ?_⟩ <;> grind
  | status generation written =>
    obtain ⟨stands, rfl⟩ := of_guarded moved
    split_ifs
    · exact ⟨holds.absent, holds.unlisted, (behind _ (by simp [stands,
        SubscribeHandler.acknowledged])).trans holds.first⟩
    · exact ⟨holds.absent, holds.unlisted, holds.first⟩
  | commit =>
    cases moved
    refine ⟨holds.absent, ?_, holds.first⟩
    grind
  | notice call =>
    obtain ⟨stands, rfl⟩ := of_guarded moved
    refine ⟨holds.absent, ?_, holds.first⟩
    grind
  | copy call =>
    -- the guard: the client is on the list only behind its acknowledgement
    obtain ⟨stands, rfl⟩ := of_guarded moved
    refine ⟨holds.absent, ?_, holds.first⟩
    grind [CopiesApart]
  | write call listed written =>
    obtain ⟨stands, rfl⟩ := of_guarded moved
    split_ifs
    · refine ⟨holds.absent, ?_, holds.first⟩
      grind
    · refine ⟨holds.absent, ?_, (behind _ ?_).trans holds.first⟩ <;> grind
    · refine ⟨?_, ?_, holds.first⟩ <;> grind

/-- **The order of a subscription.**  If nobody copies the list of subscribers between the
registration of the client and its acknowledgement, the acknowledgement is the first frame.  In
every run, a call that has returned announced its generation to the client if the generation is
later than the acknowledged one and no write failed. -/
theorem subscription_order (s : Subscription) :
    (Reachable step (· = {}) CopiesApart s → ∀ frame ∈ s.frames.head?,
        ∃ generation, s.handler = .acked generation ∧ frame = .subscribeAck generation) ∧
      (Reachable step (· = {}) (fun _ _ => True) s → ∀ acknowledged number,
        s.handler = .acked acknowledged → acknowledged < number →
        s.calls (.generation number) = .returned →
        .newGeneration number ∈ s.frames ∨ s.failed = true) := by
  constructor
  · intro reach frame head
    have holds : s.Unannounced := reach.invariant
      (fun _ start => start ▸ ⟨fun _ _ => rfl, by simp, rfl⟩)
      fun _ _ _ holds apart moved => holds.step apart moved
    rw [holds.first] at head
    cases stands : s.handler <;> simp_all [SubscribeHandler.acknowledged]
  · intro reach acknowledged number acked above returned
    have sound : s.Sound := reach.always
      ⟨fun _ _ => rfl, by simp [SubscribeHandler.read, SubscribeHandler.pending],
        by simp [SubscribeHandler.read]⟩ Sound.step
    have covered := sound.covered acknowledged (acked ▸ rfl) number above
    exact or_iff_not_imp_right.mpr fun alive => (covered (eq_false_of_ne_true alive)).2 returned

/-- A status call has copied the list before the client came and writes in between, to others; the
second generation is announced behind the acknowledgement. -/
theorem subscription_order_once : ∃ s : Subscription, s.handler = .acked 1 ∧
    (∃ frame ∈ s.frames.head?, ∃ generation,
      s.handler = .acked generation ∧ frame = .subscribeAck generation) ∧
    (.newGeneration 2 ∈ s.frames ∨ s.failed = true) := by
  have before : Reachable step (· = {}) CopiesApart _ :=
    .next (a := .copy (.status 0)) (.next (a := .notice (.status 0)) (.next (a := .commit)
      (.start rfl) trivial rfl) trivial rfl) rfl rfl
  have acked : Reachable step (· = {}) CopiesApart _ :=
    .next (a := .ack 1 true) (.next (a := .build) (.next (a := .write (.status 0) false true)
      (.next (a := .subscribe) before trivial rfl) trivial rfl) trivial rfl) trivial rfl
  have announced : Reachable step (· = {}) CopiesApart _ :=
    .next (a := .write (.generation 2) true true) (.next (a := .copy (.generation 2))
      (.next (a := .commit) acked trivial rfl) rfl rfl) trivial rfl
  have anyhow : Reachable step (· = {}) (fun _ _ => True) _ :=
    announced.invariant (fun _ => Reachable.start) fun _ _ _ reach _ => reach.next trivial
  exact ⟨_, rfl, ⟨_, rfl, (subscription_order _).1 announced _ rfl⟩,
    (subscription_order _).2 anyhow 1 2 rfl (by decide) rfl⟩

/-- The second generation is announced before the acknowledgement. -/
theorem announcement_overtakes_ack :
    ∃ s, Reachable step (· = {}) (fun _ _ => True) s ∧ s.handler = .acked 2 ∧
      s.frames = [.newGeneration 2, .subscribeAck 2] ∧ s.failed = false :=
  ⟨_, .of_run (.start rfl) (show run step {} [.commit, .subscribe, .commit, .copy (.generation 2),
    .write (.generation 2) true true, .build, .ack 2 true] = some _ from rfl), rfl, rfl, rfl⟩

end Subscription

end FastFiles.Engine
