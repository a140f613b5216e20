import FastFiles.Foundations.WorkerStream

/-!
# The client of a worker stream

The client of a shared worker stream numbers its requests, reads the stream from
the front and, for every span, either applies it or loses it.  A `Client` is the
stream together with the ledger of what was requested, applied and lost; the
ledger only grows.

* `ClientStep` lists what can happen to stream and ledger in one step.
* `Sound` is the invariant: the stream is ordered and numbered, a worker that lost
  a span is past, and the spans of every other worker have been applied without a
  gap up to the position where its remaining output continues.
* `Sound.covers_span` and `Sound.covers_finished` are what the client may conclude
  at a span and at a success terminal of a worker that lost nothing.
* `Settled` says that no worker that lost a span has output left; reading a start
  marker or a terminal settles the client.
-/

namespace FastFiles.WorkerStream

open Item

/-- A stream and the ledger of its client. -/
structure Client where
  items : List Item
  /-- The number of the next request. -/
  next : Nat
  /-- The workers requested, each with its first position. -/
  requested : List (Nat × Nat)
  /-- The spans applied: worker, first position, position just after the last. -/
  applied : List (Nat × Nat × Nat)
  /-- The workers that lost a span. -/
  lost : List Nat

namespace Client

/-- Position `i` was applied from the output of worker `w`. -/
def AppliedBy (c : Client) (w i : Nat) : Prop :=
  ∃ first last, (w, first, last) ∈ c.applied ∧ first ≤ i ∧ i < last

/-- No worker that lost a span has output left. -/
def Settled (c : Client) : Prop :=
  ∀ w ∈ c.lost, Silent w c.items

end Client

/-- What can happen in one step. -/
inductive ClientStep (marked : Bool) (stop : Nat) (c : Client) : Client → Prop
  | stay : ClientStep marked stop c c
  /-- A request is issued; it may get lost on the way. -/
  | request (position : Nat) (delivered : Bool) :
      ClientStep marked stop c
        { c with
          items := c.items ++ if delivered then [pending c.next position] else []
          next := c.next + 1
          requested := (c.next, position) :: c.requested }
  | serve {items : List Item} : Move marked stop c.items items → ClientStep marked stop c { c with items }
  /-- Everything behind some point of the stream is discarded. -/
  | disconnect {items : List Item} : items <+: c.items → ClientStep marked stop c { c with items }
  | readMarker {w : Nat} {items : List Item} : c.items = marker w :: items →
      ClientStep marked stop c { c with items }
  | readTerminal {x : Item} {items : List Item} : c.items = x :: items → x.Closes →
      ClientStep marked stop c { c with items }
  | apply {w first last : Nat} {items : List Item} : c.items = span w first last :: items →
      ClientStep marked stop c { c with items, applied := (w, first, last) :: c.applied }
  | lose {w first last : Nat} {items : List Item} : c.items = span w first last :: items →
      ClientStep marked stop c { c with items, lost := w :: c.lost }

/-- The server's part of a step: the ledger stays as it is. -/
def Served (marked : Bool) (stop : Nat) (c c' : Client) : Prop :=
  c' = c ∨ ∃ items, Move marked stop c.items items ∧ c' = { c with items }

variable {marked : Bool} {stop w : Nat} {c c' : Client}

theorem Served.step (h : Served marked stop c c') : ClientStep marked stop c c' := by
  obtain rfl | ⟨items, move, rfl⟩ := h
  · exact .stay
  · exact .serve move

theorem Served.lost (h : Served marked stop c c') : c'.lost = c.lost := by
  obtain rfl | ⟨items, -, rfl⟩ := h <;> rfl

theorem Served.requested (h : Served marked stop c c') : c'.requested = c.requested := by
  obtain rfl | ⟨items, -, rfl⟩ := h <;> rfl

/-- The invariant of stream and ledger. -/
structure Client.Sound (stop : Nat) (c : Client) : Prop where
  ordered : Ordered c.items
  known : ∀ x ∈ c.items, ∃ p, (x.worker, p) ∈ c.requested
  numbered : ∀ w p, (w, p) ∈ c.requested → w < c.next
  lost_past : ∀ w ∈ c.lost, Past w c.items ∧ w < c.next
  progress : ∀ w p, (w, p) ∈ c.requested → w ∉ c.lost →
    ∃ q, p ≤ q ∧ Contiguous stop w q c.items ∧ ∀ i, p ≤ i → i < q → c.AppliedBy w i

/-! ## The ledger only grows -/

namespace ClientStep

variable {marked : Bool} {stop : Nat} {c c' : Client}

section

variable (h : ClientStep marked stop c c') {k : Nat}

include h

theorem applied_subset : c.applied ⊆ c'.applied := by
  cases h <;> simp

theorem lost_subset : c.lost ⊆ c'.lost := by
  cases h <;> simp

theorem appliedBy {w i : Nat} (applied : c.AppliedBy w i) :
    c'.AppliedBy w i := by
  obtain ⟨first, last, hmem, hi⟩ := applied
  exact ⟨first, last, h.applied_subset hmem, hi⟩

/-- Every item comes from an item before the step, at a place that opens its worker if
it does itself, or from a new request. -/
theorem origin {x : Item} (hx : x ∈ c'.items) :
    (∃ o ∈ c.items, x.worker = o.worker ∧ (x.Opens → o.Opens)) ∨
      (x.worker = c.next ∧ c'.requested ≠ c.requested) := by
  cases h with
  | stay => exact .inl ⟨x, hx, rfl, id⟩
  | request position delivered =>
    rcases List.mem_append.mp hx with hx | hx
    · exact .inl ⟨x, hx, rfl, id⟩
    · refine .inr ⟨?_, List.cons_ne_self _ _⟩
      cases delivered with
      | false => simp at hx
      | true => rw [List.mem_singleton.mp hx]; rfl
  | serve move => exact .inl (move.inherits x hx)
  | disconnect cut => exact .inl ⟨x, cut.subset hx, rfl, id⟩
  | readMarker head | readTerminal head _ | apply head | lose head =>
    exact .inl ⟨x, head ▸ List.mem_cons_of_mem _ hx, rfl, id⟩

theorem next_le : c.next ≤ c'.next := by
  cases h with
  | request position delivered => exact Nat.le_succ _
  | _ => exact le_rfl

/-- No worker below `k` is opened again. -/
theorem opens_floor (le : k ≤ c.next) (floor : ∀ x ∈ c.items, x.Opens → k ≤ x.worker) :
    ∀ x ∈ c'.items, x.Opens → k ≤ x.worker := by
  intro x hx opens
  rcases h.origin hx with ⟨o, ho, same, opened⟩ | ⟨new, -⟩
  · rw [same]
    exact floor o ho (opened opens)
  · rw [new]
    exact le

/-- The only new worker in the stream is that of a new request. -/
theorem workers {P : Nat → Prop} (next : c'.requested ≠ c.requested → P c.next)
    (all : ∀ x ∈ c.items, P x.worker) : ∀ x ∈ c'.items, P x.worker := by
  intro x hx
  rcases h.origin hx with ⟨o, ho, same, -⟩ | ⟨new, requested⟩
  · rw [same]
    exact all o ho
  · rw [new]
    exact next requested

theorem items_nil (same : c'.requested = c.requested) (empty : c.items = []) : c'.items = [] :=
  List.eq_nil_iff_forall_not_mem.mpr
    (h.workers (P := fun _ => False) (absurd same) fun _ hx => absurd (empty ▸ hx) List.not_mem_nil)

end

end ClientStep

/-! ## Every step keeps the invariant -/

/-- A prefix of a contiguous stream is contiguous. -/
theorem Contiguous.of_prefix {p : Nat} {items items' : List Item} (cut : items' <+: items)
    (h : Contiguous stop w p items) : Contiguous stop w p items' := by
  obtain ⟨rest, rfl⟩ := cut
  have keep : ∀ p, Contiguous stop w p rest → Contiguous stop w p [] := fun _ _ => trivial
  simpa using Contiguous.replace keep items' p h

namespace Client.Sound

variable {marked : Bool} {stop : Nat} {c : Client}

variable {items : List Item}

/-- Discarding or reading items keeps the order, the numbering and what is past. -/
theorem of_sublist (sound : c.Sound stop) (sub : items.Sublist c.items)
    (progress : ∀ w p, (w, p) ∈ c.requested → w ∉ c.lost →
      ∃ q, p ≤ q ∧ Contiguous stop w q items ∧ ∀ i, p ≤ i → i < q → c.AppliedBy w i) :
    Client.Sound stop { c with items } where
  ordered := List.Pairwise.sublist sub sound.ordered
  known := fun x hx => sound.known x (sub.subset hx)
  numbered := sound.numbered
  lost_past := fun w hw =>
    ⟨fun x hx => (sound.lost_past w hw).1 x (sub.subset hx), (sound.lost_past w hw).2⟩
  progress := progress

variable {x : Item}

section

variable (sound : c.Sound stop)

include sound

theorem lt_next (hx : x ∈ c.items) : x.worker < c.next := by
  obtain ⟨p, hp⟩ := sound.known x hx
  exact sound.numbered _ _ hp

/-- Nothing of the next worker is in the stream yet. -/
theorem silent_next : Silent c.next c.items :=
  fun _ hx => Nat.ne_of_lt (sound.lt_next hx)

theorem request (position : Nat) (delivered : Bool) :
    Client.Sound stop
      { c with
        items := c.items ++ if delivered then [pending c.next position] else []
        next := c.next + 1
        requested := (c.next, position) :: c.requested } where
  ordered := by
    cases delivered with
    | false => simpa using sound.ordered
    | true => exact sound.ordered.snoc_pending fun x hx => sound.lt_next hx
  known := by
    intro x hx
    rcases List.mem_append.mp hx with hx | hx
    · obtain ⟨p, hp⟩ := sound.known x hx
      exact ⟨p, .tail _ hp⟩
    · cases delivered with
      | false => simp at hx
      | true => exact ⟨position, by simp [List.mem_singleton.mp hx, Item.worker]⟩
  numbered := by
    intro w p hw
    rcases List.mem_cons.mp hw with hw | hw
    · cases hw
      exact Nat.lt_succ_self _
    · exact Nat.lt_succ_of_lt (sound.numbered w p hw)
  lost_past := by
    intro w hw
    obtain ⟨past, lt⟩ := sound.lost_past w hw
    refine ⟨?_, Nat.lt_succ_of_lt lt⟩
    cases delivered with
    | false => simpa using past
    | true => exact past.snoc_pending lt
  progress := by
    intro w p hw kept
    rcases List.mem_cons.mp hw with hw | old
    · -- the new worker starts at its own position, with nothing applied yet
      cases hw
      refine ⟨position, le_rfl, ?_, fun i h h' => absurd h (Nat.not_le.mpr h')⟩
      cases delivered with
      | false => simpa using contiguous_of_silent sound.silent_next position
      | true => exact contiguous_snoc_pending_self sound.silent_next
    · obtain ⟨q, le, contiguous, done⟩ := sound.progress w p old kept
      refine ⟨q, le, ?_, done⟩
      cases delivered with
      | false => simpa using contiguous
      | true => exact contiguous.snoc_pending (Nat.ne_of_gt (sound.numbered w p old))

theorem serve (move : Move marked stop c.items items) :
    Client.Sound stop { c with items } where
  ordered := move.ordered sound.ordered
  known := by
    intro x hx
    obtain ⟨o, ho, same, -⟩ := move.inherits x hx
    rw [same]
    exact sound.known o ho
  numbered := sound.numbered
  lost_past := fun w hw => ⟨move.past (sound.lost_past w hw).1, (sound.lost_past w hw).2⟩
  progress := by
    intro w p hw kept
    obtain ⟨q, le, contiguous, done⟩ := sound.progress w p hw kept
    exact ⟨q, le, move.contiguous sound.ordered contiguous, done⟩

/-- Reading an item that carries no span. -/
theorem read (head : c.items = x :: items)
    (keep : ∀ q, Contiguous stop x.worker q (x :: items) → Contiguous stop x.worker q items) :
    Client.Sound stop { c with items } := by
  refine sound.of_sublist (head ▸ List.sublist_cons_self x items) ?_
  intro w p hw kept
  obtain ⟨q, le, contiguous, done⟩ := sound.progress w p hw kept
  rw [head] at contiguous
  refine ⟨q, le, ?_, done⟩
  by_cases hx : x.worker = w
  · subst hx
    exact keep q contiguous
  · exact (contiguous_cons_of_ne hx).mp contiguous

end

variable {w first last : Nat}

theorem apply (sound : c.Sound stop) (head : c.items = span w first last :: items) :
    Client.Sound stop { c with items, applied := (w, first, last) :: c.applied } where
  ordered := (head ▸ sound.ordered).tail
  known := fun x hx => sound.known x (head ▸ List.mem_cons_of_mem _ hx)
  numbered := sound.numbered
  lost_past := fun v hv =>
    ⟨Past.tail (head ▸ (sound.lost_past v hv).1), (sound.lost_past v hv).2⟩
  progress := by
    intro v p hv kept
    obtain ⟨q, le, contiguous, done⟩ := sound.progress v p hv kept
    rw [head] at contiguous
    by_cases hw : w = v
    · subst hw
      rw [Contiguous, if_pos rfl] at contiguous
      obtain ⟨rfl, le', rest⟩ := contiguous
      refine ⟨last, Nat.le_trans le le', rest, fun i hi hlast => ?_⟩
      by_cases before : i < first
      · obtain ⟨f, l, hmem, bounds⟩ := done i hi before
        exact ⟨f, l, .tail _ hmem, bounds⟩
      · exact ⟨first, last, .head _, Nat.le_of_not_lt before, hlast⟩
    · refine ⟨q, le, (contiguous_cons_of_ne (x := span w first last) hw).mp contiguous,
        fun i hi hq => ?_⟩
      obtain ⟨f, l, hmem, bounds⟩ := done i hi hq
      exact ⟨f, l, .tail _ hmem, bounds⟩

theorem lose (sound : c.Sound stop) (head : c.items = span w first last :: items) :
    Client.Sound stop { c with items, lost := w :: c.lost } where
  ordered := (head ▸ sound.ordered).tail
  known := fun x hx => sound.known x (head ▸ List.mem_cons_of_mem _ hx)
  numbered := sound.numbered
  lost_past := by
    intro v hv
    rcases List.mem_cons.mp hv with rfl | hv
    · have ordered : Ordered (span v first last :: items) := head ▸ sound.ordered
      exact ⟨ordered.past_head, sound.lt_next (x := span v first last) (by simp [head])⟩
    · exact ⟨Past.tail (head ▸ (sound.lost_past v hv).1), (sound.lost_past v hv).2⟩
  progress := by
    intro v p hv kept
    have hw : w ≠ v := fun h => kept (by simp [h])
    obtain ⟨q, le, contiguous, done⟩ :=
      sound.progress v p hv fun h => kept (.tail _ h)
    rw [head] at contiguous
    exact ⟨q, le, (contiguous_cons_of_ne (x := span w first last) hw).mp contiguous, done⟩

/-- **Every step keeps the invariant.** -/
theorem step (sound : c.Sound stop) (h : ClientStep marked stop c c') : c'.Sound stop := by
  cases h with
  | stay => exact sound
  | request position delivered => exact sound.request position delivered
  | serve move => exact sound.serve move
  | disconnect cut =>
    refine sound.of_sublist cut.sublist fun w p hw kept => ?_
    obtain ⟨q, le, contiguous, done⟩ := sound.progress w p hw kept
    exact ⟨q, le, contiguous.of_prefix cut, done⟩
  | readMarker head => exact sound.read head fun q h => h
  | @readTerminal x items head closes =>
    refine sound.read head fun q _ => contiguous_of_silent (fun y hy => ?_) q
    -- nothing of the terminated worker follows its terminal
    have ordered : Ordered (x :: items) := head ▸ sound.ordered
    exact Nat.ne_of_gt ((List.rel_of_pairwise_cons ordered hy).2 (.inr closes))
  | apply head => exact sound.apply head
  | lose head => exact sound.lose head

/-! ## What the client may conclude -/

variable (sound : c.Sound stop)

include sound

/-- At a span of a worker that lost nothing, everything before it was applied. -/
theorem covers_span (head : c.items = span w first last :: items) (kept : w ∉ c.lost) :
    ∃ p, (w, p) ∈ c.requested ∧ first ≤ last ∧
      ∀ i, p ≤ i → i < first → c.AppliedBy w i := by
  obtain ⟨p, hp⟩ := sound.known (span w first last) (by simp [head])
  obtain ⟨q, -, contiguous, done⟩ := sound.progress w p hp kept
  rw [head, Contiguous, if_pos rfl] at contiguous
  obtain ⟨rfl, le, -⟩ := contiguous
  exact ⟨p, hp, le, done⟩

/-- **At a success terminal of a worker that lost nothing, everything from its
first position to the end was applied.** -/
theorem covers_finished {w p : Nat} (head : c.items = finished w :: items) (kept : w ∉ c.lost)
    (hp : (w, p) ∈ c.requested) {i : Nat} (le : p ≤ i) (inside : i < stop) : c.AppliedBy w i := by
  obtain ⟨q, -, contiguous, done⟩ := sound.progress w p hp kept
  rw [head, Contiguous, if_pos rfl] at contiguous
  exact done i le (contiguous ▸ inside)

/-- Reading a start marker or a terminal settles the client. -/
theorem settled_of_ends (head : c.items = x :: items) (ends : x.Opens ∨ x.Closes) :
    Client.Settled { c with items } :=
  fun w hw => Past.silent (head ▸ (sound.lost_past w hw).1) (head ▸ sound.ordered) ends

/-- A settled client stays settled as long as it loses nothing more. -/
theorem settled_step (h : ClientStep marked stop c c') (settled : c.Settled)
    (same : c'.lost = c.lost) : c'.Settled := by
  intro w hw
  rw [same] at hw
  have silent : Silent w c.items := settled w hw
  cases h with
  | stay => exact silent
  | request position delivered =>
    cases delivered with
    | false => simpa using silent
    | true => exact silent.snoc_pending (Nat.ne_of_gt (sound.lost_past w hw).2)
  | serve move => exact move.silent silent
  | disconnect cut => exact fun x hx => silent x (cut.subset hx)
  | readMarker head | readTerminal head _ | apply head | lose head =>
    exact Silent.tail (head ▸ silent)

end Client.Sound

end FastFiles.WorkerStream
