import Mathlib

/-!
# One output stream shared by successive workers

A server runs at most one worker at a time.  A request starts worker `w` at a
position; the worker writes spans `[p, q)` in order, and ends with a terminal, or
is stopped without one when the next worker starts.  All output goes into one
first-in first-out stream that the client reads from the front, and workers are
numbered in the order of their requests.

The whole situation is one list of `Item`s: the unread output, then the running
worker, then the requests not yet served.

* `Ordered` says that the stream never returns to an earlier worker, that a start
  marker precedes everything of its worker, and that nothing of a worker follows
  its terminal.
* `Contiguous stop w p` says that the remaining output of worker `w` continues at
  position `p` without a gap, and that a success terminal comes only at `stop`.
* `Move` lists what the server can do to the stream; both notions are kept by
  every `Move`, by a new request and by reading an item.
-/

namespace FastFiles.WorkerStream

/-- An item of the stream, with the worker it belongs to. -/
inductive Item
  /-- The announcement that the worker starts. -/
  | marker (worker : Nat)
  /-- Output covering the positions `first, …, last - 1`. -/
  | span (worker first last : Nat)
  /-- The success terminal. -/
  | finished (worker : Nat)
  /-- The failure terminal. -/
  | failed (worker : Nat)
  /-- The running worker and its next position. -/
  | working (worker position : Nat)
  /-- A request that is not served yet. -/
  | pending (worker position : Nat)
deriving DecidableEq

namespace Item

/-- The worker an item belongs to. -/
def worker : Item → Nat
  | marker w | span w _ _ | finished w | failed w | working w _ | pending w _ => w

/-- Nothing of the item's worker stands before the item. -/
def Opens : Item → Prop
  | marker _ | pending _ _ => True
  | _ => False

/-- Nothing of the item's worker stands after the item. -/
def Closes : Item → Prop
  | finished _ | failed _ => True
  | _ => False

/-- The order in which two items may stand in a stream. -/
def Before (x y : Item) : Prop :=
  x.worker ≤ y.worker ∧ (y.Opens ∨ x.Closes → x.worker < y.worker)

theorem Before.of_lt {x y : Item} (lt : x.worker < y.worker) : Before x y :=
  ⟨Nat.le_of_lt lt, fun _ => lt⟩

theorem Before.lt_of_opens {x y : Item} (before : Before x y) (opens : y.Opens) :
    x.worker < y.worker := before.2 (.inl opens)

/-- An item keeps its place before anything that neither opens its worker nor is
of an earlier one. -/
theorem Before.to_same {x y z : Item} (before : Before x y) (same : y.worker = z.worker)
    (plain : ¬ z.Opens) : Before x z :=
  ⟨same ▸ before.1, fun h => same ▸ before.2 (.inr (h.resolve_left plain))⟩

end Item

open Item

/-- The stream never returns to an earlier worker. -/
def Ordered (items : List Item) : Prop :=
  items.Pairwise Before

/-- No item of worker `w` is left. -/
def Silent (w : Nat) (items : List Item) : Prop :=
  ∀ x ∈ items, x.worker ≠ w

/-- The worker `v` belongs to the part of the stream that was read already. -/
def Past (v : Nat) (items : List Item) : Prop :=
  ∀ x ∈ items, v ≤ x.worker ∧ (x.Opens → v < x.worker)

/-- The remaining output of worker `w` continues at position `p`. -/
def Contiguous (stop w : Nat) : Nat → List Item → Prop
  | _, [] => True
  | p, marker _ :: items => Contiguous stop w p items
  | p, span v first last :: items =>
    if v = w then first = p ∧ first ≤ last ∧ Contiguous stop w last items
    else Contiguous stop w p items
  | p, finished v :: items => if v = w then p = stop else Contiguous stop w p items
  | p, failed v :: items => if v = w then True else Contiguous stop w p items
  | p, working v position :: items =>
    if v = w then position = p else Contiguous stop w p items
  | p, pending v position :: items =>
    if v = w then position = p else Contiguous stop w p items

/-! ## Reading -/

variable {items : List Item} {x : Item}

theorem Ordered.tail (ordered : Ordered (x :: items)) :
    Ordered items := List.Pairwise.tail ordered

variable {v : Nat}

theorem Past.tail (past : Past v (x :: items)) :
    Past v items := fun y hy => past y (.tail x hy)

/-- The worker of an item that does not close it is past once the item is read. -/
theorem Ordered.past_head (ordered : Ordered (x :: items)) :
    Past x.worker items := by
  intro y hy
  obtain ⟨le, lt⟩ := List.rel_of_pairwise_cons ordered hy
  exact ⟨le, fun opens => lt (.inl opens)⟩

/-- Reading a start marker or a terminal leaves nothing of a past worker. -/
theorem Past.silent
    (past : Past v (x :: items)) (ordered : Ordered (x :: items)) (ends : x.Opens ∨ x.Closes) :
    Silent v items := by
  intro y hy
  obtain ⟨before, opens⟩ := past x (.head _)
  obtain ⟨after, closes⟩ := List.rel_of_pairwise_cons ordered hy
  have strictly := ends.imp opens fun h => closes (.inr h)
  omega

theorem Silent.tail {w : Nat} (silent : Silent w (x :: items)) :
    Silent w items := fun y hy => silent y (.tail x hy)

variable {stop w p : Nat}

/-- Skipping an item of another worker. -/
theorem contiguous_cons_of_ne (ne : x.worker ≠ w) :
    Contiguous stop w p (x :: items) ↔ Contiguous stop w p items := by
  cases x <;> simp_all [Contiguous, Item.worker]

theorem contiguous_of_silent {stop w : Nat} (silent : Silent w items)
    (p : Nat) : Contiguous stop w p items := by
  induction items with
  | nil => trivial
  | cons x items ih =>
    rw [contiguous_cons_of_ne (silent x List.mem_cons_self)]
    exact ih silent.tail

/-! ## Replacing the middle of a stream -/

variable {old new : List Item}

/-- A change behind `front` that keeps contiguity from every position keeps it
for the whole stream. -/
theorem Contiguous.replace {stop w : Nat}
    (keep : ∀ p, Contiguous stop w p old → Contiguous stop w p new) (front : List Item) :
    ∀ p, Contiguous stop w p (front ++ old) → Contiguous stop w p (front ++ new) := by
  induction front with
  | nil => exact keep
  | cons x front ih =>
    intro p h
    cases x with
    | marker v => exact ih p h
    | span v first last =>
      by_cases hv : v = w
      · simp only [List.cons_append, Contiguous, if_pos hv] at h ⊢
        exact ⟨h.1, h.2.1, ih last h.2.2⟩
      · simp only [List.cons_append, Contiguous, if_neg hv] at h ⊢
        exact ih p h
    | failed v =>
      by_cases hv : v = w
      · simp only [List.cons_append, Contiguous, if_pos hv]
      · simp only [List.cons_append, Contiguous, if_neg hv] at h ⊢
        exact ih p h
    | finished v | working v position | pending v position =>
      by_cases hv : v = w
      · simpa [Contiguous, if_pos hv] using h
      · simp only [List.cons_append, Contiguous, if_neg hv] at h ⊢
        exact ih p h

/-- A new request at the end does not disturb the workers before it. -/
theorem Contiguous.snoc_pending {v position : Nat}
    (ne : v ≠ w) (contiguous : Contiguous stop w p items) :
    Contiguous stop w p (items ++ [pending v position]) := by
  have keep : ∀ p, Contiguous stop w p [] → Contiguous stop w p [pending v position] := by
    intro p _
    simp [Contiguous, ne]
  simpa using Contiguous.replace keep items p (by simpa using contiguous)

/-- The request of a worker that has no item yet starts it at its position. -/
theorem contiguous_snoc_pending_self {stop w position : Nat} (silent : Silent w items) :
    Contiguous stop w position (items ++ [pending w position]) := by
  induction items with
  | nil => simp [Contiguous]
  | cons x items ih =>
    rw [List.cons_append, contiguous_cons_of_ne (silent x List.mem_cons_self)]
    exact ih silent.tail

/-! ## The server's moves -/

/-- What the server can do to the running worker and the oldest request: start
the next worker (the running one is stopped first, and the start may go without
announcement unless the protocol is `marked`), refuse the request, stop the running
worker, or let it write a span or a terminal. -/
inductive Rewrite (marked : Bool) (stop : Nat) : List Item → List Item → Prop
  | start (w p : Nat) : marked = false → Rewrite marked stop [pending w p] [working w p]
  | startMarked (w p : Nat) : Rewrite marked stop [pending w p] [marker w, working w p]
  | supersede (v q w p : Nat) : marked = false →
      Rewrite marked stop [working v q, pending w p] [working w p]
  | supersedeMarked (v q w p : Nat) :
      Rewrite marked stop [working v q, pending w p] [marker w, working w p]
  | refuse (w p : Nat) : Rewrite marked stop [pending w p] []
  | supersedeRefused (v q w p : Nat) : Rewrite marked stop [working v q, pending w p] []
  | halt (w p : Nat) : Rewrite marked stop [working w p] []
  | span (w p last : Nat) : p ≤ last →
      Rewrite marked stop [working w p] [span w p last, working w last]
  | finish (w : Nat) : Rewrite marked stop [working w stop] [finished w]
  | fail (w p : Nat) : Rewrite marked stop [working w p] [failed w]

/-- A move of the server: the output stays in front, the other requests behind. -/
def Move (marked : Bool) (stop : Nat) (items items' : List Item) : Prop :=
  ∃ front old new back, Rewrite marked stop old new ∧ (∀ x ∈ back, x.Opens) ∧
    items = front ++ (old ++ back) ∧ items' = front ++ (new ++ back)

variable {marked : Bool}

/-- The item of `old` that everything in `new` inherits its place from. -/
theorem Rewrite.anchor {stop : Nat} (rewrite : Rewrite marked stop old new) :
    ∃ o ∈ old, new.Pairwise Before ∧
      (∀ x, Before x o → ∀ n ∈ new, Before x n) ∧
      (∀ n ∈ new, n.worker = o.worker) := by
  have started : ∀ w p, List.Pairwise Before [marker w, working w p] := by
    intro w p
    simp [Before, Item.worker, Opens, Closes]
  have launch : ∀ w p x, Before x (pending w p) → ∀ n ∈ [marker w, working w p], Before x n := by
    intro w p x before n hn
    have lt : x.worker < w := before.lt_of_opens trivial
    rcases List.mem_pair.mp hn with rfl | rfl <;> exact .of_lt lt
  cases rewrite with
  | start w p _ | supersede v q w p _ =>
    refine ⟨pending w p, by simp, by simp, fun x before n hn => ?_, by simp [Item.worker]⟩
    exact launch w p x before n (by simp_all)
  | startMarked w p | supersedeMarked v q w p =>
    exact ⟨pending w p, by simp, started w p, launch w p, by simp [Item.worker]⟩
  | refuse w p | supersedeRefused v q w p =>
    exact ⟨pending w p, by simp, by simp, by simp, by simp⟩
  | halt w p => exact ⟨working w p, by simp, by simp, by simp, by simp⟩
  | span w p last _ =>
    refine ⟨working w p, by simp, by simp [Before, Item.worker, Opens, Closes], ?_,
      by simp [Item.worker]⟩
    intro x before n hn
    rcases List.mem_pair.mp hn with rfl | rfl <;> exact before.to_same rfl id
  | finish w =>
    refine ⟨working w stop, by simp, by simp, fun x before n hn => ?_, by simp [Item.worker]⟩
    exact List.mem_singleton.mp hn ▸ before.to_same rfl id
  | fail w p =>
    refine ⟨working w p, by simp, by simp, fun x before n hn => ?_, by simp [Item.worker]⟩
    exact List.mem_singleton.mp hn ▸ before.to_same rfl id

/-- **The order of workers survives every move.** -/
theorem Move.ordered {stop : Nat} {items items' : List Item} (move : Move marked stop items items')
    (ordered : Ordered items) : Ordered items' := by
  obtain ⟨front, old, new, back, rewrite, opens, rfl, rfl⟩ := move
  obtain ⟨o, ho, hnew, hleft, same⟩ := rewrite.anchor
  obtain ⟨hfront, hrest, hfr⟩ := List.pairwise_append.mp ordered
  obtain ⟨-, hback, hob⟩ := List.pairwise_append.mp hrest
  refine List.pairwise_append.mpr ⟨hfront, List.pairwise_append.mpr ⟨hnew, hback, ?_⟩, ?_⟩
  · intro n hn y hy
    exact .of_lt (same n hn ▸ (hob o ho y hy).lt_of_opens (opens y hy))
  · intro x hx y hy
    rcases List.mem_append.mp hy with hn | hy
    · exact hleft x (hfr x hx o (List.mem_append_left _ ho)) y hn
    · exact hfr x hx y (List.mem_append_right _ hy)

/-- Every worker of the new stream was in the old one, at a place that opens it
if the new one does. -/
theorem Rewrite.inherits {stop : Nat} (rewrite : Rewrite marked stop old new) :
    ∀ n ∈ new, ∃ o ∈ old, n.worker = o.worker ∧ (n.Opens → o.Opens) := by
  cases rewrite <;> simp [Item.worker, Opens]

section

variable {stop : Nat} {items items' : List Item} (move : Move marked stop items items')

include move

theorem Move.inherits : ∀ n ∈ items', ∃ o ∈ items, n.worker = o.worker ∧ (n.Opens → o.Opens) := by
  obtain ⟨front, old, new, back, rewrite, -, rfl, rfl⟩ := move
  intro n hn
  rcases List.mem_append.mp hn with hf | hn
  · exact ⟨n, List.mem_append_left _ hf, rfl, id⟩
  rcases List.mem_append.mp hn with hn | hb
  · obtain ⟨o, ho, same⟩ := rewrite.inherits n hn
    exact ⟨o, List.mem_append_right _ (List.mem_append_left _ ho), same⟩
  · exact ⟨n, List.mem_append_right _ (List.mem_append_right _ hb), rfl, id⟩

theorem Move.past {v : Nat} (past : Past v items) : Past v items' := by
  intro n hn
  obtain ⟨o, ho, same, opens⟩ := move.inherits n hn
  obtain ⟨le, lt⟩ := past o ho
  exact ⟨same ▸ le, fun h => same ▸ lt (opens h)⟩

theorem Move.silent {v : Nat} (silent : Silent v items) : Silent v items' := by
  intro n hn
  obtain ⟨o, ho, same, -⟩ := move.inherits n hn
  exact same ▸ silent o ho

end

/-- **Contiguity survives every move.**  A worker that is stopped or refused leaves
no gap behind: nothing of it is left. -/
theorem Move.contiguous {items items' : List Item}
    (move : Move marked stop items items') (ordered : Ordered items)
    (contiguous : Contiguous stop w p items) : Contiguous stop w p items' := by
  obtain ⟨front, old, new, back, rewrite, opens, rfl, rfl⟩ := move
  obtain ⟨-, hrest, -⟩ := List.pairwise_append.mp ordered
  have gone : ∀ o ∈ old, o.worker = w → ∀ p, Contiguous stop w p back := by
    rintro o ho rfl p
    obtain ⟨-, -, hob⟩ := List.pairwise_append.mp hrest
    exact contiguous_of_silent
      (fun y hy => Nat.ne_of_gt ((hob o ho y hy).lt_of_opens (opens y hy))) p
  refine Contiguous.replace ?_ front p contiguous
  intro p h
  cases rewrite with
  | refuse v q =>
    by_cases hv : v = w
    · exact gone (pending v q) (by simp) hv p
    · simpa [Contiguous, hv] using h
  | supersedeRefused v q u r =>
    by_cases hv : v = w
    · exact gone (working v q) (by simp) hv p
    by_cases hu : u = w
    · exact gone (pending u r) (by simp) hu p
    · simpa [Contiguous, hv, hu] using h
  | start v q _ | startMarked v q => simpa [Contiguous] using h
  | supersede v q u r _ | supersedeMarked v q u r =>
    by_cases hv : v = w
    · have before : Before (working v q) (pending u r) :=
        List.rel_of_pairwise_cons hrest (.head _)
      have hu : u ≠ w := hv ▸ Nat.ne_of_gt (before.lt_of_opens trivial)
      simpa [Contiguous, hu] using gone (working v q) (by simp) hv p
    · simpa [Contiguous, hv] using h
  | halt v q =>
    by_cases hv : v = w
    · exact gone (working v q) (by simp) hv p
    · simpa [Contiguous, hv] using h
  | span v q last le =>
    by_cases hv : v = w
    · have hq : q = p := by simpa [Contiguous, hv] using h
      simp [Contiguous, hv, hq, hq ▸ le]
    · simpa [Contiguous, hv] using h
  | finish v =>
    by_cases hv : v = w
    · have hq : stop = p := by simpa [Contiguous, hv] using h
      simp [Contiguous, hv, hq]
    · simpa [Contiguous, hv] using h
  | fail v q =>
    by_cases hv : v = w
    · simp [Contiguous, hv]
    · simpa [Contiguous, hv] using h

/-! ## New requests -/

/-- A request for a worker later than everything in the stream. -/
theorem Ordered.snoc_pending {w p : Nat} (ordered : Ordered items)
    (later : ∀ x ∈ items, x.worker < w) : Ordered (items ++ [pending w p]) := by
  refine List.pairwise_append.mpr ⟨ordered, by simp, ?_⟩
  intro x hx y hy
  rw [List.mem_singleton.mp hy]
  exact .of_lt (later x hx)

theorem Past.snoc_pending {w p : Nat} (past : Past v items)
    (later : v < w) : Past v (items ++ [pending w p]) := by
  intro x hx
  rcases List.mem_append.mp hx with hx | hx
  · exact past x hx
  · rw [List.mem_singleton.mp hx]
    exact ⟨Nat.le_of_lt later, fun _ => later⟩

theorem Silent.snoc_pending {w p : Nat} (silent : Silent v items)
    (ne : w ≠ v) : Silent v (items ++ [pending w p]) := by
  intro x hx
  rcases List.mem_append.mp hx with hx | hx
  · exact silent x hx
  · rw [List.mem_singleton.mp hx]
    exact ne

end FastFiles.WorkerStream
