import Mathlib

/-!
# Draining a worklist

A traversal without a visited set: pending nodes are taken one at a time, and the
successors of each join the pending ones.  A *discipline* says where they join; a stack and
a queue are two.

* The traversal ends exactly if every pending node is accessible (`exists_drain`,
  `acc_of_drain`), whatever the discipline; on a finite graph, if no cycle is reachable
  (`acc_of_finite`).
* The nodes taken are the pending ones and the successors of those taken (`drain_perm`),
  hence the reachable ones (`mem_drain`), and each once if no node has two predecessors
  (`nodup_drain`).
-/

namespace FastFiles.Worklist

open Relation

universe u

variable {ν : Type u}

/-- How new nodes join the pending ones. -/
structure Discipline (ν : Type u) where
  add : List ν → List ν → List ν
  perm : ∀ new old, (add new old).Perm (new ++ old)

/-- The node added last is taken first. -/
def Discipline.stack : Discipline ν where
  add new old := new.reverse ++ old
  perm new old := (List.reverse_perm new).append_right old

def Discipline.queue : Discipline ν where
  add new old := old ++ new
  perm _ _ := List.perm_append_comm

/-- The nodes taken, in order; `none` when the fuel runs out. -/
def drain (discipline : Discipline ν) (next : ν → List ν) : Nat → List ν → Option (List ν)
  | _, [] => some []
  | 0, _ :: _ => none
  | fuel + 1, node :: pending =>
    (drain discipline next fuel (discipline.add (next node) pending)).map (node :: ·)

abbrev Step (next : ν → List ν) (node successor : ν) : Prop := successor ∈ next node

abbrev Accessible (next : ν → List ν) : ν → Prop :=
  Acc fun successor node => Step next node successor

variable {discipline : Discipline ν} {next : ν → List ν} {node : ν}

theorem mem_add {new old : List ν} : node ∈ discipline.add new old ↔ node ∈ new ∨ node ∈ old := by
  rw [(discipline.perm new old).mem_iff, List.mem_append]

variable {fuel : Nat} {pending taken : List ν}

/-- **The induction over a traversal that ends.** -/
theorem drain_induction {motive : List ν → List ν → Prop} (nil : motive [] [])
    (cons : ∀ node pending taken, motive (discipline.add (next node) pending) taken →
      motive (node :: pending) (node :: taken))
    (ends : drain discipline next fuel pending = some taken) : motive pending taken := by
  fun_induction drain discipline next fuel pending generalizing taken with
  | case1 =>
    cases ends
    exact nil
  | case2 => cases ends
  | case3 fuel node pending ih =>
    obtain ⟨rest, later, rfl⟩ := Option.map_eq_some_iff.mp ends
    exact cons node pending rest (ih later)

/-! ## Termination -/

theorem acc_of_drain (ends : drain discipline next fuel pending = some taken) :
    ∀ node ∈ pending, Accessible next node := by
  refine drain_induction (motive := fun pending _ => ∀ node ∈ pending, Accessible next node)
    (by simp) ?_ ends
  intro node pending _ ih other mem
  rcases List.mem_cons.mp mem with rfl | mem
  · exact Acc.intro _ fun successor step => ih successor (mem_add.mpr (.inl step))
  · exact ih other (mem_add.mpr (.inr mem))

/-- How often the nodes below an accessible node are taken, with the node itself. -/
noncomputable def weight (next : ν → List ν) {node : ν}
    (acc : Acc (fun successor node => Step next node successor) node) : Nat :=
  Acc.rec (motive := fun _ _ => Nat)
    (fun node _ below => 1 + ((next node).attach.map fun successor =>
      below successor.1 successor.2).sum) acc

open Classical in
/-- The weight of any node. -/
noncomputable def weightOf (next : ν → List ν) (node : ν) : Nat :=
  if acc : Acc (fun successor node => Step next node successor) node then weight next acc else 0

theorem weightOf_eq (acc : Accessible next node) :
    weightOf next node = 1 + ((next node).map (weightOf next)).sum := by
  have each : (next node).attach.map (fun successor => weight next (acc.inv successor.2)) =
      (next node).map (weightOf next) := by
    calc (next node).attach.map (fun successor => weight next (acc.inv successor.2))
        = (next node).attach.map (fun successor => weightOf next successor.1) := by
          refine List.map_congr_left fun successor _ => ?_
          rw [weightOf, dif_pos (acc.inv successor.2)]
      _ = (next node).map (weightOf next) := List.attach_map_val ..
  rw [weightOf, dif_pos acc, ← each]
  obtain ⟨_, below⟩ := acc
  rfl

theorem exists_drain (discipline : Discipline ν)
    (acc : ∀ node ∈ pending, Accessible next node) :
    ∃ fuel taken, drain discipline next fuel pending = some taken := by
  -- Taking a node removes exactly its own share of the weight.
  suffices enough : ∀ fuel (pending : List ν), (pending.map (weightOf next)).sum ≤ fuel →
      (∀ node ∈ pending, Accessible next node) →
      ∃ taken, drain discipline next fuel pending = some taken from
    ⟨_, enough _ pending le_rfl acc⟩
  intro fuel pending light acc
  fun_induction drain discipline next fuel pending with
  | case1 => exact ⟨[], rfl⟩
  | case2 node pending =>
    rw [List.map_cons, List.sum_cons, weightOf_eq (acc node (.head _))] at light
    omega
  | case3 fuel node pending ih =>
    have here := acc node (.head _)
    have share := ((discipline.perm (next node) pending).map (weightOf next)).sum_eq
    rw [List.map_append, List.sum_append] at share
    rw [List.map_cons, List.sum_cons, weightOf_eq here] at light
    obtain ⟨taken, ends⟩ := ih (by omega) <| by
      intro other mem
      rcases mem_add.mp mem with new | old
      · exact here.inv new
      · exact acc other (.tail _ old)
    exact ⟨node :: taken, Option.map_eq_some_iff.mpr ⟨taken, ends, rfl⟩⟩

/-- An accessible node is on no cycle. -/
theorem not_transGen_self (acc : Accessible next node) :
    ¬ TransGen (Step next) node node := by
  have closure := acc.transGen
  clear acc
  induction closure with
  | intro node _ ih =>
    intro cycle
    exact ih node (transGen_swap.mpr cycle) cycle

variable {root : ν}

theorem acc_of_path (acc : Accessible next root)
    (path : ReflTransGen (Step next) root node) :
    Accessible next node := by
  induction path with
  | refl => exact acc
  | tail _ step ih => exact ih.inv step

/-- On a finite graph a node is accessible if no cycle is reachable from it. -/
theorem acc_of_finite {nodes : Set ν} (finite : nodes.Finite)
    (closed : ∀ node ∈ nodes, ∀ successor ∈ next node, successor ∈ nodes) (mem : root ∈ nodes)
    (acyclic : ∀ node, ReflTransGen (Step next) root node → ¬ TransGen (Step next) node node) :
    Accessible next root := by
  have inside : ∀ node, ReflTransGen (Step next) root node → node ∈ nodes := by
    intro node path
    induction path with
    | refl => exact mem
    | tail _ step ih => exact closed _ ih _ step
  let Reached := {node // ReflTransGen (Step next) root node}
  have : Finite Reached := finite.subset inside
  let below : Reached → Reached → Prop := fun later earlier => TransGen (Step next) earlier.1 later.1
  have : IsTrans Reached below := ⟨fun _ _ _ first second => second.trans first⟩
  have : Std.Irrefl below := ⟨fun node => acyclic node.1 node.2⟩
  have wf : WellFounded below := Finite.wellFounded_of_trans_of_irrefl below
  suffices accessible : ∀ node : Reached,
      Accessible next node.1 from accessible ⟨root, .refl⟩
  intro node
  induction node using wf.induction with
  | _ node ih =>
    refine Acc.intro _ fun successor step => ?_
    exact ih ⟨successor, node.2.tail step⟩ (.single step)

/-! ## What is taken -/

/-- The nodes taken are the pending ones and the successors of those taken. -/
theorem drain_perm (ends : drain discipline next fuel pending = some taken) :
    taken.Perm (pending ++ taken.flatMap next) := by
  refine drain_induction (motive := fun pending taken =>
    taken.Perm (pending ++ taken.flatMap next)) List.Perm.nil ?_ ends
  intro node pending taken ih
  have reordered : (discipline.add (next node) pending ++ taken.flatMap next).Perm
      (pending ++ (next node ++ taken.flatMap next)) := by
    rw [← List.append_assoc]
    exact ((discipline.perm (next node) pending).trans List.perm_append_comm).append_right _
  rw [List.flatMap_cons, List.cons_append]
  exact (ih.trans reordered).cons node

theorem mem_drain (ends : drain discipline next fuel pending = some taken) :
    node ∈ taken ↔ ∃ root ∈ pending, ReflTransGen (Step next) root node := by
  constructor
  · intro mem
    refine drain_induction (motive := fun pending taken => node ∈ taken →
      ∃ root ∈ pending, ReflTransGen (Step next) root node) (by simp) ?_ ends mem
    intro first pending taken ih mem
    rcases List.mem_cons.mp mem with rfl | mem
    · exact ⟨node, .head _, .refl⟩
    · obtain ⟨root, added, path⟩ := ih mem
      rcases mem_add.mp added with new | old
      · exact ⟨first, .head _, .head new path⟩
      · exact ⟨root, .tail _ old, path⟩
  · rintro ⟨root, mem, path⟩
    have perm := drain_perm ends
    induction path with
    | refl => exact perm.mem_iff.mpr (List.mem_append_left _ mem)
    | tail _ step ih =>
      refine perm.mem_iff.mpr (List.mem_append_right _ ?_)
      exact List.mem_flatMap.mpr ⟨_, ih, step⟩

theorem sum_map_ite [DecidableEq ν] (nodes : List ν) (node : ν) :
    (nodes.map fun other => if other = node then 1 else 0).sum = nodes.count node := by
  induction nodes with
  | nil => rfl
  | cons first nodes ih =>
    rw [List.map_cons, List.sum_cons, ih, List.count_cons, Nat.add_comm]
    simp

/-- **Each node is taken once**, if no node is the successor of two. -/
theorem nodup_drain
    (ends : drain discipline next fuel [root] = some taken) (nodup : ∀ node, (next node).Nodup)
    (unique : ∀ node other successor, successor ∈ next node → successor ∈ next other →
      node = other) : taken.Nodup := by
  classical
  have count : ∀ node, taken.count node = [root].count node +
      (taken.map fun other => (next other).count node).sum := by
    intro node
    rw [(drain_perm ends).count_eq, List.count_append, List.count_flatMap]
    rfl
  -- The root has no predecessor among the nodes taken: it would be on a cycle.
  have start : ∀ node ∈ taken, root ∉ next node := by
    intro node mem step
    obtain ⟨other, isRoot, path⟩ := (mem_drain ends).mp mem
    obtain rfl := List.mem_singleton.mp isRoot
    exact not_transGen_self (acc_of_drain ends other (.head _)) (.tail' path step)
  have once : ∀ node, ReflTransGen (Step next) root node → taken.count node = 1 := by
    intro node path
    induction path with
    | refl =>
      have none : (taken.map fun other => (next other).count root).sum = 0 := by
        refine List.sum_eq_zero fun value mem => ?_
        obtain ⟨other, here, rfl⟩ := List.mem_map.mp mem
        exact List.count_eq_zero_of_not_mem (start other here)
      rw [count root, none, List.count_singleton_self]
    | @tail parent node path step ih =>
      have here : parent ∈ taken := (mem_drain ends).mpr ⟨root, .head _, path⟩
      have other : root ≠ node := by
        rintro rfl
        exact start parent here step
      have shares : (fun other => (next other).count node) =
          fun other => if other = parent then 1 else 0 := by
        funext other
        split_ifs with same
        · rw [same]
          exact List.count_eq_one_of_mem (nodup parent) step
        · exact List.count_eq_zero_of_not_mem fun mem => same (unique other parent node mem step)
      rw [count node, shares, sum_map_ite, ih, List.count_singleton, if_neg (by simpa using other)]
  refine List.nodup_iff_count_le_one.mpr fun node => ?_
  by_cases mem : node ∈ taken
  · obtain ⟨other, isRoot, path⟩ := (mem_drain ends).mp mem
    obtain rfl := List.mem_singleton.mp isRoot
    exact (once node path).le
  · rw [List.count_eq_zero_of_not_mem mem]
    exact Nat.zero_le 1

end FastFiles.Worklist
