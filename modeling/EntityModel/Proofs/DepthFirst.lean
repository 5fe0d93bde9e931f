/-
Depth-first order.

`DepthFirst` is a depth-first search told as a recursion over nodes: what is found below a node
comes right after it, and then comes the next of its siblings.  A traversal with a stack lists the
same nodes in the same order (`depthFirst_iff`), and they are the nodes that can be reached
(`mem_visit_iff_reflTransGen`, `mem_visit_iff_transGen`).
-/
import EntityModel.Proofs.Traversals
import Mathlib.Logic.Relation

namespace EntityModel

/-- The nodes are searched one after the other, and `listed` is what is found: each node that is
not marked, followed by what is found below it. -/
inductive DepthFirst {α : Type} (next : α → List α) : (marked nodes listed : List α) → Prop
  | done (marked) : DepthFirst next marked [] []
  | skip {marked x nodes listed} (seen : x ∈ marked) (rest : DepthFirst next marked nodes listed) :
      DepthFirst next marked (x :: nodes) listed
  | enter {marked x nodes below listed} (fresh : x ∉ marked)
      (sub : DepthFirst next (x :: marked) (next x) below)
      (rest : DepthFirst next (x :: marked ++ below) nodes listed) :
      DepthFirst next marked (x :: nodes) (x :: (below ++ listed))

variable {α : Type} [DecidableEq α] {vertices seen seen' stack l : List α} {next : α → List α}
variable {x y : α}

theorem length_unseen_le (h : seen ⊆ seen') :
    (unseen vertices seen').length ≤ (unseen vertices seen).length := by
  simp only [unseen, ← List.countP_eq_length_filter]
  refine List.countP_mono_left fun v _ fresh => ?_
  simp only [decide_eq_true_eq] at fresh ⊢
  exact fun mem => fresh (h mem)

/-! ### The order -/

section Search

variable (edges : ∀ u v, v ∈ next u → u ∈ vertices)

include edges

omit [DecidableEq α] in
theorem next_eq_nil (leaf : x ∉ vertices) : next x = [] :=
  List.eq_nil_iff_forall_not_mem.2 fun y edge => leaf (edges x y edge)

/-- A node that is not marked is listed, then what is below it, then the rest. -/
theorem visit_cons (fresh : x ∉ seen) : visit vertices next seen (x :: stack) =
    x :: (visit vertices next (x :: seen) (next x) ++
      visit vertices next (x :: seen ++ visit vertices next (x :: seen) (next x)) stack) := by
  rw [visit, if_neg fresh]
  split
  · rw [visit_append]
  · next leaf => rw [next_eq_nil edges leaf, visit.eq_1, List.nil_append, List.append_nil]

/-- A search that starts at a node lists it, then what is below it. -/
theorem visit_singleton :
    visit vertices next [] [x] = x :: visit vertices next [x] (next x) := by
  rw [visit_cons edges List.not_mem_nil, visit.eq_1, List.append_nil]

theorem depthFirst_visit (seen stack : List α) :
    DepthFirst next seen stack (visit vertices next seen stack) := by
  match stack with
  | [] =>
    rw [visit]
    exact .done seen
  | x :: stack =>
    by_cases marked : x ∈ seen
    · rw [visit, if_pos marked]
      exact .skip marked (depthFirst_visit seen stack)
    · rw [visit_cons edges marked]
      exact .enter marked (depthFirst_visit (x :: seen) (next x)) (depthFirst_visit _ stack)
termination_by ((unseen vertices seen).length, stack.length)
decreasing_by
  · exact Prod.Lex.right _ (Nat.lt_succ_self _)
  · by_cases vertex : x ∈ vertices
    · exact Prod.Lex.left _ _ (length_unseen_cons_lt vertex marked)
    · rw [next_eq_nil edges vertex]
      exact Prod.Lex.right' _ (length_unseen_cons_le vertices seen x) (Nat.succ_pos _)
  · exact Prod.Lex.right' _ (length_unseen_le (List.subset_append_of_subset_left _
      (List.subset_cons_self x seen))) (Nat.lt_succ_self _)

/-- A traversal lists the nodes in depth-first order. -/
theorem depthFirst_iff : DepthFirst next seen stack l ↔ l = visit vertices next seen stack := by
  refine ⟨fun h => ?_, fun h => h ▸ depthFirst_visit edges seen stack⟩
  induction h with
  | done => rw [visit]
  | skip marked _ ih => rw [visit, if_pos marked, ih]
  | enter fresh _ _ sub rest => rw [visit_cons edges fresh, ← sub, ← rest]

/-! ### The nodes -/

theorem mem_visit_iff_reflTransGen :
    y ∈ visit vertices next [] [x] ↔ Relation.ReflTransGen (fun u v => v ∈ next u) x y := by
  refine ⟨fun mem => ?_, fun path => ?_⟩
  · refine forall_mem_visit ?_ ?_ y mem
    · intro z start
      rw [List.mem_singleton.1 start]
    · exact fun u _ path v edge => path.tail edge
  · induction path with
    | refl => exact (mem_visit_of_mem List.mem_cons_self).resolve_left List.not_mem_nil
    | tail _ edge ih =>
      exact (mem_visit_of_mem_next ih (edges _ _ edge) edge).resolve_left List.not_mem_nil

/-- A search that starts below a node lists what can be reached, without the node. -/
theorem mem_visit_iff_transGen : y ∈ visit vertices next [x] (next x) ↔
    y ≠ x ∧ Relation.TransGen (fun u v => v ∈ next u) x y := by
  have reached := mem_visit_iff_reflTransGen edges (x := x) (y := y)
  rw [visit_singleton edges, List.mem_cons, Relation.reflTransGen_iff_eq_or_transGen] at reached
  have fresh : y ∈ visit vertices next [x] (next x) → y ≠ x := fun mem same =>
    not_mem_of_mem_visit mem (List.mem_singleton.2 same)
  exact ⟨fun mem => ⟨fresh mem, (reached.1 (.inr mem)).resolve_left (fresh mem)⟩,
    fun h => (reached.2 (.inr h.2)).resolve_left h.1⟩

end Search

/-! ### The first node of a kind -/

/-- The first element of a list that has the property. -/
def IsFirst {α : Type} (P : α → Prop) (l : List α) (x : α) : Prop :=
  ∃ before after, l = before ++ x :: after ∧ P x ∧ ∀ y ∈ before, ¬ P y

namespace IsFirst

variable {α : Type} {P Q : α → Prop} {l : List α} {x : α}

theorem mem (h : IsFirst P l x) : x ∈ l := by
  obtain ⟨before, after, rfl, -⟩ := h
  exact List.mem_append_right before List.mem_cons_self

theorem congr (h : IsFirst P l x) (same : ∀ y ∈ l, P y ↔ Q y) : IsFirst Q l x := by
  have here := (same x h.mem).1
  obtain ⟨before, after, rfl, holds, none⟩ := h
  exact ⟨before, after, rfl, here holds,
    fun y mem => mt (same y (List.mem_append_left _ mem)).2 (none y mem)⟩

end IsFirst

theorem find?_eq_some_iff_isFirst {α : Type} {p : α → Bool} {l : List α} {x : α} :
    l.find? p = some x ↔ IsFirst (p · = true) l x := by
  rw [List.find?_eq_some_iff_append, IsFirst]
  constructor
  · rintro ⟨holds, before, after, whole, none⟩
    exact ⟨before, after, whole, holds, fun y mem => by simpa using none y mem⟩
  · rintro ⟨before, after, whole, holds, none⟩
    exact ⟨holds, before, after, whole, fun y mem => by simpa using none y mem⟩

theorem findSome?_eq_some_iff_isFirst {α β : Type} {g : α → Option β} {l : List α} {b : β} :
    l.findSome? g = some b ↔ ∃ x, IsFirst (fun y => (g y).isSome) l x ∧ g x = some b := by
  rw [List.findSome?_eq_some_iff]
  constructor
  · rintro ⟨before, x, after, whole, found, none⟩
    refine ⟨x, ⟨before, after, whole, ?_, fun y mem => ?_⟩, found⟩
    · simp [found]
    · simp [none y mem]
  · rintro ⟨x, ⟨before, after, whole, -, none⟩, found⟩
    exact ⟨before, x, after, whole, found, fun y mem => by simpa using none y mem⟩

end EntityModel
