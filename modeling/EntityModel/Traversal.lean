/-
Depth-first traversal of a finite graph.

`visit` lists what can be reached from a stack of starting points, each once, a
node before what follows it and the first successor first.  The successors of a
node count only if it is one of the given vertices; anything else is a leaf.  It
ends because each step either marks a vertex or shortens the stack.
-/

namespace EntityModel

variable {α : Type} [DecidableEq α]

/-- The vertices that are not marked. -/
def unseen (vertices seen : List α) : List α := vertices.filter fun v => v ∉ seen

theorem length_unseen_cons_le (vertices seen : List α) (x : α) :
    (unseen vertices (x :: seen)).length ≤ (unseen vertices seen).length := by
  simp only [unseen, ← List.countP_eq_length_filter]
  refine List.countP_mono_left fun v _ h => ?_
  simp only [decide_eq_true_eq, List.mem_cons, not_or] at h ⊢
  exact h.2

theorem length_unseen_cons_lt {vertices seen : List α} {x : α} (hx : x ∈ vertices)
    (h : x ∉ seen) : (unseen vertices (x :: seen)).length < (unseen vertices seen).length := by
  induction vertices with
  | nil => simp at hx
  | cons v rest ih =>
    have tail := length_unseen_cons_le rest seen x
    simp only [unseen] at tail ih ⊢
    by_cases same : v = x
    · subst same
      simpa [h] using Nat.lt_succ_of_le tail
    · have hx : x ∈ rest := (List.mem_cons.1 hx).resolve_left fun e => same e.symm
      by_cases marked : v ∈ seen <;> simpa [marked, same] using ih hx

/-- What can be reached from the stack without passing a marked node, in depth-first
order. -/
def visit (vertices : List α) (next : α → List α) (seen : List α) : List α → List α
  | [] => []
  | x :: stack =>
    if x ∈ seen then visit vertices next seen stack
    else if x ∈ vertices then x :: visit vertices next (x :: seen) (next x ++ stack)
    else x :: visit vertices next (x :: seen) stack
termination_by stack => ((unseen vertices seen).length, stack.length)
decreasing_by
  · exact Prod.Lex.right _ (Nat.lt_succ_self _)
  · next unmarked vertex => exact Prod.Lex.left _ _ (length_unseen_cons_lt vertex unmarked)
  · rcases Nat.lt_or_eq_of_le (length_unseen_cons_le vertices seen x) with lt | eq
    · exact Prod.Lex.left _ _ lt
    · rw [eq]
      exact Prod.Lex.right _ (Nat.lt_succ_self _)

end EntityModel
