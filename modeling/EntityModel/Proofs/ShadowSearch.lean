/-
Searches of a graph with shadows.

A graph is enlarged by shadows of its nodes: a shadow follows where its source has what it
shadows after it, and only shadows come after it (`IsShadowed`).  A depth-first search of the
enlarged graph lists every shadow after its source (`sourcesFirst_visit`), and without the
shadows it is the search of the graph (`filter_visit`).  So the first node with a property that
shadows share with their sources is the same in both (`SourcesFirst.find?_eq`).

That a shadow comes late is seen from the stack: what a marked node has still to be followed
by lies below nodes that can be reached from it (`IsPending`), and in a graph without cycles a
shadow cannot be reached from its source.
-/
import EntityModel.Proofs.Traversals
import Mathlib.Logic.Relation

namespace EntityModel

variable {α : Type} [DecidableEq α]
variable {old : α → Prop} {source : α → α} {seen seen' stack l : List α} {x y : α}

omit [DecidableEq α]

/-! ### Sources before shadows -/

/-- Every shadow in the list comes after its source, or its source is marked. -/
def SourcesFirst (old : α → Prop) (source : α → α) : List α → List α → Prop
  | _, [] => True
  | seen, x :: rest => (old x ∨ source x ∈ seen) ∧ SourcesFirst old source (x :: seen) rest

theorem SourcesFirst.mono (h : SourcesFirst old source seen l) (sub : seen ⊆ seen') :
    SourcesFirst old source seen' l := by
  induction l generalizing seen seen' with
  | nil => trivial
  | cons x rest ih => exact ⟨h.1.imp_right (@sub _), ih h.2 (List.cons_subset_cons x sub)⟩

theorem SourcesFirst.append {rest : List α} (h : SourcesFirst old source seen l)
    (h' : SourcesFirst old source (l ++ seen) rest) : SourcesFirst old source seen (l ++ rest) := by
  induction l generalizing seen with
  | nil => exact h'
  | cons x tail ih => exact ⟨h.1, ih h.2 (h'.mono fun y mem => by simpa [or_left_comm] using mem)⟩

theorem sourcesFirst_of_forall (h : ∀ x ∈ l, old x ∨ source x ∈ seen) :
    SourcesFirst old source seen l := by
  induction l generalizing seen with
  | nil => trivial
  | cons x rest ih =>
    refine ⟨h x List.mem_cons_self, ih fun y mem => ?_⟩
    exact (h y (List.mem_cons_of_mem x mem)).imp_right (List.mem_cons_of_mem x)

/-- The first node with a property is old, if shadows share it with their sources. -/
theorem SourcesFirst.find?_eq {p q : α → Bool} (h : SourcesFirst (p · = true) source seen l)
    (shared : ∀ x ∈ l, p x = false → q x = true → q (source x) = true)
    (none : ∀ x ∈ seen, q x = false) : l.find? q = (l.filter p).find? q := by
  induction l generalizing seen with
  | nil => rfl
  | cons x rest ih =>
    cases holds : q x with
    | false =>
      have tail := ih h.2 (fun y mem => shared y (List.mem_cons_of_mem x mem))
        (List.forall_mem_cons.2 ⟨holds, none⟩)
      rw [List.find?_cons_of_neg (by simp [holds]), tail]
      cases here : p x with
      | true => rw [List.filter_cons_of_pos here, List.find?_cons_of_neg (by simp [holds])]
      | false => rw [List.filter_cons_of_neg (by simp [here])]
    | true =>
      cases here : p x with
      | true =>
        rw [List.find?_cons_of_pos holds, List.filter_cons_of_pos here,
          List.find?_cons_of_pos holds]
      | false =>
        -- its source has the property too and was marked
        have marked := h.1.resolve_left (by simp [here])
        have both := shared x List.mem_cons_self here holds
        rw [none _ marked] at both
        cases both

/-! ### Graphs with shadows -/

variable {next : α → List α}

/-- Every node that is not `old` is the shadow of an old one, its `source`. -/
structure IsShadowed (next : α → List α) (old : α → Prop) (source : α → α) : Prop where
  fixed : ∀ x, old x → source x = x
  isOld : ∀ x y, y ∈ next x → old (source x) ∧ old (source y)
  /-- A shadow is where its source is. -/
  edges : ∀ x y, y ∈ next x → source y ∈ next (source x)
  /-- After an old node, shadows come after their sources. -/
  lists : ∀ x, old x → SourcesFirst old source [] (next x)
  acyclic : ∀ x, old x → ¬ Relation.TransGen (fun x y => y ∈ next x) x x

/-- What follows a marked node is marked, or is in the stack below nodes that can be reached
from the marked one. -/
def IsPending (next : α → List α) (seen stack : List α) : Prop :=
  ∀ x ∈ seen, ∀ y ∈ next x, y ∈ seen ∨ ∃ above below, stack = above ++ y :: below ∧
    ∀ z ∈ above, Relation.TransGen (fun x y => y ∈ next x) x z

namespace IsPending

theorem cons_cases (h : IsPending next seen (x :: stack)) {s : α} (marked : s ∈ seen)
    (hy : y ∈ next s) : y ∈ seen ∨ y = x ∨ ∃ above below, stack = above ++ y :: below ∧
      Relation.TransGen (fun x y => y ∈ next x) s x ∧
      ∀ z ∈ above, Relation.TransGen (fun x y => y ∈ next x) s z := by
  rcases h s marked y hy with done | ⟨above, below, whole, reached⟩
  · exact .inl done
  · cases above with
    | nil => exact .inr (.inl (List.cons.inj whole).1.symm)
    | cons z above =>
      obtain ⟨rfl, rest⟩ := List.cons.inj whole
      exact .inr (.inr ⟨above, below, rest, reached x List.mem_cons_self,
        fun z mem => reached z (List.mem_cons_of_mem x mem)⟩)

theorem skip (h : IsPending next seen (x :: stack)) (marked : x ∈ seen) :
    IsPending next seen stack := by
  intro s hs y hy
  rcases h.cons_cases hs hy with done | rfl | ⟨above, below, whole, -, reached⟩
  · exact .inl done
  · exact .inl marked
  · exact .inr ⟨above, below, whole, reached⟩

/-- A node is marked, and what follows it is put on the stack. -/
theorem mark (h : IsPending next seen (x :: stack)) :
    IsPending next (x :: seen) (next x ++ stack) := by
  intro s hs y hy
  rcases List.mem_cons.1 hs with rfl | hs
  · obtain ⟨above, below, whole⟩ := List.append_of_mem hy
    refine .inr ⟨above, below ++ stack, by rw [whole, List.append_assoc, List.cons_append], ?_⟩
    exact fun z mem => .single (by rw [whole]; exact List.mem_append_left _ mem)
  · rcases h.cons_cases hs hy with done | rfl | ⟨above, below, whole, here, reached⟩
    · exact .inl (List.mem_cons_of_mem x done)
    · exact .inl List.mem_cons_self
    · refine .inr ⟨next x ++ above, below, by rw [whole, List.append_assoc], fun z mem => ?_⟩
      rcases List.mem_append.1 mem with mem | mem
      · exact here.tail mem
      · exact reached z mem

end IsPending

namespace IsShadowed

variable (S : IsShadowed next old source)

include S

theorem transGen_source (path : Relation.TransGen (fun x y => y ∈ next x) x y) :
    Relation.TransGen (fun x y => y ∈ next x) (source x) (source y) :=
  path.lift source S.edges

/-- When a shadow is visited whose source is marked, all that follows its source is marked. -/
theorem mem_of_mem_next (pending : IsPending next seen (x :: stack)) (shadow : ¬ old x)
    (marked : source x ∈ seen) (hy : y ∈ next x) : source y ∈ seen := by
  obtain ⟨oldX, oldY⟩ := S.isOld x y hy
  rcases pending.cons_cases marked (S.edges x y hy) with done | same | ⟨-, -, -, reached, -⟩
  · exact done
  · rw [same] at oldY
    exact absurd oldY shadow
  · have round := S.transGen_source reached
    rw [S.fixed _ oldX] at round
    exact absurd round (S.acyclic _ oldX)

/-- A search lists shadows after their sources. -/
theorem sourcesFirst_visit [DecidableEq α] {vertices : List α}
    (leaves : ∀ x, x ∉ vertices → next x = []) (pending : IsPending next seen stack)
    (first : SourcesFirst old source seen stack) :
    SourcesFirst old source seen (visit vertices next seen stack) := by
  fun_induction visit vertices next seen stack with
  | case1 => trivial
  | case2 seen x stack marked ih =>
    exact ih (pending.skip marked) (first.2.mono (List.cons_subset.2 ⟨marked, List.Subset.refl _⟩))
  | case3 seen x stack _ _ ih =>
    have later := first.2.mono (List.subset_append_right (next x) (x :: seen))
    refine ⟨first.1, ih pending.mark (.append ?_ later)⟩
    rcases Classical.em (old x) with here | shadow
    · exact (S.lists x here).mono (List.nil_subset _)
    · refine sourcesFirst_of_forall fun y hy => .inr (List.mem_cons_of_mem x ?_)
      exact S.mem_of_mem_next pending shadow (first.1.resolve_left shadow) hy
  | case4 seen x stack _ leaf ih =>
    have pending := pending.mark
    rw [leaves x leaf, List.nil_append] at pending
    exact ⟨first.1, ih pending first.2⟩

end IsShadowed

/-- Without the shadows, a search of the enlarged graph is that of the graph. -/
theorem filter_visit [DecidableEq α] {p : α → Bool} {vertices vertices' : List α}
    {next' : α → List α} (same : ∀ x, p x = true → (x ∈ vertices' ↔ x ∈ vertices))
    (edges : ∀ x, p x = true → (next' x).filter p = next x)
    (shadows : ∀ x, p x = false → (next' x).filter p = [])
    (marked : ∀ x, p x = true → (x ∈ seen' ↔ x ∈ seen)) :
    (visit vertices' next' seen' stack).filter p =
      visit vertices next seen (stack.filter p) := by
  have mark : ∀ {seen seen' : List α} (x : α), (∀ y, p y = true → (y ∈ seen' ↔ y ∈ seen)) →
      ∀ y, p y = true → (y ∈ x :: seen' ↔ y ∈ x :: seen) := by
    intro seen seen' x h y hy
    rw [List.mem_cons, List.mem_cons, h y hy]
  have skip : ∀ {seen seen' : List α} {x : α}, p x = false →
      (∀ y, p y = true → (y ∈ seen' ↔ y ∈ seen)) →
      ∀ y, p y = true → (y ∈ x :: seen' ↔ y ∈ seen) := by
    intro seen seen' x hx h y hy
    have other : y ≠ x := by
      rintro rfl
      rw [hx] at hy
      cases hy
    rw [List.mem_cons, or_iff_right other, h y hy]
  fun_induction visit vertices' next' seen' stack generalizing seen with
  | case1 => simp only [List.filter_nil, visit]
  | case2 seen' x stack done ih =>
    cases hx : p x with
    | true =>
      rw [List.filter_cons_of_pos hx, visit, if_pos ((marked x hx).1 done)]
      exact ih marked
    | false =>
      rw [List.filter_cons_of_neg (by simp [hx])]
      exact ih marked
  | case3 seen' x stack fresh vertex ih =>
    cases hx : p x with
    | true =>
      rw [List.filter_cons_of_pos hx, List.filter_cons_of_pos hx, visit,
        if_neg (mt (marked x hx).2 fresh), if_pos ((same x hx).1 vertex), ih (mark x marked),
        List.filter_append, edges x hx]
    | false =>
      rw [List.filter_cons_of_neg (by simp [hx]), List.filter_cons_of_neg (by simp [hx]),
        ih (skip hx marked), List.filter_append, shadows x hx, List.nil_append]
  | case4 seen' x stack fresh leaf ih =>
    cases hx : p x with
    | true =>
      rw [List.filter_cons_of_pos hx, List.filter_cons_of_pos hx, visit,
        if_neg (mt (marked x hx).2 fresh), if_neg (mt (same x hx).2 leaf), ih (mark x marked)]
    | false =>
      rw [List.filter_cons_of_neg (by simp [hx]), List.filter_cons_of_neg (by simp [hx]),
        ih (skip hx marked)]

end EntityModel
