/-
What a traversal lists.

* `mem_visit_of_mem` — every starting point that is not marked;
* `mem_visit_of_mem_next` — with a vertex everything that follows it;
* `forall_mem_visit` — nothing beyond a set that is closed under what follows;
* `visit_congr` — so the list depends only on what follows the vertices in it;
* `visit_append` — two stacks are searched one after the other;
* `nodup_visit`, `not_mem_of_mem_visit` — nothing is listed twice, and nothing that is marked.
-/
import EntityModel.Traversal

namespace EntityModel

variable {α : Type} [DecidableEq α] {vertices seen stack : List α} {next next' : α → List α}
variable {x y : α}

omit [DecidableEq α] in
/-- What is marked on the way is listed, or was marked before. -/
theorem mem_or_mem_cons {l : List α} (h : y ∈ x :: seen ∨ y ∈ l) : y ∈ seen ∨ y ∈ x :: l := by
  rcases h with mem | mem
  · rcases List.mem_cons.1 mem with rfl | mem
    · exact .inr List.mem_cons_self
    · exact .inl mem
  · exact .inr (List.mem_cons_of_mem x mem)

theorem mem_visit_of_mem (h : x ∈ stack) : x ∈ seen ∨ x ∈ visit vertices next seen stack := by
  fun_induction visit vertices next seen stack with
  | case1 => simp at h
  | case2 seen z stack marked ih =>
    rcases List.mem_cons.1 h with rfl | h
    · exact .inl marked
    · exact ih h
  | case3 seen z stack _ _ ih =>
    rcases List.mem_cons.1 h with rfl | h
    · exact .inr List.mem_cons_self
    · exact mem_or_mem_cons (ih (List.mem_append_right _ h))
  | case4 seen z stack _ _ ih =>
    rcases List.mem_cons.1 h with rfl | h
    · exact .inr List.mem_cons_self
    · exact mem_or_mem_cons (ih h)

theorem mem_visit_of_mem_next (hx : x ∈ visit vertices next seen stack) (vertex : x ∈ vertices)
    (hy : y ∈ next x) : y ∈ seen ∨ y ∈ visit vertices next seen stack := by
  fun_induction visit vertices next seen stack with
  | case1 => simp at hx
  | case2 _ _ _ _ ih => exact ih hx
  | case3 seen z stack _ _ ih =>
    refine mem_or_mem_cons ?_
    rcases List.mem_cons.1 hx with rfl | hx
    · exact mem_visit_of_mem (List.mem_append_left _ hy)
    · exact ih hx
  | case4 seen z stack _ leaf ih =>
    refine mem_or_mem_cons ?_
    rcases List.mem_cons.1 hx with rfl | hx
    · exact absurd vertex leaf
    · exact ih hx

theorem forall_mem_visit {C : α → Prop} (start : ∀ x ∈ stack, C x)
    (closed : ∀ x ∈ vertices, C x → ∀ y ∈ next x, C y) :
    ∀ x ∈ visit vertices next seen stack, C x := by
  fun_induction visit vertices next seen stack with
  | case1 => simp
  | case2 _ _ _ _ ih => exact ih fun x hx => start x (List.mem_cons_of_mem _ hx)
  | case3 seen z stack _ vertex ih =>
    have here := start z List.mem_cons_self
    refine List.forall_mem_cons.2 ⟨here, ih fun x hx => ?_⟩
    rcases List.mem_append.1 hx with hx | hx
    · exact closed z vertex here x hx
    · exact start x (List.mem_cons_of_mem _ hx)
  | case4 seen z stack _ _ ih =>
    exact List.forall_mem_cons.2 ⟨start z List.mem_cons_self,
      ih fun x hx => start x (List.mem_cons_of_mem _ hx)⟩

theorem visit_congr (h : ∀ x ∈ visit vertices next seen stack, next' x = next x) :
    visit vertices next' seen stack = visit vertices next seen stack := by
  fun_induction visit vertices next seen stack with
  | case1 => rw [visit]
  | case2 seen z stack marked ih =>
    rw [visit, if_pos marked]
    exact ih h
  | case3 seen z stack fresh vertex ih =>
    rw [visit, if_neg fresh, if_pos vertex, h z List.mem_cons_self,
      ih fun x hx => h x (List.mem_cons_of_mem z hx)]
  | case4 seen z stack fresh leaf ih =>
    rw [visit, if_neg fresh, if_neg leaf, ih fun x hx => h x (List.mem_cons_of_mem z hx)]

/-- It does not matter in which order vertices were marked. -/
theorem visit_congr_seen {seen' : List α} (h : ∀ y, y ∈ seen ↔ y ∈ seen') :
    visit vertices next seen stack = visit vertices next seen' stack := by
  have mark : ∀ {l l' : List α} (z : α), (∀ y, y ∈ l ↔ y ∈ l') → ∀ y, y ∈ z :: l ↔ y ∈ z :: l' := by
    intro l l' z same y
    rw [List.mem_cons, List.mem_cons, same y]
  fun_induction visit vertices next seen stack generalizing seen' with
  | case1 => rw [visit]
  | case2 seen z stack marked ih =>
    rw [visit, if_pos ((h z).1 marked)]
    exact ih h
  | case3 seen z stack fresh vertex ih =>
    rw [visit, if_neg (fun marked => fresh ((h z).2 marked)), if_pos vertex,
      ih (mark z h)]
  | case4 seen z stack fresh leaf ih =>
    rw [visit, if_neg (fun marked => fresh ((h z).2 marked)), if_neg leaf, ih (mark z h)]

theorem visit_append (l : List α) :
    visit vertices next seen (stack ++ l) = visit vertices next seen stack ++
      visit vertices next (seen ++ visit vertices next seen stack) l := by
  have moved : ∀ (z : α) (seen listed : List α), visit vertices next (z :: (seen ++ listed)) l =
      visit vertices next (seen ++ z :: listed) l :=
    fun z seen listed => visit_congr_seen fun y => by simp [or_left_comm]
  fun_induction visit vertices next seen stack with
  | case1 => rw [List.nil_append, List.nil_append, List.append_nil]
  | case2 seen z stack marked ih => rw [List.cons_append, visit, if_pos marked, ih]
  | case3 seen z stack fresh vertex ih =>
    rw [List.cons_append, visit, if_neg fresh, if_pos vertex, ← List.append_assoc, ih,
      List.cons_append, List.cons_append, moved]
  | case4 seen z stack fresh leaf ih =>
    rw [List.cons_append, visit, if_neg fresh, if_neg leaf, ih, List.cons_append,
      List.cons_append, moved]

theorem not_mem_of_mem_visit (h : y ∈ visit vertices next seen stack) : y ∉ seen := by
  fun_induction visit vertices next seen stack with
  | case1 => simp at h
  | case2 _ _ _ _ ih => exact ih h
  | case3 seen z stack fresh _ ih =>
    rcases List.mem_cons.1 h with rfl | h
    · exact fresh
    · exact fun marked => ih h (List.mem_cons_of_mem z marked)
  | case4 seen z stack fresh _ ih =>
    rcases List.mem_cons.1 h with rfl | h
    · exact fresh
    · exact fun marked => ih h (List.mem_cons_of_mem z marked)

theorem nodup_visit : (visit vertices next seen stack).Nodup := by
  fun_induction visit vertices next seen stack with
  | case1 => exact .nil
  | case2 _ _ _ _ ih => exact ih
  | case3 seen z stack _ _ ih =>
    exact List.nodup_cons.2 ⟨fun mem => not_mem_of_mem_visit mem List.mem_cons_self, ih⟩
  | case4 seen z stack _ _ ih =>
    exact List.nodup_cons.2 ⟨fun mem => not_mem_of_mem_visit mem List.mem_cons_self, ih⟩

end EntityModel
