/-
Trees of subtypes.

A type and what is reached from it through direct subtypes (`Repository.below`), and the order
in which a search lists them (`Repository.tree`).  A search sees complex types only, so the two
hold the same types where all that lies below is complex (`mem_tree_iff`).
-/
import EntityModel.Proofs.DepthFirst
import EntityModel.Proofs.FrozenTypes

namespace EntityModel

namespace Repository

variable {r : Repository} {id u v x y : TypeId} {t : ComplexType}

/-- The type and what is reached from it through direct subtypes. -/
def below (r : Repository) (id : TypeId) : Set TypeId :=
  {x | Relation.ReflTransGen (fun x y => y ∈ r.declaredSubTypesOf x) id x}

/-- The type and its subtypes, each before what is below it. -/
def tree (r : Repository) (id : TypeId) : List TypeId := id :: r.subTypes id

theorem mem_declaredSubTypesOf (found : r.complex? x = some t) :
    y ∈ r.declaredSubTypesOf x ↔ y ∈ t.subTypes := by
  rw [declaredSubTypesOf, found]
  exact List.mem_reverse

theorem exists_of_mem_declaredSubTypesOf (listed : y ∈ r.declaredSubTypesOf x) :
    ∃ t, r.complex? x = some t ∧ y ∈ t.subTypes := by
  cases found : r.complex? x with
  | none => simp [declaredSubTypesOf, found] at listed
  | some t => exact ⟨t, rfl, (mem_declaredSubTypesOf found).1 listed⟩

theorem mem_complexSuperTypesOf (found : r.complex? x = some t) :
    y ∈ r.complexSuperTypesOf x ↔ y ∈ t.shape.superTypes := by
  rw [complexSuperTypesOf, found]

theorem mem_complexSubTypesOf :
    y ∈ r.complexSubTypesOf x ↔ y ∈ r.declaredSubTypesOf x ∧ (r.complex? y).isSome := by
  rw [complexSubTypesOf, declaredSubTypesOf]
  cases r.complex? x with
  | none => simp
  | some t => rw [List.mem_filter, List.mem_reverse]

theorem mem_ids_of_isSome (found : (r.complex? x).isSome) : x ∈ r.ids := by
  obtain ⟨t, found⟩ := Option.isSome_iff_exists.1 found
  exact mem_ids_of_complex? found

theorem mem_ids_of_mem_complexSubTypesOf (h : v ∈ r.complexSubTypesOf u) : u ∈ r.ids := by
  obtain ⟨t, found, -⟩ := exists_of_mem_declaredSubTypesOf (mem_complexSubTypesOf.1 h).1
  exact mem_ids_of_complex? found

theorem complex?_of_mem_complexSubTypesOf (h : v ∈ r.complexSubTypesOf u) :
    ∃ t, r.complex? v = some t :=
  Option.isSome_iff_exists.1 (mem_complexSubTypesOf.1 h).2

theorem complex?_of_mem_subTypes (h : v ∈ r.subTypes u) : ∃ t, r.complex? v = some t :=
  forall_mem_visit (fun _ hw => complex?_of_mem_complexSubTypesOf hw)
    (fun _ _ _ _ hw => complex?_of_mem_complexSubTypesOf hw) v h

theorem nodup_tree : (r.tree id).Nodup :=
  List.nodup_cons.2 ⟨fun mem => not_mem_of_mem_visit mem List.mem_cons_self, nodup_visit⟩

theorem visit_eq_tree : visit r.ids r.complexSubTypesOf [] [id] = r.tree id :=
  visit_singleton fun _ _ => mem_ids_of_mem_complexSubTypesOf

theorem mem_tree_iff_reflTransGen :
    x ∈ r.tree id ↔ Relation.ReflTransGen (fun u v => v ∈ r.complexSubTypesOf u) id x := by
  rw [← visit_eq_tree]
  exact mem_visit_iff_reflTransGen fun _ _ => mem_ids_of_mem_complexSubTypesOf

theorem mem_tree_of_edge (hu : u ∈ r.tree id) (hv : v ∈ r.complexSubTypesOf u) : v ∈ r.tree id :=
  mem_tree_iff_reflTransGen.2 (.tail (mem_tree_iff_reflTransGen.1 hu) hv)

/-- What is closed under direct subtypes holds of all types below. -/
theorem forall_mem_below {l : List TypeId} (root : id ∈ l)
    (closed : ∀ x ∈ l, ∀ y ∈ r.declaredSubTypesOf x, y ∈ l) : ∀ x ∈ r.below id, x ∈ l := by
  intro x mem
  induction mem with
  | refl => exact root
  | tail _ edge ih => exact closed _ ih _ edge

/-- What a search lists lies below the type. -/
theorem mem_below_of_mem_tree (mem : x ∈ r.tree id) : x ∈ r.below id :=
  Relation.ReflTransGen.mono (fun _ _ edge => (mem_complexSubTypesOf.1 edge).1) _ _
    (mem_tree_iff_reflTransGen.1 mem)

section Below

variable (complete : ∀ x ∈ r.below id, (r.complex? x).isSome)

include complete

theorem mem_tree_of_mem (hx : x ∈ r.tree id) (hy : y ∈ r.declaredSubTypesOf x) :
    y ∈ r.tree id := by
  have here := mem_below_of_mem_tree hx
  exact mem_tree_of_edge hx (mem_complexSubTypesOf.2 ⟨hy, complete y (.tail here hy)⟩)

/-- Where all of that is complex, all of it is listed. -/
theorem mem_tree_iff : x ∈ r.tree id ↔ x ∈ r.below id := by
  refine ⟨mem_below_of_mem_tree, fun mem => ?_⟩
  induction mem with
  | refl => exact List.mem_cons_self
  | tail _ edge ih => exact mem_tree_of_mem complete ih edge

theorem exists_of_mem_tree (mem : x ∈ r.tree id) : ∃ t, r.complex? x = some t :=
  Option.isSome_iff_exists.1 (complete x (mem_below_of_mem_tree mem))

theorem index_lt_of_mem_tree (mem : x ∈ r.tree id) : x.index < r.types.size :=
  mem_ids.1 (mem_ids_of_isSome (complete x (mem_below_of_mem_tree mem)))

theorem complexSubTypesOf_of_mem_tree (mem : x ∈ r.tree id) (found : r.complex? x = some t) :
    r.complexSubTypesOf x = t.subTypes := by
  rw [complexSubTypesOf, found]
  refine List.filter_eq_self.2 fun y edge => ?_
  refine complete y (.tail (mem_below_of_mem_tree mem) ?_)
  exact (mem_declaredSubTypesOf found).2 edge

theorem length_tree_le : (r.tree id).length ≤ r.types.size := by
  have all : r.tree id ⊆ r.ids := fun x mem =>
    mem_ids_of_isSome (complete x (mem_below_of_mem_tree mem))
  have shorter := (nodup_tree.subperm all).length_le
  rwa [ids, List.length_map, List.length_range] at shorter

end Below

end Repository

end EntityModel
