/-
What names mean.

A plain name is looked up in the lineage of the type (`field_eq_ok_iff`), where an own field
comes first (`inheritedField?_of_ownField?`).
-/
import EntityModel.Proofs.Traversals
import EntityModel.Proofs.Views
import EntityModel.Resolution

namespace EntityModel

theorem findSome?_congr {α β : Type} {f g : α → Option β} {l : List α}
    (h : ∀ x ∈ l, f x = g x) : l.findSome? f = l.findSome? g := by
  induction l with
  | nil => rfl
  | cons x rest ih =>
    rw [List.findSome?_cons, List.findSome?_cons, h x List.mem_cons_self,
      ih fun y hy => h y (List.mem_cons_of_mem x hy)]

namespace Repository

variable {r s : Repository} {id u : TypeId} {name : String}

/-- The field `name` of the complex type at `id` itself. -/
def ownField? (r : Repository) (id : TypeId) (name : String) : Option Field :=
  (r.complex? id).bind (·.ownField? name)

theorem ownField?_eq_join (r : Repository) (id : TypeId) (name : String) :
    r.ownField? id name =
      ((r.get? id).map fun n => n.complex?.bind (·.ownField? name)).join := by
  rw [ownField?, complex?]
  cases r.get? id <;> rfl

theorem lineage_eq_cons (r : Repository) (id : TypeId) : ∃ rest, r.lineage id = id :: rest := by
  rw [lineage, visit, if_neg (by simp)]
  split
  · exact ⟨_, rfl⟩
  · exact ⟨_, rfl⟩

theorem mem_lineage_self : id ∈ r.lineage id := by
  obtain ⟨rest, eq⟩ := r.lineage_eq_cons id
  rw [eq]
  exact List.mem_cons_self

theorem mem_ids_of_mem_complexSuperTypesOf {v : TypeId} (h : v ∈ r.complexSuperTypesOf u) :
    u ∈ r.ids := by
  rw [complexSuperTypesOf_eq_getD] at h
  refine mem_ids_iff_get?.2 ?_
  cases found : r.get? u with
  | none => simp [complex?, found] at h
  | some n => rfl

theorem mem_lineage_of_mem {v : TypeId} (hu : u ∈ r.lineage id)
    (hv : v ∈ r.complexSuperTypesOf u) : v ∈ r.lineage id :=
  (mem_visit_of_mem_next hu (mem_ids_of_mem_complexSuperTypesOf hv) hv).resolve_left (by simp)

theorem inheritedField?_eq_findSome? (r : Repository) (id : TypeId) (name : String) :
    r.inheritedField? id name = (r.lineage id).findSome? (r.ownField? · name) := rfl

theorem inheritedField?_of_ownField? {f : Field} (h : r.ownField? id name = some f) :
    r.inheritedField? id name = some f := by
  obtain ⟨rest, eq⟩ := r.lineage_eq_cons id
  rw [inheritedField?_eq_findSome?, eq, List.findSome?_cons, h]

/-- A name is resolved by looking it up in the lineage. -/
theorem field_eq_ok_iff {t : ComplexType} (found : r.complex? id = some t) (nonempty : name ≠ "")
    (plain : Path.isNested name = false) {f : Field} :
    r.field id name = .ok f ↔ r.inheritedField? id name = some f := by
  have named : name.isEmpty = false := by simpa using nonempty
  rw [field, resolve, complex_eq_ok_iff.2 found]
  simp only [resolveFrom, named, plain, Bool.false_eq_true, if_false]
  cases r.inheritedField? id name with
  | none => simp [Resolution.failure]
  | some g => simp

/-! ### Two repositories -/

/-- The two repositories have the same names, and the same complex types. -/
def SameSorts (r s : Repository) : Prop :=
  ∀ u, (r.get? u).map (fun n => (n.name, n.complex?.isSome)) =
    (s.get? u).map fun n => (n.name, n.complex?.isSome)

namespace SameSorts

theorem ids (h : SameSorts r s) : s.ids = r.ids := by
  refine ids_congr (size_congr fun u => ?_)
  have none := congrArg Option.isNone (h u)
  rw [Option.isNone_map, Option.isNone_map] at none
  rw [← Option.isNone_iff_eq_none, ← Option.isNone_iff_eq_none, none]

theorem map_name (h : SameSorts r s) (u : TypeId) :
    (r.complex? u).map (·.name) = (s.complex? u).map (·.name) := by
  have view : ∀ r : Repository, (r.complex? u).map (·.name) =
      ((r.get? u).map fun n => (n.name, n.complex?.isSome)).bind fun p =>
        if p.2 then some p.1 else none := by
    intro r
    rw [complex?]
    cases r.get? u with
    | none => rfl
    | some n => cases n <;> rfl
  rw [view, view, h u]

theorem complex?_eq_none (h : SameSorts r s) : r.complex? u = none ↔ s.complex? u = none := by
  have named := h.map_name u
  rw [← Option.map_eq_none_iff, named, Option.map_eq_none_iff]

end SameSorts

end Repository

end EntityModel
