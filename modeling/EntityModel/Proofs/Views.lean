/-
Repositories seen handle by handle.

A repository is its size, its name index and what `get?` finds at each handle, so
every change is described by what it does to these three:

* `get?_set`, `get?_adjust`, `get?_push` — the changes of the arena;
* `ext_get?` — a repository is determined by what is seen of it.
-/
import EntityModel.Hierarchy

namespace EntityModel

/-- The type with `f` applied to it if it is complex. -/
def TypeNode.mapComplex (f : ComplexType → ComplexType) : TypeNode → TypeNode
  | .simple t => .simple t
  | .complex t => .complex (f t)

namespace TypeNode

variable (f : ComplexType → ComplexType)

@[simp] theorem mapComplex_simple (t : SimpleType) : (simple t).mapComplex f = .simple t := rfl

@[simp] theorem mapComplex_complex (t : ComplexType) :
    (complex t).mapComplex f = .complex (f t) := rfl

@[simp] theorem complex?_simple (t : SimpleType) : (simple t).complex? = none := rfl

@[simp] theorem complex?_complex (t : ComplexType) : (complex t).complex? = some t := rfl

@[simp] theorem complex?_mapComplex (n : TypeNode) :
    (n.mapComplex f).complex? = n.complex?.map f := by
  cases n <;> rfl

@[simp] theorem mapComplex_id (n : TypeNode) : (n.mapComplex fun t => t) = n := by
  cases n <;> rfl

theorem mapComplex_mapComplex (g : ComplexType → ComplexType) (n : TypeNode) :
    (n.mapComplex f).mapComplex g = n.mapComplex fun t => g (f t) := by
  cases n <;> rfl

theorem complex?_eq_some {n : TypeNode} {t : ComplexType} :
    n.complex? = some t ↔ n = .complex t := by
  cases n <;> simp

end TypeNode

namespace Repository

variable {r : Repository} {id u : TypeId}

theorem complex?_eq_some {t : ComplexType} :
    r.complex? id = some t ↔ r.get? id = some (.complex t) := by
  simp [complex?, Option.bind_eq_some_iff, TypeNode.complex?_eq_some]

theorem get_eq_ok {n : TypeNode} (h : r.get? id = some n) : r.get id = .ok n := by
  simp [get, h]

theorem get_eq_ok_iff {n : TypeNode} : r.get id = .ok n ↔ r.get? id = some n := by
  rw [get]
  split <;> simp_all

theorem get_eq_error (h : r.get? id = none) : r.get id = .error (.unknownType id) := by
  simp [get, h]

theorem complex_eq_ok {t : ComplexType} (h : r.get? id = some (.complex t)) :
    r.complex id = .ok t := by
  simp [complex, h]

theorem complex_eq_ok_iff {t : ComplexType} : r.complex id = .ok t ↔ r.complex? id = some t := by
  rw [complex?_eq_some, complex]
  split <;> simp_all

theorem mem_ids : id ∈ r.ids ↔ id.index < r.types.size := by
  simp only [ids, List.mem_map, List.mem_range]
  constructor
  · rintro ⟨i, lt, rfl⟩
    exact lt
  · intro lt
    exact ⟨id.index, lt, rfl⟩

theorem mem_ids_iff_get? : id ∈ r.ids ↔ (r.get? id).isSome := by
  rw [mem_ids, get?, isSome_getElem?]

theorem mem_ids_of_get? {n : TypeNode} (found : r.get? id = some n) : id ∈ r.ids :=
  mem_ids_iff_get?.2 (by rw [found]; rfl)

theorem ids_congr {r' : Repository} (h : r'.types.size = r.types.size) : r'.ids = r.ids := by
  rw [ids, ids, h]

theorem size_congr {r' : Repository} (h : ∀ u, r'.get? u = none ↔ r.get? u = none) :
    r'.types.size = r.types.size := by
  have same : ∀ i : Nat, i < r'.types.size ↔ i < r.types.size := by
    intro i
    have none := h ⟨i⟩
    simp only [get?, Array.getElem?_eq_none_iff] at none
    omega
  have one := same r.types.size
  have two := same r'.types.size
  omega

/-! ### What changes do -/

theorem get?_set (t : TypeNode) :
    (r.set id t).get? u = if u = id then (r.get? u).map fun _ => t else r.get? u := by
  simp only [get?, set, Array.getElem?_setIfInBounds]
  by_cases same : u = id
  · subst same
    by_cases lt : u.index < r.types.size
    · simp [lt]
    · simp [lt]
  · have other : ¬ id.index = u.index := fun e => same (by cases u; cases id; simp_all)
    simp [same, other]

/-- A change of complex types is not seen where there is none. -/
theorem map_mapComplex_of_absent (absent : r.complex? u = none)
    (f : ComplexType → ComplexType) : (r.get? u).map (·.mapComplex f) = r.get? u := by
  cases found : r.get? u with
  | none => rfl
  | some n =>
    cases n with
    | simple t => rfl
    | complex t => cases (complex?_eq_some.2 found).symm.trans absent

theorem get?_adjust (f : ComplexType → ComplexType) :
    (r.adjust id f).get? u =
      (r.get? u).map (·.mapComplex fun t => if u = id then f t else t) := by
  rw [adjust]
  split
  · next t found =>
    rw [get?_set]
    by_cases same : u = id
    · subst same
      simp [complex?_eq_some.1 found]
    · simp [same]
  · next absent =>
    by_cases same : u = id
    · subst same
      exact (map_mapComplex_of_absent absent _).symm
    · simp [same]

theorem complex?_eq_map {r' : Repository} {f : ComplexType → ComplexType}
    (h : r'.get? u = (r.get? u).map (·.mapComplex f)) :
    r'.complex? u = (r.complex? u).map f := by
  rw [complex?, h, complex?]
  cases r.get? u with
  | none => rfl
  | some n => exact TypeNode.complex?_mapComplex f n

theorem map_complex? {β : Type} (f : ComplexType → β) :
    (r.complex? u).map f = ((r.get? u).map fun n => n.complex?.map f).join := by
  rw [complex?]
  cases r.get? u <;> rfl

theorem complexSuperTypesOf_eq_getD :
    r.complexSuperTypesOf u = ((r.complex? u).map (·.shape.superTypes)).getD [] := by
  rw [complexSuperTypesOf]
  cases r.complex? u <;> rfl

theorem get?_push (t : TypeNode) :
    (r.push t).get? u = if u = r.nextId then some t else r.get? u := by
  simp only [get?, push, nextId, Array.getElem?_push]
  by_cases same : u.index = r.types.size
  · have : u = ⟨r.types.size⟩ := by cases u; simp_all
    simp [this]
  · have : u ≠ ⟨r.types.size⟩ := fun e => same (by rw [e])
    simp [this, same]

theorem get?_nextId : r.get? r.nextId = none := by
  simp [get?, nextId]

@[simp] theorem size_set (t : TypeNode) : (r.set id t).types.size = r.types.size := by
  simp [set]

@[simp] theorem size_adjust (f : ComplexType → ComplexType) :
    (r.adjust id f).types.size = r.types.size := by
  rw [adjust]
  split <;> simp

@[simp] theorem names_set (t : TypeNode) : (r.set id t).names = r.names := rfl

@[simp] theorem names_adjust (f : ComplexType → ComplexType) :
    (r.adjust id f).names = r.names := by
  rw [adjust]
  split <;> rfl

@[simp] theorem builtinNamespace_set (t : TypeNode) :
    (r.set id t).builtinNamespace = r.builtinNamespace := rfl

@[simp] theorem builtinNamespace_adjust (f : ComplexType → ComplexType) :
    (r.adjust id f).builtinNamespace = r.builtinNamespace := by
  rw [adjust]
  split <;> rfl

/-- A repository is determined by its types, its name index and its namespace. -/
theorem ext_get? {r s : Repository} (types : ∀ id, r.get? id = s.get? id)
    (names : r.names = s.names) (builtin : r.builtinNamespace = s.builtinNamespace) : r = s := by
  obtain ⟨rt, rn, rb⟩ := r
  obtain ⟨st, sn, sb⟩ := s
  obtain rfl : rt = st := Array.ext_getElem? fun i => types ⟨i⟩
  obtain rfl : rn = sn := names
  obtain rfl : rb = sb := builtin
  rfl

end Repository

end EntityModel
