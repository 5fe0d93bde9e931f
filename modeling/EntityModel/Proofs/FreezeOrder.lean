/-
The order of freezing does not matter.

If all types of a repository are frozen, then whatever the order in which that is asked
for, and whatever the order in which super types are reached from it, every type ends up
with the same fields, keys, super types and usages, and with the same subtypes up to their
order (`forM_freeze_sameStructure`).

Of two evolutions of a repository, one lists the types that are frozen so that super types
come first.  Along this list the types agree, since what a type becomes depends on its super
types alone (`skeleton_eq_of_mem`).
-/
import EntityModel.Proofs.Steps

namespace EntityModel

/-- The lifecycle without the field references of a frozen type. -/
def Lifecycle.withoutRefs : Lifecycle → Lifecycle
  | .frozen s => .frozen { s with primaryKeyInfo := [], lookupFields := [] }
  | lifecycle => lifecycle

/-- The type without its subtypes and the field references that were bound. -/
def TypeNode.skeleton (n : TypeNode) : TypeNode :=
  n.mapComplex fun t => { t with subTypes := [], lifecycle := t.lifecycle.withoutRefs }

/-- Two types agree in all that a freeze computes, but for field references and the order
of subtypes. -/
structure ComplexType.SameStructure (t t' : ComplexType) : Prop where
  fields : t.shape.fields = t'.shape.fields
  keyFields : t.shape.keyFields = t'.shape.keyFields
  superTypes : t.shape.superTypes = t'.shape.superTypes
  usages : t.usages = t'.usages
  subTypes : ∀ s, s ∈ t.subTypes ↔ s ∈ t'.subTypes

/-- Two simple types are the same, or two complex ones agree. -/
inductive TypeNode.SameStructure : TypeNode → TypeNode → Prop
  | simple {t} : SameStructure (.simple t) (.simple t)
  | complex {t t'} (h : t.SameStructure t') : SameStructure (.complex t) (.complex t')

theorem Lifecycle.shape_withoutRefs {β : Type} {f : TypeShape → β}
    (blind : ∀ s : TypeShape, f { s with primaryKeyInfo := [], lookupFields := [] } = f s)
    (l : Lifecycle) : f l.withoutRefs.shape = f l.shape := by
  cases l with
  | frozen s => exact blind s
  | building | freezing => rfl

theorem ComplexType.SameStructure.of_skeleton {t t' : ComplexType}
    (h : (TypeNode.complex t).skeleton = (TypeNode.complex t').skeleton)
    (subTypes : ∀ s, s ∈ t.subTypes ↔ s ∈ t'.subTypes) : t.SameStructure t' := by
  have same := TypeNode.complex.inj h
  have usages : t.usages = t'.usages := (congrArg ComplexType.usages same :)
  have lifecycle : t.lifecycle.withoutRefs = t'.lifecycle.withoutRefs :=
    (congrArg ComplexType.lifecycle same :)
  have view : ∀ {β : Type} (f : TypeShape → β),
      (∀ s : TypeShape, f { s with primaryKeyInfo := [], lookupFields := [] } = f s) →
      f t.shape = f t'.shape := by
    intro β f blind
    rw [shape, shape, ← Lifecycle.shape_withoutRefs blind, lifecycle,
      Lifecycle.shape_withoutRefs blind]
  exact ⟨view (·.fields) fun _ => rfl, view (·.keyFields) fun _ => rfl,
    view (·.superTypes) fun _ => rfl, usages, subTypes⟩

/-- What does not depend on subtypes and field references can be read off the skeleton. -/
theorem TypeNode.map_skeleton {β : Type} {f : TypeNode → β}
    (blind : ∀ n : TypeNode, f n.skeleton = f n) {n₁ n₂ : Option TypeNode}
    (same : n₁.map (·.skeleton) = n₂.map (·.skeleton)) : n₁.map f = n₂.map f := by
  have image := congrArg (Option.map f) same
  simpa only [Option.map_map, Function.comp_def, blind] using image

theorem TypeNode.ownFields_skeleton (n : TypeNode) : n.skeleton.ownFields = n.ownFields := by
  cases n with
  | simple => rfl
  | complex t => exact Lifecycle.shape_withoutRefs (f := fun s => s.fields.fields) (fun _ => rfl) _

theorem TypeNode.superTypes_skeleton (n : TypeNode) :
    n.skeleton.complex?.map (·.shape.superTypes) = n.complex?.map (·.shape.superTypes) := by
  cases n with
  | simple => rfl
  | complex t =>
    exact congrArg some (Lifecycle.shape_withoutRefs (f := (·.superTypes)) (fun _ => rfl) _)

namespace Repository

variable {r r' r₁ r₂ : Repository} {order order₁ order₂ : List TypeId} {u s : TypeId}

/-! ### One evolution -/

namespace Evolves

/-- A super type that a type keeps comes before it. -/
theorem idxOf_lt (E : r.Evolves order r') (hu : u ∈ order) (hs : s ∈ order)
    (kept : s ∈ r.keptBy u) : order.idxOf s < order.idxOf u := by
  have ltu := List.idxOf_lt_length_of_mem hu
  have lts := List.idxOf_lt_length_of_mem hs
  by_contra notLt
  rcases Nat.lt_or_eq_of_le (Nat.le_of_not_lt notLt) with lt | eq
  · have sorted := List.pairwise_iff_getElem.1 E.sorted _ _ ltu lts lt
    rw [List.getElem_idxOf, List.getElem_idxOf] at sorted
    exact sorted kept
  · obtain rfl : u = s := (List.idxOf_inj hu).1 eq
    exact E.irreflexive u hu kept

/-- What a type keeps when it is frozen is what it was to keep. -/
theorem mem_keptBy (E : r.Evolves order r') {t : ComplexType} {declared : TypeShape}
    (found : r.get? u = some (.complex t)) (building : t.lifecycle = .building declared)
    (kept : s ∈ r'.keptSuperTypes t.instantiable declared.superTypes) : s ∈ r.keptBy u := by
  rw [Repository.keptBy, found]
  simp only [building]
  rwa [E.preserves.keptSuperTypes]

/-- A complex type that was not frozen and is frozen now belongs to the order. -/
theorem mem_of_fresh (E : r.Evolves order r') {t : ComplexType}
    (found : r.get? u = some (.complex t)) (fresh : t.isFrozen = false)
    (frozen : r'.isFrozen u = true) : u ∈ order := by
  obtain ⟨n', -, done, evolution⟩ := E.get?_of_isFrozen found frozen
  cases evolution with
  | untouched => cases done.symm.trans fresh
  | extended before => cases before.symm.trans fresh
  | flattened _ _ mem => exact mem

theorem mem_of_building (E : r.Evolves order r') {t : ComplexType} {declared : TypeShape}
    (found : r.get? u = some (.complex t)) (building : t.lifecycle = .building declared)
    (frozen : r'.isFrozen u = true) : u ∈ order :=
  E.mem_of_fresh found (ComplexType.isFrozen_of_building building) frozen

theorem mem_joined {id : TypeId} (subTypes : List TypeId) :
    s ∈ r'.joined order id subTypes ↔
      s ∈ subTypes ∨ (s ∈ order ∧ id ∈ r'.complexSuperTypesOf s) := by
  rw [joined, mem_foldl_appendNew, List.mem_filter]
  simp

/-- What a type lists in the end it listed before, or it was frozen and extends the type. -/
theorem mem_subTypes_cases (E : r.Evolves order r') {t' : ComplexType}
    (found' : r'.complex? u = some t') (listed : s ∈ t'.subTypes) :
    ∃ t, r.complex? u = some t ∧
      (s ∈ t.subTypes ∨ (s ∈ order ∧ u ∈ r'.complexSuperTypesOf s)) := by
  obtain ⟨t, found, evolution⟩ := E.exists_of_complex? found'
  refine ⟨t, found, ?_⟩
  cases evolution with
  | untouched => exact .inl listed
  | extended => exact (mem_joined _).1 listed
  | flattened => exact (mem_joined _).1 listed

/-- What a type listed before it still lists. -/
theorem mem_subTypes_of_mem (E : r.Evolves order r') {t : ComplexType}
    (found : r.complex? u = some t) (listed : s ∈ t.subTypes) :
    ∃ t', r'.complex? u = some t' ∧ s ∈ t'.subTypes := by
  obtain ⟨t', found', evolution⟩ := E.exists_complex? found
  refine ⟨t', found', ?_⟩
  cases evolution with
  | untouched => exact listed
  | extended => exact (mem_joined _).2 (.inl listed)
  | flattened => exact (mem_joined _).2 (.inl listed)

/-- The subtypes of a type that is frozen in the end. -/
theorem mem_subTypes (E : r.Evolves order r') {t t' : ComplexType}
    (found : r.get? u = some (.complex t)) (found' : r'.get? u = some (.complex t'))
    (frozen : t'.isFrozen = true) :
    s ∈ t'.subTypes ↔ s ∈ t.subTypes ∨ (s ∈ order ∧ u ∈ r'.complexSuperTypesOf s) := by
  obtain ⟨n', same, evolution⟩ := E.get? found
  obtain rfl := Option.some.inj (found'.symm.trans same)
  cases evolution with
  | untouched fresh => exact absurd (frozen.symm.trans fresh) (by simp)
  | extended => exact mem_joined _
  | flattened => exact mem_joined _

end Evolves

/-! ### Two evolutions of one repository -/

section Two

variable (E₁ : r.Evolves order₁ r₁) (E₂ : r.Evolves order₂ r₂)
variable (all₁ : ∀ id ∈ r.ids, r₁.isFrozen id = true) (all₂ : ∀ id ∈ r.ids, r₂.isFrozen id = true)

include E₁ E₂ all₂

theorem mem_order_of_mem (mem : u ∈ order₁) : u ∈ order₂ := by
  obtain ⟨t, declared, found, building⟩ := E₁.fresh u mem
  have known : u ∈ r.ids := mem_ids_of_get? found
  exact E₂.mem_of_building found building (all₂ u known)

include all₁

/-- What is not flattened was frozen before, or is simple. -/
theorem skeleton_eq_of_not_mem (out₁ : u ∉ order₁) :
    (r₁.get? u).map (·.skeleton) = (r₂.get? u).map (·.skeleton) := by
  cases found : r.get? u with
  | none => rw [E₁.get?_none.2 found, E₂.get?_none.2 found]
  | some n =>
    have known : u ∈ r.ids := mem_ids_of_get? found
    have out₂ : u ∉ order₂ := fun mem => out₁ (mem_order_of_mem E₂ E₁ all₁ mem)
    obtain ⟨n₁, found₁, frozen₁, evolution₁⟩ := E₁.get?_of_isFrozen found (all₁ u known)
    obtain ⟨n₂, found₂, frozen₂, evolution₂⟩ := E₂.get?_of_isFrozen found (all₂ u known)
    rw [found₁, found₂]
    cases evolution₁ with
    | @simple t isFrozen₁ =>
      cases evolution₂ with
      | @simple _ isFrozen₂ =>
        change isFrozen₁ = true at frozen₁
        change isFrozen₂ = true at frozen₂
        rw [frozen₁, frozen₂]
    | untouched fresh => exact absurd (frozen₁.symm.trans fresh) (by simp)
    | flattened _ _ mem => exact absurd mem out₁
    | extended =>
      cases evolution₂ with
      | untouched fresh => exact absurd (frozen₂.symm.trans fresh) (by simp)
      | flattened _ _ mem => exact absurd mem out₂
      | extended => rfl

/-- What is flattened agrees if its super types do; the induction is on the place in the
first order. -/
theorem skeleton_eq_of_mem (mem : u ∈ order₁) :
    (r₁.get? u).map (·.skeleton) = (r₂.get? u).map (·.skeleton) := by
  induction rank : order₁.idxOf u using Nat.strongRecOn generalizing u with
  | ind rank ih =>
    subst rank
    obtain ⟨t, declared, moment₁, found, building, found₁, supers₁⟩ := E₁.flattened_of_mem mem
    obtain ⟨t', declared', moment₂, found', building', found₂, -⟩ :=
      E₂.flattened_of_mem (mem_order_of_mem E₁ E₂ all₂ mem)
    obtain rfl : t = t' := TypeNode.complex.inj (Option.some.inj (found.symm.trans found'))
    obtain rfl : declared = declared' :=
      Lifecycle.building.inj (building.symm.trans building')
    have supers : ∀ v ∈ r₁.keptSuperTypes t.instantiable declared.superTypes,
        (r₁.get? v).map (·.skeleton) = (r₂.get? v).map (·.skeleton) := by
      intro v kept
      -- a super type comes earlier in the first order, unless it is not flattened at all
      by_cases earlier : v ∈ order₁
      · exact ih _ (E₁.idxOf_lt mem earlier (E₁.mem_keptBy found building kept)) earlier rfl
      · exact skeleton_eq_of_not_mem E₁ E₂ all₁ all₂ earlier
    -- so both runs computed the shape and the usages from the same data
    have flat : r₁.flatten u t.instantiable declared = r₂.flatten u t.instantiable declared := by
      refine flatten_congr (fun v _ => (E₁.instantiable v).symm.trans (E₂.instantiable v))
        fun v kept => ?_
      exact TypeNode.map_skeleton TypeNode.ownFields_skeleton (supers v kept)
    have usages : r₁.usagesOf (r₁.flatten u t.instantiable declared).superTypes =
        r₂.usagesOf (r₂.flatten u t.instantiable declared).superTypes := by
      rw [flat]
      refine usagesOf_congr fun v hv => ?_
      rw [← flat] at hv
      have same := supers v (mem_superTypes_flatten hv)
      rw [map_complex?, map_complex?, TypeNode.map_skeleton (fun n => by cases n <;> rfl) same]
    rw [found₁, found₂, Repository.flattened, usages, flat]
    rfl

theorem skeleton_eq (u : TypeId) :
    (r₁.get? u).map (·.skeleton) = (r₂.get? u).map (·.skeleton) := by
  by_cases mem : u ∈ order₁
  · exact skeleton_eq_of_mem E₁ E₂ all₁ all₂ mem
  · exact skeleton_eq_of_not_mem E₁ E₂ all₁ all₂ mem

theorem complexSuperTypesOf_eq (u : TypeId) :
    r₁.complexSuperTypesOf u = r₂.complexSuperTypesOf u := by
  rw [complexSuperTypesOf_eq_getD, complexSuperTypesOf_eq_getD, map_complex?, map_complex?,
    TypeNode.map_skeleton TypeNode.superTypes_skeleton (skeleton_eq E₁ E₂ all₁ all₂ u)]

/-- Two evolutions that freeze all types agree on every type. -/
theorem sameStructure (u : TypeId) :
    Option.Rel TypeNode.SameStructure (r₁.get? u) (r₂.get? u) := by
  have same := skeleton_eq E₁ E₂ all₁ all₂ u
  cases found : r.get? u with
  | none =>
    rw [E₁.get?_none.2 found, E₂.get?_none.2 found]
    exact .none
  | some n =>
    have known : u ∈ r.ids := mem_ids_of_get? found
    obtain ⟨n₁, found₁, frozen₁, evolution₁⟩ := E₁.get?_of_isFrozen found (all₁ u known)
    obtain ⟨n₂, found₂, frozen₂, evolution₂⟩ := E₂.get?_of_isFrozen found (all₂ u known)
    rw [found₁, found₂] at same ⊢
    have same := Option.some.inj same
    refine .some ?_
    cases n₁ with
    | simple t₁ =>
      cases n₂ with
      | simple t₂ =>
        obtain rfl := TypeNode.simple.inj same
        exact .simple
      | complex t₂ => cases same
    | complex t₁ =>
      cases n₂ with
      | simple t₂ => cases same
      | complex t₂ =>
        refine .complex (.of_skeleton same fun s => ?_)
        -- its subtypes are the flattened types that inherit from it, whatever the order
        cases n with
        | simple t => cases evolution₁
        | complex t =>
          rw [E₁.mem_subTypes found found₁ frozen₁, E₂.mem_subTypes found found₂ frozen₂,
            complexSuperTypesOf_eq E₁ E₂ all₁ all₂]
          have orders : s ∈ order₁ ↔ s ∈ order₂ :=
            ⟨mem_order_of_mem E₁ E₂ all₂, mem_order_of_mem E₂ E₁ all₁⟩
          rw [orders]

end Two

end Repository

/-! ### Two orders of freezing -/

open Repository

/-- However the types of a repository are ordered to be frozen, if all can be frozen, each
becomes the same. -/
theorem forM_freeze_sameStructure {r : Repository} {ids₁ ids₂ : List TypeId}
    (perm₁ : ids₁.Perm r.ids) (perm₂ : ids₂.Perm r.ids) {m₁ m₂ m₁' m₂' : Model}
    (start₁ : m₁.repository = r) (start₂ : m₂.repository = r)
    (run₁ : ids₁.forM Edit.freeze m₁ = .ok () m₁') (run₂ : ids₂.forM Edit.freeze m₂ = .ok () m₂')
    (id : TypeId) :
    Option.Rel TypeNode.SameStructure (m₁'.repository.get? id) (m₂'.repository.get? id) := by
  obtain ⟨order₁, freezes₁⟩ := (Edit.forM_freeze_run ids₁ m₁).of_ok run₁
  obtain ⟨order₂, freezes₂⟩ := (Edit.forM_freeze_run ids₂ m₂).of_ok run₂
  rw [start₁] at freezes₁
  rw [start₂] at freezes₂
  obtain ⟨E₁, all₁⟩ := freezes₁.evolves
  obtain ⟨E₂, all₂⟩ := freezes₂.evolves
  exact sameStructure E₁ E₂ (fun u hu => all₁ rfl u (perm₁.mem_iff.2 hu))
    (fun u hu => all₂ rfl u (perm₂.mem_iff.2 hu)) id

/-- A disc is round and flat, and what is round or flat is a figure. -/
def figures : Repository :=
  [.addComplexType ⟨"", "Figure"⟩ true {},
    .addComplexType ⟨"", "Round"⟩ true {},
    .addComplexType ⟨"", "Flat"⟩ true {},
    .addComplexType ⟨"", "Disc"⟩ true {},
    .addField ⟨0⟩ (.declare ⟨0⟩ "position" ⟨3⟩ .contained),
    .addField ⟨1⟩ (.declare ⟨1⟩ "position" ⟨0⟩ .contained),
    .addSuperType ⟨1⟩ ⟨0⟩, .addSuperType ⟨2⟩ ⟨0⟩,
    .addSuperType ⟨3⟩ ⟨1⟩, .addSuperType ⟨3⟩ ⟨2⟩].foldl perform { builtinNamespace := "" }

theorem figures_sameStructure : ∃ m₁ m₂,
    figures.ids.forM Edit.freeze { repository := figures } = .ok () m₁ ∧
      figures.ids.reverse.forM Edit.freeze { repository := figures } = .ok () m₂ ∧
      ∀ id, Option.Rel TypeNode.SameStructure (m₁.repository.get? id) (m₂.repository.get? id) := by
  have succeeds : (figures.ids.forM Edit.freeze).succeeds { repository := figures } = true := by
    cbv
  have succeeds' : (figures.ids.reverse.forM Edit.freeze).succeeds { repository := figures } =
      true := by
    cbv
  obtain ⟨⟨⟩, m₁, run₁⟩ := Edit.exists_of_succeeds succeeds
  obtain ⟨⟨⟩, m₂, run₂⟩ := Edit.exists_of_succeeds succeeds'
  have perm : figures.ids.reverse.Perm figures.ids := List.reverse_perm _
  exact ⟨m₁, m₂, run₁, run₂,
    forM_freeze_sameStructure (r := figures) (.refl _) perm rfl rfl run₁ run₂⟩

end EntityModel
