/-
The steps of a freeze as changes of the repository.

`flatten` computes the final shape of a type from a repository in which its super types
are final, in one go; `finalize` installs a shape and links the type to its super types;
`complete` binds its field references as well.

* `get?_complete` — what the end of a freeze does to every type;
* `flatten_congr` — the final shape depends only on what the kept super types are;
* `superTypes_flatten` — the super types of the final shape are among the kept ones.
-/
import EntityModel.Freeze
import EntityModel.Proofs.Views
import Mathlib.Data.List.Basic

namespace EntityModel

namespace ComplexType

theorem isFrozen_of_building {t : ComplexType} {declared : TypeShape}
    (h : t.lifecycle = .building declared) : t.isFrozen = false := by
  rw [isFrozen, h]
  rfl

theorem not_building_of_isFrozen {t : ComplexType} (frozen : t.isFrozen = true)
    (declared : TypeShape) : t.lifecycle ≠ .building declared := by
  intro building
  rw [isFrozen_of_building building] at frozen
  cases frozen

theorem isFrozen_of_freezing {t : ComplexType} (h : t.lifecycle = .freezing) :
    t.isFrozen = false := by
  rw [isFrozen, h]
  rfl

end ComplexType

/-- The fields that a heir gets from the type. -/
def TypeNode.ownFields : TypeNode → List Field
  | .simple _ => []
  | .complex t => t.shape.fields.fields

namespace Repository

/-- The type at `id` is there and read-only. -/
def isFrozen (r : Repository) (id : TypeId) : Bool := (r.get? id).any (·.isFrozen)

theorem isFrozen_of_get? {r : Repository} {id : TypeId} {n : TypeNode} (h : r.get? id = some n) :
    r.isFrozen id = n.isFrozen := by
  simp [isFrozen, h]

theorem exists_get?_of_isFrozen {r : Repository} {id : TypeId} (frozen : r.isFrozen id = true) :
    ∃ n, r.get? id = some n ∧ n.isFrozen = true :=
  (Option.any_eq_true _ _).1 frozen

/-- The complex type at `id` with another lifecycle. -/
def setLifecycle (r : Repository) (id : TypeId) (lifecycle : Lifecycle) : Repository :=
  r.adjust id fun t => { t with lifecycle }

/-- The simple type at `id` made read-only. -/
def markFrozen (r : Repository) (id : TypeId) (t : SimpleType) : Repository :=
  r.set id (.simple { t with isFrozen := true })

/-! ### What a type gets from its super types -/

/-- The first of several super types that does not exist; an only one is not looked at
before it is frozen. -/
def missingSuperType? (r : Repository) (superTypes : List TypeId) : Option TypeId :=
  if superTypes.length ≤ 1 then none else superTypes.find? fun s => (r.get? s).isNone

/-- The super types that a type keeps: an only one, or those of several that agree with
it in being instantiable. -/
def keptSuperTypes (r : Repository) (instantiable : Bool) (superTypes : List TypeId) :
    List TypeId :=
  if superTypes.length ≤ 1 then superTypes
  else superTypes.filter fun s => (r.get? s).any fun n => n.instantiable = instantiable

/-- The super types that the type at `id` will keep, if it is still being built. -/
def keptBy (r : Repository) (id : TypeId) : List TypeId :=
  match r.get? id with
  | some (.complex t) =>
    match t.lifecycle with
    | .building declared => r.keptSuperTypes t.instantiable declared.superTypes
    | _ => []
  | _ => []

/-- A shape with what one super type adds to it. -/
def inheritFrom (r : Repository) (heir : TypeId) (instantiable : Bool) (s : TypeShape)
    (superType : TypeId) : TypeShape :=
  match r.get? superType with
  | none => s
  | some n =>
    TypeShape.inherit
      { s with superTypes := if n.instantiable = instantiable then s.superTypes ++ [superType]
          else s.superTypes }
      heir n.ownFields

/-- A declared shape made final, with what the kept super types add to it. -/
def flatten (r : Repository) (id : TypeId) (instantiable : Bool) (declared : TypeShape) :
    TypeShape :=
  if declared.superTypes.isEmpty then declared.finish
  else
    let inherited := (r.keptSuperTypes instantiable declared.superTypes).foldl
      (r.inheritFrom id instantiable) { declared with fields := ∅, superTypes := [] }
    { inherited with fields := inherited.fields.insertAll declared.fields }.finish

/-- The usages of a list of types, in order. -/
def usagesOf (r : Repository) (ids : List TypeId) : List TypeId :=
  ids.flatMap fun s => ((r.complex? s).map (·.usages)).getD []

/-! ### The end of a freeze -/

/-- The type gets its final shape and is linked to its super types. -/
def finalize (r : Repository) (id : TypeId) (flat : TypeShape) : Repository :=
  (r.setLifecycle id (.frozen flat)).linkSuperTypes id flat.superTypes

/-- The field references of a frozen type bound to fields. -/
def bindFieldRefs (r : Repository) (id : TypeId) : Repository :=
  match r.complex? id with
  | some t => r.setLifecycle id (.frozen { t.shape with
      primaryKeyInfo := (r.bindRefs id t.shape.primaryKeyInfo).1
      lookupFields := (r.bindRefs id t.shape.lookupFields).1 })
  | none => r

/-- The type is made final, linked to its super types and has its references bound. -/
def complete (r : Repository) (id : TypeId) (flat : TypeShape) : Repository :=
  (r.finalize id flat).bindFieldRefs id

/-! ### What the steps do to each type -/

section

variable {r r' : Repository} {id u : TypeId}

theorem get?_setLifecycle (lifecycle : Lifecycle) :
    (r.setLifecycle id lifecycle).get? u =
      (r.get? u).map (·.mapComplex fun t => if u = id then { t with lifecycle } else t) :=
  get?_adjust _

theorem get?_setLifecycle_of_ne (lifecycle : Lifecycle) (other : u ≠ id) :
    (r.setLifecycle id lifecycle).get? u = r.get? u := by
  simp [get?_setLifecycle, other]

theorem get?_setLifecycle_eq_none (lifecycle : Lifecycle) :
    (r.setLifecycle id lifecycle).get? u = none ↔ r.get? u = none := by
  rw [get?_setLifecycle, Option.map_eq_none_iff]

theorem get?_setLifecycle_self (lifecycle : Lifecycle) {t : ComplexType}
    (found : r.get? id = some (.complex t)) :
    (r.setLifecycle id lifecycle).get? id = some (.complex { t with lifecycle }) := by
  simp [get?_setLifecycle, found]

theorem get?_markFrozen (t : SimpleType) (other : u ≠ id) :
    (r.markFrozen id t).get? u = r.get? u := by
  simp [markFrozen, get?_set, other]

theorem get?_markFrozen_self {t : SimpleType} (found : r.get? id = some (.simple t)) :
    (r.markFrozen id t).get? id = some (.simple { t with isFrozen := true }) := by
  simp [markFrozen, get?_set, found]

theorem isFrozen_markFrozen {t : SimpleType} (found : r.get? id = some (.simple t)) :
    (r.markFrozen id t).isFrozen id = true :=
  isFrozen_of_get? (get?_markFrozen_self found)

theorem appendNew_appendNew (ids : List TypeId) (id : TypeId) :
    appendNew (appendNew ids id) id = appendNew ids id := by
  by_cases present : id ∈ ids <;> simp [appendNew, present]

theorem foldl_declareUsage (usages : List TypeId) (t : ComplexType) :
    usages.foldl ComplexType.declareUsage t =
      { t with usages := usages.foldl appendNew t.usages } := by
  induction usages generalizing t with
  | nil => rfl
  | cons usage rest ih => simp [List.foldl_cons, ih, ComplexType.declareUsage]

/-- Registering with a list of super types reaches each of them once. -/
theorem get?_foldl_registerSubType (superTypes : List TypeId) :
    (superTypes.foldl (fun r s => r.adjust s (·.registerSubType id)) r).get? u =
      (r.get? u).map (·.mapComplex fun t => if u ∈ superTypes then t.registerSubType id else t) := by
  induction superTypes generalizing r with
  | nil => simp
  | cons s rest ih =>
    rw [List.foldl_cons, ih, get?_adjust, Option.map_map]
    congr 1
    funext n
    rw [Function.comp_apply, TypeNode.mapComplex_mapComplex]
    congr 1
    funext t
    -- a super type listed twice is registered with once
    by_cases here : u = s
    · subst here
      by_cases later : u ∈ rest
      · simp [later, ComplexType.registerSubType, appendNew_appendNew]
      · simp [later]
    · simp [here]

theorem usagesOf_congr {ids : List TypeId}
    (h : ∀ s ∈ ids, (r.complex? s).map (·.usages) = (r'.complex? s).map (·.usages)) :
    r.usagesOf ids = r'.usagesOf ids := by
  rw [usagesOf, usagesOf]
  induction ids with
  | nil => rfl
  | cons s rest ih =>
    rw [List.flatMap_cons, List.flatMap_cons, h s List.mem_cons_self,
      ih fun v hv => h v (List.mem_cons_of_mem s hv)]

theorem get?_linkSuperTypes (superTypes : List TypeId) :
    (r.linkSuperTypes id superTypes).get? u =
      (r.get? u).map (·.mapComplex fun t =>
        { t with
          subTypes := if u ∈ superTypes then appendNew t.subTypes id else t.subTypes
          usages := if u = id then (r.usagesOf superTypes).foldl appendNew t.usages
            else t.usages }) := by
  -- the usages are read after the subtypes were registered, which does not change them
  let linked := superTypes.foldl (fun r s => r.adjust s (·.registerSubType id)) r
  have usages : linked.usagesOf superTypes = r.usagesOf superTypes := by
    refine usagesOf_congr fun s _ => ?_
    rw [complex?_eq_map (get?_foldl_registerSubType superTypes), Option.map_map]
    congr 1
    funext t
    by_cases here : s ∈ superTypes <;> simp [here, ComplexType.registerSubType]
  show (linked.adjust id fun t =>
    (linked.usagesOf superTypes).foldl ComplexType.declareUsage t).get? u = _
  rw [usages, get?_adjust, get?_foldl_registerSubType, Option.map_map]
  congr 1
  funext n
  rw [Function.comp_apply, TypeNode.mapComplex_mapComplex]
  congr 1
  funext t
  by_cases self : u = id
  · subst self
    by_cases here : u ∈ superTypes <;>
      simp [here, ComplexType.registerSubType, foldl_declareUsage]
  · by_cases here : u ∈ superTypes <;> simp [here, self, ComplexType.registerSubType]

theorem get?_finalize (flat : TypeShape) :
    (r.finalize id flat).get? u =
      (r.get? u).map (·.mapComplex fun t =>
        { t with
          lifecycle := if u = id then .frozen flat else t.lifecycle
          subTypes := if u ∈ flat.superTypes then appendNew t.subTypes id else t.subTypes
          usages := if u = id then (r.usagesOf flat.superTypes).foldl appendNew t.usages
            else t.usages }) := by
  have usages : (r.setLifecycle id (.frozen flat)).usagesOf flat.superTypes =
      r.usagesOf flat.superTypes := by
    refine usagesOf_congr fun s _ => ?_
    rw [complex?_eq_map (get?_setLifecycle _), Option.map_map]
    congr 1
    funext t
    by_cases here : s = id <;> simp [here]
  rw [finalize, get?_linkSuperTypes, get?_setLifecycle, Option.map_map, usages]
  congr 1
  funext n
  rw [Function.comp_apply, TypeNode.mapComplex_mapComplex]
  congr 1
  funext t
  by_cases self : u = id <;> simp [self]

theorem get?_bindFieldRefs :
    (r.bindFieldRefs id).get? u =
      (r.get? u).map (·.mapComplex fun t =>
        if u = id then { t with lifecycle := .frozen { t.shape with
          primaryKeyInfo := (r.bindRefs id t.shape.primaryKeyInfo).1
          lookupFields := (r.bindRefs id t.shape.lookupFields).1 } }
        else t) := by
  rw [bindFieldRefs]
  split
  · next t found =>
    rw [get?_setLifecycle]
    by_cases self : u = id
    · subst self
      simp [complex?_eq_some.1 found]
    · simp [self]
  · next absent =>
    by_cases self : u = id
    · subst self
      exact (map_mapComplex_of_absent absent _).symm
    · simp [self]

/-- What the end of the freeze of `id` does to every type: `id` gets its final shape and
the usages of its super types, and they get it as a subtype. -/
theorem get?_complete (flat : TypeShape) :
    (r.complete id flat).get? u =
      (r.get? u).map (·.mapComplex fun t =>
        { t with
          lifecycle := if u = id then .frozen { flat with
              primaryKeyInfo := ((r.finalize id flat).bindRefs id flat.primaryKeyInfo).1
              lookupFields := ((r.finalize id flat).bindRefs id flat.lookupFields).1 }
            else t.lifecycle
          subTypes := if u ∈ flat.superTypes then appendNew t.subTypes id else t.subTypes
          usages := if u = id then (r.usagesOf flat.superTypes).foldl appendNew t.usages
            else t.usages }) := by
  rw [complete, get?_bindFieldRefs, get?_finalize, Option.map_map]
  congr 1
  funext n
  rw [Function.comp_apply, TypeNode.mapComplex_mapComplex]
  congr 1
  funext t
  by_cases self : u = id <;> simp [self, ComplexType.shape, Lifecycle.shape]

/-- The end of a freeze leaves the name index and the namespace alone. -/
theorem index_complete (flat : TypeShape) :
    (r.complete id flat).names = r.names ∧
      (r.complete id flat).builtinNamespace = r.builtinNamespace := by
  have linked : ∀ (l : List TypeId) (r : Repository),
      (l.foldl (fun r s => r.adjust s (·.registerSubType id)) r).names = r.names ∧
        (l.foldl (fun r s => r.adjust s (·.registerSubType id)) r).builtinNamespace =
          r.builtinNamespace := by
    intro l
    induction l with
    | nil => intro r; exact ⟨rfl, rfl⟩
    | cons s rest ih =>
      intro r
      obtain ⟨names, builtin⟩ := ih (r.adjust s (·.registerSubType id))
      rw [List.foldl_cons, names, builtin, names_adjust, builtinNamespace_adjust]
      exact ⟨rfl, rfl⟩
  have finalized : (r.finalize id flat).names = r.names ∧
      (r.finalize id flat).builtinNamespace = r.builtinNamespace := by
    obtain ⟨names, builtin⟩ := linked flat.superTypes (r.setLifecycle id (.frozen flat))
    rw [finalize, linkSuperTypes, names_adjust, builtinNamespace_adjust, names, builtin,
      setLifecycle, names_adjust, builtinNamespace_adjust]
    exact ⟨rfl, rfl⟩
  rw [complete, bindFieldRefs]
  split
  · rw [setLifecycle, names_adjust, builtinNamespace_adjust]
    exact finalized
  · exact finalized

end

end Repository

/-! ### The final shape -/

namespace TypeShape

variable (s : TypeShape) (heir : TypeId)

/-- What a super type hands down changes the fields and keys of a shape only. -/
theorem inherit_eq (fields : List Field) :
    s.inherit heir fields =
      { s with
        fields := (s.inherit heir fields).fields
        keyFields := (s.inherit heir fields).keyFields } := by
  induction fields generalizing s with
  | nil => rfl
  | cons f rest ih => exact ih _

@[simp] theorem superTypes_inherit (fields : List Field) :
    (s.inherit heir fields).superTypes = s.superTypes := by
  rw [inherit_eq]

@[simp] theorem primaryKeyInfo_inherit (fields : List Field) :
    (s.inherit heir fields).primaryKeyInfo = s.primaryKeyInfo := by
  rw [inherit_eq]

@[simp] theorem lookupFields_inherit (fields : List Field) :
    (s.inherit heir fields).lookupFields = s.lookupFields := by
  rw [inherit_eq]

@[simp] theorem superTypes_finish : s.finish.superTypes = s.superTypes := rfl

@[simp] theorem primaryKeyInfo_finish : s.finish.primaryKeyInfo = s.primaryKeyInfo := rfl

@[simp] theorem lookupFields_finish : s.finish.lookupFields = s.lookupFields := rfl

end TypeShape

namespace Repository

variable {r r' : Repository} {id : TypeId} {instantiable : Bool} {declared : TypeShape}

theorem mem_keptSuperTypes {s : TypeId} {superTypes : List TypeId}
    (h : s ∈ r.keptSuperTypes instantiable superTypes) : s ∈ superTypes := by
  rw [keptSuperTypes] at h
  split at h
  · exact h
  · exact (List.mem_filter.1 h).1

theorem keptSuperTypes_congr {superTypes : List TypeId}
    (h : ∀ s ∈ superTypes,
      (r.get? s).map (·.instantiable) = (r'.get? s).map (·.instantiable)) :
    r.keptSuperTypes instantiable superTypes = r'.keptSuperTypes instantiable superTypes := by
  rw [keptSuperTypes, keptSuperTypes]
  split
  · rfl
  · refine List.filter_congr fun s hs => ?_
    have same := congrArg (Option.any (· = instantiable)) (h s hs)
    simpa only [Option.any_map] using same

theorem superTypes_inheritFrom (s : TypeShape) (superType : TypeId) :
    (r.inheritFrom id instantiable s superType).superTypes =
      s.superTypes ++ [superType].filter fun v =>
        (r.get? v).any fun n => n.instantiable = instantiable := by
  rw [inheritFrom]
  cases found : r.get? superType with
  | none => simp [found]
  | some n => by_cases same : n.instantiable = instantiable <;> simp [found, same]

theorem superTypes_foldl_inheritFrom (l : List TypeId) (s : TypeShape) :
    (l.foldl (r.inheritFrom id instantiable) s).superTypes =
      s.superTypes ++ l.filter fun v =>
        (r.get? v).any fun n => n.instantiable = instantiable := by
  induction l generalizing s with
  | nil => simp
  | cons v rest ih =>
    rw [List.foldl_cons, ih, superTypes_inheritFrom, List.append_assoc, ← List.filter_append,
      List.singleton_append]

/-- The super types of the final shape: the kept ones that agree in being instantiable. -/
theorem superTypes_flatten :
    (r.flatten id instantiable declared).superTypes =
      (r.keptSuperTypes instantiable declared.superTypes).filter fun s =>
        (r.get? s).any fun n => n.instantiable = instantiable := by
  rw [flatten]
  split
  · next none =>
    rw [List.isEmpty_iff] at none
    simp [none, keptSuperTypes]
  · simp [superTypes_foldl_inheritFrom]

theorem mem_superTypes_flatten {s : TypeId}
    (h : s ∈ (r.flatten id instantiable declared).superTypes) :
    s ∈ r.keptSuperTypes instantiable declared.superTypes := by
  rw [superTypes_flatten] at h
  exact (List.mem_filter.1 h).1

theorem foldl_inheritFrom_refs (l : List TypeId) (s : TypeShape) :
    (l.foldl (r.inheritFrom id instantiable) s).primaryKeyInfo = s.primaryKeyInfo ∧
      (l.foldl (r.inheritFrom id instantiable) s).lookupFields = s.lookupFields := by
  induction l generalizing s with
  | nil => exact ⟨rfl, rfl⟩
  | cons v rest ih =>
    rw [List.foldl_cons]
    obtain ⟨keys, lookups⟩ := ih (r.inheritFrom id instantiable s v)
    rw [keys, lookups]
    rw [inheritFrom]
    cases r.get? v <;> simp

@[simp] theorem primaryKeyInfo_flatten :
    (r.flatten id instantiable declared).primaryKeyInfo = declared.primaryKeyInfo := by
  rw [flatten]
  split
  · rfl
  · exact (foldl_inheritFrom_refs _ _).1

@[simp] theorem lookupFields_flatten :
    (r.flatten id instantiable declared).lookupFields = declared.lookupFields := by
  rw [flatten]
  split
  · rfl
  · exact (foldl_inheritFrom_refs _ _).2

theorem inheritFrom_congr {s : TypeId}
    (agree : (r.get? s).map (·.instantiable) = (r'.get? s).map (·.instantiable))
    (fields : (r.get? s).map (·.ownFields) = (r'.get? s).map (·.ownFields)) (shape : TypeShape) :
    r.inheritFrom id instantiable shape s = r'.inheritFrom id instantiable shape s := by
  rw [inheritFrom, inheritFrom]
  cases found : r.get? s with
  | none =>
    cases found' : r'.get? s with
    | none => rfl
    | some n => simp [found, found'] at agree
  | some n =>
    cases found' : r'.get? s with
    | none => simp [found, found'] at agree
    | some n' =>
      simp only [found, found', Option.map_some, Option.some.injEq] at agree fields
      simp only [agree, fields]

/-- The final shape depends on what the kept super types are, and on nothing else. -/
theorem flatten_congr
    (agree : ∀ s ∈ declared.superTypes,
      (r.get? s).map (·.instantiable) = (r'.get? s).map (·.instantiable))
    (fields : ∀ s ∈ r.keptSuperTypes instantiable declared.superTypes,
      (r.get? s).map (·.ownFields) = (r'.get? s).map (·.ownFields)) :
    r.flatten id instantiable declared = r'.flatten id instantiable declared := by
  rw [flatten, flatten]
  rw [← keptSuperTypes_congr agree]
  split
  · rfl
  · rw [List.foldl_ext _ _ _ fun shape s hs =>
      inheritFrom_congr (agree s (mem_keptSuperTypes hs)) (fields s hs) shape]

end Repository

end EntityModel
