/-
What a freeze can do to a repository.

`r.Evolves order r'` says that `r'` is `r` with the types of `order` frozen, in this
order, and perhaps some simple types marked.  Type by type (`Evolution`):

* a complex type that is frozen already only gets subtypes, those of `order` that have
  it as a super type;
* a type of `order` gets the shape that `flatten` computes from its super types as they
  are in `r'`, and their usages;
* any other complex type stays exactly what it is.

The relation is reflexive (`Evolves.refl`) and transitive (`Evolves.trans`), since what is
frozen does not change any more but for its subtypes (`Preserves`).
-/
import EntityModel.Proofs.FreezeSteps

namespace EntityModel

/-- The type without the list of its subtypes. -/
def TypeNode.withoutSubTypes (n : TypeNode) : TypeNode :=
  n.mapComplex fun t => { t with subTypes := [] }

namespace Repository

variable {r r₁ r₂ r' : Repository} {order order' : List TypeId} {id u : TypeId}

/-! ### What stays when types are frozen -/

/-- Whatever is frozen in `r` is in `r'` what it was but for its subtypes, and no type
changes in being instantiable. -/
structure Preserves (r r' : Repository) : Prop where
  instantiable : ∀ s, (r.get? s).map (·.instantiable) = (r'.get? s).map (·.instantiable)
  frozen : ∀ s, r.isFrozen s = true →
    (r.get? s).map (·.withoutSubTypes) = (r'.get? s).map (·.withoutSubTypes)

namespace Preserves

theorem map_eq {β : Type} (p : Preserves r r') {f : TypeNode → β}
    (h : ∀ n : TypeNode, f n.withoutSubTypes = f n) {s : TypeId} (hs : r.isFrozen s = true) :
    (r.get? s).map f = (r'.get? s).map f := by
  have same := congrArg (Option.map f) (p.frozen s hs)
  simpa only [Option.map_map, Function.comp_def, h] using same

theorem isFrozen (p : Preserves r r') {s : TypeId} (hs : r.isFrozen s = true) :
    r'.isFrozen s = true := by
  have same := p.map_eq (f := TypeNode.isFrozen) (fun n => by cases n <;> rfl) hs
  have any := congrArg (Option.any fun b => b) same
  simp only [Option.any_map] at any
  exact any.symm.trans hs

theorem usagesOf (p : Preserves r r') {ids : List TypeId}
    (h : ∀ s ∈ ids, r.isFrozen s = true) : r.usagesOf ids = r'.usagesOf ids := by
  refine usagesOf_congr fun s hs => ?_
  rw [map_complex?, map_complex?, p.map_eq (fun n => by cases n <;> rfl) (h s hs)]

theorem complexSuperTypesOf (p : Preserves r r') {s : TypeId} (hs : r.isFrozen s = true) :
    r.complexSuperTypesOf s = r'.complexSuperTypesOf s := by
  rw [complexSuperTypesOf_eq_getD, complexSuperTypesOf_eq_getD, map_complex?, map_complex?,
    p.map_eq (fun n => by cases n <;> rfl) hs]

theorem keptSuperTypes (p : Preserves r r') (instantiable : Bool) (superTypes : List TypeId) :
    r.keptSuperTypes instantiable superTypes = r'.keptSuperTypes instantiable superTypes :=
  keptSuperTypes_congr fun s _ => p.instantiable s

theorem flatten (p : Preserves r r') {instantiable : Bool} {declared : TypeShape}
    (h : ∀ s ∈ r.keptSuperTypes instantiable declared.superTypes, r.isFrozen s = true) :
    r.flatten id instantiable declared = r'.flatten id instantiable declared :=
  flatten_congr (fun s _ => p.instantiable s) fun s hs =>
    p.map_eq (fun n => by cases n <;> rfl) (h s hs)

end Preserves

/-! ### What becomes of one type -/

/-- The subtypes of `id` after the types of `order` were frozen. -/
def joined (r : Repository) (order : List TypeId) (id : TypeId) (subTypes : List TypeId) :
    List TypeId :=
  (order.filter fun s => id ∈ r.complexSuperTypesOf s).foldl appendNew subTypes

/-- What the freeze makes of the type `t` at `id`, if `r` is the repository after it and
`moment` that in which the field references were bound. -/
def flattened (r : Repository) (order : List TypeId) (moment : Repository) (id : TypeId)
    (t : ComplexType) (declared : TypeShape) : ComplexType :=
  { t with
    lifecycle := .frozen { r.flatten id t.instantiable declared with
      primaryKeyInfo := (moment.bindRefs id declared.primaryKeyInfo).1
      lookupFields := (moment.bindRefs id declared.lookupFields).1 }
    subTypes := r.joined order id t.subTypes
    usages := (r.usagesOf (r.flatten id t.instantiable declared).superTypes).foldl appendNew
      t.usages }

/-- What may become of the type at `id` while the types of `order` are frozen; `r` is the
repository after that. -/
inductive Evolution (r : Repository) (order : List TypeId) (id : TypeId) :
    TypeNode → TypeNode → Prop
  | simple {t : SimpleType} {isFrozen : Bool} (kept : t.isFrozen = true → isFrozen = true) :
      Evolution r order id (.simple t) (.simple { t with isFrozen })
  | untouched {t : ComplexType} (fresh : t.isFrozen = false) (out : id ∉ order) :
      Evolution r order id (.complex t) (.complex t)
  | extended {t : ComplexType} (done : t.isFrozen = true) :
      Evolution r order id (.complex t)
        (.complex { t with subTypes := r.joined order id t.subTypes })
  | flattened {t : ComplexType} {declared : TypeShape} (moment : Repository)
      (building : t.lifecycle = .building declared) (mem : id ∈ order)
      (supers : ∀ s ∈ r.keptSuperTypes t.instantiable declared.superTypes,
        r.isFrozen s = true) :
      Evolution r order id (.complex t) (.complex (r.flattened order moment id t declared))

theorem joined_append
    (same : ∀ s ∈ order, r₁.complexSuperTypesOf s = r₂.complexSuperTypesOf s)
    (subTypes : List TypeId) :
    r₂.joined (order ++ order') id subTypes =
      r₂.joined order' id (r₁.joined order id subTypes) := by
  rw [joined]
  rw [List.filter_append, List.foldl_append]
  congr 2
  refine List.filter_congr fun s hs => ?_
  rw [same s hs]

/-- A type that is not frozen gets no subtypes, for super types are frozen first. -/
theorem joined_eq_self (supers : ∀ s ∈ order, ∀ v ∈ r.complexSuperTypesOf s, r.isFrozen v = true)
    (fresh : r.isFrozen id = false) (subTypes : List TypeId) :
    r.joined order id subTypes = subTypes := by
  rw [joined]
  have none : (order.filter fun s => id ∈ r.complexSuperTypesOf s) = [] := by
    refine List.filter_eq_nil_iff.2 fun s hs mem => ?_
    have frozen := supers s hs id (of_decide_eq_true mem)
    rw [fresh] at frozen
    cases frozen
  rw [none, List.foldl_nil]

theorem Evolution.refl (n : TypeNode) : Evolution r [] id n n := by
  cases n with
  | simple t => exact .simple fun h => h
  | complex t =>
    cases h : t.isFrozen with
    | false => exact .untouched h (by simp)
    | true => exact .extended h

theorem Evolution.rel_refl (n : Option TypeNode) : Option.Rel (Evolution r [] id) n n := by
  cases n with
  | none => exact .none
  | some n => exact .some (.refl n)

/-- Two evolutions of a type make one, if nothing frozen by the first changes in the
second. -/
theorem Evolution.trans {n n₁ n₂ : TypeNode} (first : Evolution r₁ order id n n₁)
    (second : Evolution r₂ order' id n₁ n₂) (found : r₁.get? id = some n₁)
    (p : Preserves r₁ r₂) (frozen : ∀ s ∈ order, r₁.isFrozen s = true)
    (supers : ∀ s ∈ order, ∀ v ∈ r₁.complexSuperTypesOf s, r₁.isFrozen v = true) :
    Evolution r₂ (order ++ order') id n n₂ := by
  cases first with
  | simple kept =>
    cases second with
    | simple kept' => exact .simple fun h => kept' (kept h)
  | @untouched t fresh out =>
    cases second with
    | untouched _ out' => exact .untouched fresh (by simp [out, out'])
    | extended done => simp [fresh] at done
    | flattened moment building mem supers' =>
      -- the first run gave it no subtypes, for nothing frozen inherits from it
      have none : r₁.isFrozen id = false := (isFrozen_of_get? found).trans fresh
      have later : r₂.joined (order ++ order') id t.subTypes = r₂.joined order' id t.subTypes := by
        rw [joined_append fun s hs => p.complexSuperTypesOf (frozen s hs), joined_eq_self supers none]
      rw [Repository.flattened, ← later]
      exact .flattened moment building (by simp [mem]) supers'
  | extended done =>
    cases second with
    | untouched fresh => exact absurd (done.symm.trans fresh) (by simp)
    | extended =>
      rw [← joined_append fun s hs => p.complexSuperTypesOf (frozen s hs)]
      exact .extended done
    | flattened _ building =>
      exact absurd building (ComplexType.not_building_of_isFrozen done _)
  | flattened moment building mem supers' =>
    cases second with
    | untouched fresh => cases fresh
    | extended =>
      -- the shape was computed from types that the second run leaves as they are
      have same : r₁.flatten id _ _ = r₂.flatten id _ _ := p.flatten supers'
      have usages : r₁.usagesOf (r₁.flatten id _ _).superTypes = r₂.usagesOf _ :=
        p.usagesOf fun s hs => supers' s (mem_superTypes_flatten hs)
      have whole : Evolution r₂ (order ++ order') id _ _ :=
        .flattened moment building (List.mem_append_left order' mem)
          fun s hs => p.isFrozen (supers' s (by rwa [p.keptSuperTypes]))
      unfold Repository.flattened at whole ⊢
      rw [joined_append fun s hs => p.complexSuperTypesOf (frozen s hs), ← same, ← usages] at whole
      exact whole
    | flattened _ building' => cases building'

theorem Evolution.rel_trans {before after : Option TypeNode}
    (first : Option.Rel (Evolution r₁ order id) before (r₁.get? id))
    (second : Option.Rel (Evolution r₂ order' id) (r₁.get? id) after)
    (p : Preserves r₁ r₂) (frozen : ∀ s ∈ order, r₁.isFrozen s = true)
    (supers : ∀ s ∈ order, ∀ v ∈ r₁.complexSuperTypesOf s, r₁.isFrozen v = true) :
    Option.Rel (Evolution r₂ (order ++ order') id) before after := by
  generalize found : r₁.get? id = middle at first second
  cases first with
  | none =>
    cases second
    exact .none
  | some h₁ =>
    cases second with
    | some h₂ => exact .some (h₁.trans h₂ found p frozen supers)

/-! ### What becomes of the repository -/

/-- The types of `order` were frozen in this order. -/
structure Evolves (r : Repository) (order : List TypeId) (r' : Repository) : Prop where
  types : ∀ u, Option.Rel (Evolution r' order u) (r.get? u) (r'.get? u)
  names : r'.names = r.names
  builtinNamespace : r'.builtinNamespace = r.builtinNamespace
  /-- What is frozen was being built. -/
  fresh : ∀ u ∈ order, ∃ t declared,
    r.get? u = some (.complex t) ∧ t.lifecycle = .building declared
  nodup : order.Nodup
  /-- No type is frozen before a super type that it keeps. -/
  sorted : order.Pairwise fun u v => v ∉ r.keptBy u
  irreflexive : ∀ u ∈ order, u ∉ r.keptBy u

namespace Evolves

theorem get? (E : r.Evolves order r') {n : TypeNode} (found : r.get? u = some n) :
    ∃ n', r'.get? u = some n' ∧ Evolution r' order u n n' := by
  have related := E.types u
  rw [found] at related
  generalize r'.get? u = after at related ⊢
  cases related with
  | some h => exact ⟨_, rfl, h⟩

theorem get?_none (E : r.Evolves order r') : r'.get? u = none ↔ r.get? u = none := by
  have related := E.types u
  generalize r.get? u = before at related ⊢
  generalize r'.get? u = after at related ⊢
  cases related <;> simp

/-- What a type that is frozen in the end has become. -/
theorem get?_of_isFrozen (E : r.Evolves order r') {n : TypeNode} (found : r.get? u = some n)
    (frozen : r'.isFrozen u = true) :
    ∃ n', r'.get? u = some n' ∧ n'.isFrozen = true ∧ Evolution r' order u n n' := by
  obtain ⟨n', found', evolution⟩ := E.get? found
  exact ⟨n', found', (isFrozen_of_get? found').symm.trans frozen, evolution⟩

/-- A complex type stays complex. -/
theorem exists_complex? (E : r.Evolves order r') {t : ComplexType} (found : r.complex? u = some t) :
    ∃ t', r'.complex? u = some t' ∧ Evolution r' order u (.complex t) (.complex t') := by
  obtain ⟨n', found', evolution⟩ := E.get? (complex?_eq_some.1 found)
  cases evolution with
  | untouched fresh out => exact ⟨_, complex?_eq_some.2 found', .untouched fresh out⟩
  | extended done => exact ⟨_, complex?_eq_some.2 found', .extended done⟩
  | flattened moment building mem supers =>
    exact ⟨_, complex?_eq_some.2 found', .flattened moment building mem supers⟩

/-- A complex type that is frozen gets subtypes at most. -/
theorem complex?_of_isFrozen (E : r.Evolves order r') {t : ComplexType}
    (found : r.complex? u = some t) (frozen : t.isFrozen = true) :
    r'.complex? u = some { t with subTypes := r'.joined order u t.subTypes } := by
  obtain ⟨t', found', evolution⟩ := E.exists_complex? found
  cases evolution with
  | untouched fresh => cases frozen.symm.trans fresh
  | extended => exact found'
  | flattened _ building =>
    exact absurd building (ComplexType.not_building_of_isFrozen frozen _)

/-- A complex type was complex before. -/
theorem exists_of_complex? (E : r.Evolves order r') {t' : ComplexType}
    (found' : r'.complex? u = some t') :
    ∃ t, r.complex? u = some t ∧ Evolution r' order u (.complex t) (.complex t') := by
  rw [complex?_eq_some] at found'
  cases before : r.get? u with
  | none =>
    rw [E.get?_none.2 before] at found'
    cases found'
  | some n =>
    obtain ⟨n', after, evolution⟩ := E.get? before
    rw [found'] at after
    obtain rfl := Option.some.inj after
    cases n with
    | simple => cases evolution
    | complex t => exact ⟨t, complex?_eq_some.2 before, evolution⟩

/-- A type whose freeze is under way does not change. -/
theorem get?_freezing (E : r.Evolves order r') {t : ComplexType}
    (found : r.get? u = some (.complex t)) (underWay : t.lifecycle = .freezing) :
    r'.get? u = some (.complex t) ∧ u ∉ order := by
  obtain ⟨n', found', evolution⟩ := E.get? found
  cases evolution with
  | untouched _ out => exact ⟨found', out⟩
  | extended done => simp [ComplexType.isFrozen_of_freezing underWay] at done
  | flattened _ building => simp [underWay] at building

theorem instantiable (E : r.Evolves order r') (u : TypeId) :
    (r.get? u).map (·.instantiable) = (r'.get? u).map (·.instantiable) := by
  have related := E.types u
  generalize r.get? u = before at related ⊢
  generalize r'.get? u = after at related ⊢
  cases related with
  | none => rfl
  | some h => cases h <;> rfl

theorem preserves (E : r.Evolves order r') : Preserves r r' := by
  refine ⟨E.instantiable, fun u frozen => ?_⟩
  have related := E.types u
  rw [Repository.isFrozen] at frozen
  generalize r.get? u = before at related frozen ⊢
  generalize r'.get? u = after at related ⊢
  cases related with
  | none => rfl
  | some h =>
    cases h with
    | @simple t b kept =>
      obtain ⟨name, superTypes, isFrozen⟩ := t
      obtain rfl : isFrozen = true := frozen
      rw [kept rfl]
    | untouched => rfl
    | extended => rfl
    | flattened _ building =>
      simp [TypeNode.isFrozen, ComplexType.isFrozen_of_building building] at frozen

theorem keptBy (E : r.Evolves order r') (mem : u ∈ order') (fresh : ∀ u ∈ order', ∃ t declared,
    r'.get? u = some (.complex t) ∧ t.lifecycle = .building declared) :
    r.keptBy u = r'.keptBy u ∧
      ∃ t declared, r.get? u = some (.complex t) ∧ t.lifecycle = .building declared := by
  obtain ⟨t, declared, found', building⟩ := fresh u mem
  have related := E.types u
  rw [found'] at related
  rw [Repository.keptBy, Repository.keptBy]
  rw [found']
  generalize r.get? u = before at related ⊢
  cases related with
  | some h =>
    cases h with
    | untouched =>
      simp only [building]
      exact ⟨E.preserves.keptSuperTypes _ _, t, declared, rfl, building⟩
    | extended done =>
      exact absurd building (ComplexType.not_building_of_isFrozen done _)
    | flattened => cases building

/-- A type of the order: what it was and what it has become. -/
theorem flattened_of_mem (E : r.Evolves order r') (mem : u ∈ order) :
    ∃ t declared moment, r.get? u = some (.complex t) ∧ t.lifecycle = .building declared ∧
      r'.get? u = some (.complex (r'.flattened order moment u t declared)) ∧
      ∀ s ∈ r'.keptSuperTypes t.instantiable declared.superTypes, r'.isFrozen s = true := by
  obtain ⟨t, declared, found, building⟩ := E.fresh u mem
  obtain ⟨n', found', evolution⟩ := E.get? found
  cases evolution with
  | untouched _ out => exact absurd mem out
  | extended done => simp [ComplexType.isFrozen_of_building building] at done
  | flattened moment building' _ supers =>
    obtain rfl : _ = _ := Lifecycle.building.inj (building.symm.trans building')
    exact ⟨t, declared, moment, found, building, found', supers⟩

theorem isFrozen_of_mem (E : r.Evolves order r') (mem : u ∈ order) : r'.isFrozen u = true := by
  obtain ⟨t, declared, moment, -, -, found', -⟩ := E.flattened_of_mem mem
  rw [isFrozen_of_get? found']
  rfl

theorem keptBy_of_mem (E : r.Evolves order r') (mem : u ∈ order) :
    ∀ s ∈ r.keptBy u, r'.isFrozen s = true := by
  obtain ⟨t, declared, moment, found, building, -, supers⟩ := E.flattened_of_mem mem
  intro s hs
  refine supers s ?_
  rw [← E.preserves.keptSuperTypes]
  simpa [Repository.keptBy, found, building] using hs

theorem superTypes_of_mem (E : r.Evolves order r') (mem : u ∈ order) :
    ∀ s ∈ r'.complexSuperTypesOf u, r'.isFrozen s = true := by
  obtain ⟨t, declared, moment, -, -, found', supers⟩ := E.flattened_of_mem mem
  intro s hs
  have mem' : s ∈ (r'.flatten u t.instantiable declared).superTypes := by
    rwa [Repository.complexSuperTypesOf, complex?_eq_some.2 found'] at hs
  exact supers s (mem_superTypes_flatten mem')

protected theorem refl (r : Repository) : r.Evolves [] r where
  types u := Evolution.rel_refl _
  names := rfl
  builtinNamespace := rfl
  fresh := by simp
  nodup := .nil
  sorted := .nil
  irreflexive := by simp

protected theorem trans (first : r.Evolves order r₁) (second : r₁.Evolves order' r') :
    r.Evolves (order ++ order') r' where
  types u := Evolution.rel_trans (first.types u) (second.types u) second.preserves
    (fun _ => first.isFrozen_of_mem) fun _ => first.superTypes_of_mem
  names := second.names.trans first.names
  builtinNamespace := second.builtinNamespace.trans first.builtinNamespace
  fresh u mem := by
    rcases List.mem_append.1 mem with mem | mem
    · exact first.fresh u mem
    · exact (first.keptBy mem second.fresh).2
  nodup := by
    refine List.nodup_append.2 ⟨first.nodup, second.nodup, ?_⟩
    rintro u mem v mem' rfl
    obtain ⟨t, declared, found, building⟩ := second.fresh u mem'
    have frozen := first.isFrozen_of_mem mem
    rw [isFrozen_of_get? found] at frozen
    simp [TypeNode.isFrozen, ComplexType.isFrozen_of_building building] at frozen
  sorted := by
    refine List.pairwise_append.2 ⟨first.sorted, ?_, ?_⟩
    · refine second.sorted.imp_of_mem fun mem _ h => ?_
      rwa [(first.keptBy mem second.fresh).1]
    · -- super types kept by the first part are frozen before the second part starts
      intro u mem v mem' kept
      obtain ⟨t, declared, found, building⟩ := second.fresh v mem'
      have frozen := first.keptBy_of_mem mem v kept
      rw [isFrozen_of_get? found] at frozen
      simp [TypeNode.isFrozen, ComplexType.isFrozen_of_building building] at frozen
  irreflexive u mem := by
    rcases List.mem_append.1 mem with mem | mem
    · exact first.irreflexive u mem
    · rw [(first.keptBy mem second.fresh).1]
      exact second.irreflexive u mem

/-- A simple type is marked. -/
theorem markFrozen {t : SimpleType} (found : r.get? id = some (.simple t)) :
    r.Evolves [] (r.markFrozen id t) where
  types u := by
    by_cases same : u = id
    · subst same
      rw [get?_markFrozen_self found, found]
      exact .some (.simple fun _ => rfl)
    · rw [get?_markFrozen t same]
      exact Evolution.rel_refl _
  names := rfl
  builtinNamespace := rfl
  fresh := by simp
  nodup := .nil
  sorted := .nil
  irreflexive := by simp

end Evolves

end Repository

end EntityModel
