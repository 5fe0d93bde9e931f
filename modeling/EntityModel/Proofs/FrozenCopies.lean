/-
Freezing a copy.

A type and its copy, once both are frozen, have the same fields in the same order, the same
keys and the same super types (`ComplexType.Reproduces`).

* `fields_flatten_of_isCopyOf` — a copy that was declared as its source was is flattened as its
  source is;
* `fields_flatten_of_isFinal` — a copy of a frozen type inherits again what the type has already,
  in the same places;
* `Reachable.freeze_copy` — so whichever of the two is frozen first, the copy comes out as its
  source, unless that was frozen elsewhere and its super types are others here.
-/
import EntityModel.Proofs.Acyclicity
import EntityModel.Proofs.CopiedFields

namespace EntityModel

/-! ### Shapes of copies -/

theorem Field.freeze_eq_self {f : Field} (h : f.isFrozen = true) : f.freeze = f := by
  obtain ⟨⟩ := f
  cases h
  rfl

theorem Field.promote_eq_self {f : Field} (h : f.isKey = true) : f.promote = f := by
  obtain ⟨⟩ := f
  cases h
  rfl

/-- The shape `s'`, owned by `owner`, was declared from `s`. -/
structure TypeShape.IsCopyOf (s' s : TypeShape) (owner : TypeId) : Prop where
  fields : s'.fields = s.fields.copied owner
  keys : ∀ name, s'.keyFields.find? name = (s.keyFields.find? name).map (·.thawed.adopt owner)
  keyNames : s'.keyFields.names = (s.fields.flagged.names ++ s.keyFields.names).eraseDups
  superTypes : s'.superTypes = s.superTypes
  primaryKeyInfo : s'.primaryKeyInfo = s.primaryKeyInfo.map FieldRef.thawed
  lookupFields : s'.lookupFields = s.lookupFields.map FieldRef.thawed

namespace TypeShape

variable {s s' : TypeShape} {owner : TypeId}

theorem IsCopyOf.mem_keyNames (h : s'.IsCopyOf s owner) (name : String) :
    name ∈ s'.keyFields.names ↔ name ∈ s.keyFields.names := by
  rw [FieldTable.mem_names_iff, FieldTable.mem_names_iff, h.keys, Option.isSome_map]

/-- Before the keys, it does not matter that a copy lists its flagged fields first. -/
theorem IsCopyOf.eraseDups_keyNames (h : s'.IsCopyOf s owner) {names : List String}
    (sub : s.fields.names ⊆ names) :
    (names ++ s'.keyFields.names).eraseDups = (names ++ s.keyFields.names).eraseDups := by
  have present : s.fields.flagged.names ⊆ names := fun name mem =>
    sub ((List.filter_sublist.map NamedField.key).subset mem)
  rw [h.keyNames, eraseDups_append_congr rfl (eraseDups_eraseDups _), ← List.append_assoc]
  exact eraseDups_append_congr (eraseDups_append_of_subset present) rfl

/-- What is settled is read-only, so it does not matter whether it was before. -/
theorem settle_adopt {keys keys' : FieldTable} {f f' : Field}
    (same : f'.name ∈ keys'.names ↔ f.name ∈ keys.names)
    (like : f'.freeze = f.freeze.adopt owner) :
    settle keys' f' = (settle keys f).adopt owner := by
  rw [settle, settle, like]
  by_cases key : f.name ∈ keys.names
  · rw [if_pos (same.2 key), if_pos key]
    rfl
  · rw [if_neg (mt same.1 key), if_neg key]

/-- The fields of a frozen type are settled. -/
theorem IsFinal.settle_eq_self (final : s.IsFinal) {name : String} {f : Field}
    (own : s.fields.find? name = some f) : settle s.keyFields f = f := by
  obtain rfl := FieldTable.name_of_find? own
  have readOnly := final.fieldFrozen f (FieldTable.mem_of_find? own)
  rw [settle]
  split
  · next key =>
    obtain ⟨g, found, flagged⟩ := (final.key f.name).1 key
    obtain rfl := Option.some.inj (own.symm.trans found)
    rw [Field.freeze_eq_self readOnly, Field.promote_eq_self flagged]
  · exact Field.freeze_eq_self readOnly

end TypeShape

namespace ComplexType

variable {t : ComplexType} {id copy : TypeId}

/-- A type that does not extend itself is copied with its super types. -/
theorem isCopyOf_deepCopy (keys : t.shape.RegistersKeys) (distinct : t.shape.superTypes.Nodup)
    (other : id ∉ t.shape.superTypes) :
    (t.deepCopy copy (t.shape.superTypes.map (Edit.copyOr [(id, copy)]))).shape.IsCopyOf
      t.shape copy := by
  have superTypes : t.shape.superTypes.map (Edit.copyOr [(id, copy)]) = t.shape.superTypes := by
    refine (List.map_congr_left fun s mem => ?_).trans (List.map_id _)
    have apart : (s == id) = false := by simpa using ne_of_mem_of_not_mem mem other
    simp [Edit.copyOr, List.lookup_cons, apart]
  rw [superTypes]
  refine ⟨by rw [shape_deepCopy], find?_keyFields_deepCopy _ _ keys,
    t.names_keyFields_deepCopy _ _, ?_, by rw [shape_deepCopy], by rw [shape_deepCopy]⟩
  rw [superTypes_deepCopy, foldl_appendNew_of_nodup (by rwa [List.nil_append]), List.nil_append]

end ComplexType

namespace Repository

/-! ### A copy of a type that is being built -/

section Declared

variable {r : Repository} {id copy : TypeId} {instantiable : Bool} {s s' : TypeShape}

theorem mem_keyNames_gathered (r : Repository) (id : TypeId) (instantiable : Bool)
    (s : TypeShape) (name : String) :
    name ∈ (r.gathered id instantiable s).keyFields.names ↔
      (∃ v ∈ r.keptSuperTypes instantiable s.superTypes, ∃ f, r.ownField? v name = some f ∧
        f.isKey = true) ∨ name ∈ s.keyFields.names := by
  rw [FieldTable.mem_names_iff, find?_keyFields_gathered, Option.isSome_or, Option.isSome_map,
    Bool.or_eq_true, ← FieldTable.mem_names_iff, List.findSome?_isSome_iff]
  simp only [List.mem_reverse, Option.isSome_iff_exists, Option.filter_eq_some_iff]

theorem mem_keyNames_flatten_iff (r : Repository) (id : TypeId) (instantiable : Bool)
    (s : TypeShape) (name : String) :
    name ∈ (r.flatten id instantiable s).keyFields.names ↔
      name ∈ (r.gathered id instantiable s).keyFields.names := by
  rw [flatten_eq_finish, TypeShape.names_keyFields_finish]

variable (h : s'.IsCopyOf s copy)

include h

theorem mem_keyNames_gathered_of_isCopyOf (name : String) :
    name ∈ (r.gathered copy instantiable s').keyFields.names ↔
      name ∈ (r.gathered id instantiable s).keyFields.names := by
  rw [mem_keyNames_gathered, mem_keyNames_gathered, h.superTypes, h.mem_keyNames]

/-- A copy that was declared as its source was is flattened as its source is. -/
theorem fields_flatten_of_isCopyOf :
    (r.flatten copy instantiable s').fields.fields =
      (r.flatten id instantiable s).fields.fields.map (·.adopt copy) := by
  refine FieldTable.fields_eq_map (Field.name_adopt · copy) ?_ fun name => ?_
  · rw [names_flatten, names_flatten, h.superTypes, h.fields, FieldTable.names_copied]
    exact h.eraseDups_keyNames (List.subset_append_right _ _)
  · have settled : ∀ f f' : Field, f'.freeze = f.freeze.adopt copy →
        TypeShape.settle (r.gathered copy instantiable s').keyFields f' =
          (TypeShape.settle (r.gathered id instantiable s).keyFields f).adopt copy := by
      intro f f' like
      have name : f'.name = f.name := (congrArg Field.name like :)
      exact TypeShape.settle_adopt (by rw [name, mem_keyNames_gathered_of_isCopyOf h]) like
    rw [find?_flatten, find?_flatten, h.superTypes, h.fields, FieldTable.find?_copied, h.keys]
    cases s.fields.find? name with
    | some f => exact congrArg some (settled f (f.thawed.adopt copy) rfl)
    | none =>
      cases (r.keptSuperTypes instantiable s.superTypes).reverse.findSome? (r.ownField? · name) with
      | some f => exact congrArg some (settled (f.adopt id) (f.adopt copy) rfl)
      | none =>
        cases s.keyFields.find? name with
        | some k => exact congrArg some (settled k (k.thawed.adopt copy) rfl)
        | none => rfl

end Declared

/-! ### A copy of a frozen type -/

section Final

variable {r : Repository} {id copy v : TypeId} {t : ComplexType} {s' : TypeShape}
variable (settled : r.IsSettled) (found : r.complex? id = some t) (frozen : t.isFrozen = true)

include settled found frozen

theorem IsSettled.agrees (super : v ∈ t.shape.superTypes) :
    ((r.get? v).any fun n => n.instantiable = t.instantiable) = true := by
  obtain ⟨n, here, supports⟩ := settled.closed id t found frozen v super
  rw [here]
  exact decide_eq_true supports.instantiable

/-- A frozen type has dropped the super types that it would drop. -/
theorem IsSettled.keptSuperTypes :
    r.keptSuperTypes t.instantiable t.shape.superTypes = t.shape.superTypes := by
  rw [Repository.keptSuperTypes]
  split
  · rfl
  · exact List.filter_eq_self.2 fun v super => settled.agrees found frozen super

theorem IsSettled.shape_isFinal : t.shape.IsFinal := (settled.sound id t found).isFinal_shape frozen

/-- A frozen type has what its super types hand down. -/
theorem IsSettled.mem_names_of_superType {name : String} {f : Field}
    (super : v ∈ t.shape.superTypes) (own : r.ownField? v name = some f) :
    name ∈ t.shape.fields.names ∧ (f.isKey = true → name ∈ t.shape.keyFields.names) := by
  obtain ⟨n, here, supports⟩ := settled.closed id t found frozen v super
  obtain ⟨u, there, own⟩ := Option.bind_eq_some_iff.1 own
  rw [complex?_eq_some.1 there] at here
  obtain rfl := Option.some.inj here
  have final := settled.shape_isFinal there supports.frozen
  refine ⟨supports.fields u rfl ?_, fun key => supports.keys u rfl ?_⟩
  · exact FieldTable.mem_names_iff.2 (Option.isSome_iff_exists.2 ⟨f, own⟩)
  · exact (final.key name).2 ⟨f, own, key⟩

variable (h : s'.IsCopyOf t.shape copy)

include h

theorem mem_keyNames_gathered_of_isFinal (name : String) :
    name ∈ (r.gathered copy t.instantiable s').keyFields.names ↔
      name ∈ t.shape.keyFields.names := by
  rw [mem_keyNames_gathered, h.superTypes, settled.keptSuperTypes found frozen, h.mem_keyNames]
  refine ⟨?_, .inr⟩
  rintro (⟨v, super, f, own, key⟩ | own)
  · exact (settled.mem_names_of_superType found frozen super own).2 key
  · exact own

/-- A copy of a frozen type inherits again what the type has already, in the same places. -/
theorem fields_flatten_of_isFinal :
    (r.flatten copy t.instantiable s').fields.fields =
      t.shape.fields.fields.map (·.adopt copy) := by
  have final := settled.shape_isFinal found frozen
  have kept := settled.keptSuperTypes found frozen
  have keys := mem_keyNames_gathered_of_isFinal settled found frozen h
  refine FieldTable.fields_eq_map (Field.name_adopt · copy) ?_ fun name => ?_
  · have first := settled.inheritsFirst id t found frozen
    have present : t.shape.keyFields.names ⊆
        r.fieldNamesOf t.shape.superTypes ++ t.shape.fields.names := by
      intro name mem
      obtain ⟨f, own, -⟩ := (final.key name).1 mem
      exact List.mem_append_right _ (FieldTable.mem_names_iff.2 (by rw [own]; rfl))
    rw [names_flatten, h.superTypes, kept, h.fields, FieldTable.names_copied,
      h.eraseDups_keyNames (List.subset_append_right _ _), eraseDups_append_of_subset present]
    exact eraseDups_append_of_prefix t.shape.fields.distinct first
  · rw [find?_flatten, h.superTypes, kept, h.fields, FieldTable.find?_copied, h.keys]
    cases own : t.shape.fields.find? name with
    | some f =>
      have settled : TypeShape.settle _ (f.thawed.adopt copy) = _ :=
        TypeShape.settle_adopt (keys f.name) rfl
      rw [final.settle_eq_self own] at settled
      exact congrArg some settled
    | none =>
      have absent : name ∉ t.shape.fields.names := FieldTable.find?_eq_none.1 own
      have lent : t.shape.superTypes.reverse.findSome? (r.ownField? · name) = none := by
        refine List.findSome?_eq_none_iff.2 fun v super => ?_
        refine Option.eq_none_iff_forall_ne_some.2 fun f lent => absent ?_
        exact (settled.mem_names_of_superType found frozen (List.mem_reverse.1 super) lent).1
      have key : t.shape.keyFields.find? name = none := by
        refine FieldTable.find?_eq_none.2 fun key => absent ?_
        obtain ⟨f, own, -⟩ := (final.key name).1 key
        exact FieldTable.mem_names_iff.2 (by rw [own]; rfl)
      rw [lent, key]
      rfl

theorem superTypes_flatten_of_isFinal :
    (r.flatten copy t.instantiable s').superTypes = t.shape.superTypes := by
  rw [superTypes_flatten, h.superTypes, settled.keptSuperTypes found frozen]
  exact List.filter_eq_self.2 fun v super => settled.agrees found frozen super

end Final

end Repository

/-! ### Both frozen -/

/-- The frozen copy `u` at `copy` has what its frozen source `t` has. -/
structure ComplexType.Reproduces (u t : ComplexType) (copy : TypeId) : Prop where
  fields : u.shape.fields.fields = t.shape.fields.fields.map (·.adopt copy)
  keys : ∀ name, name ∈ u.shape.keyFields.names ↔ name ∈ t.shape.keyFields.names
  superTypes : u.shape.superTypes = t.shape.superTypes

namespace Repository

variable {r r' : Repository} {order : List TypeId} {id copy : TypeId} {t u : ComplexType}

/-- Bound references are bound again to the same fields. -/
theorem bindRefs_thawed {refs : List FieldRef}
    (bound : ∀ ref ∈ refs, ∃ f, ref = .field f ∧ f.isFrozen = true) :
    (r.bindRefs id (refs.map FieldRef.thawed)).1 = refs := by
  induction refs with
  | nil => rfl
  | cons ref rest ih =>
    obtain ⟨f, rfl, readOnly⟩ := bound ref List.mem_cons_self
    have head : FieldRef.field f.thawed.freeze = .field f := by
      rw [show f.thawed.freeze = f.freeze from rfl, Field.freeze_eq_self readOnly]
    have tail := ih fun ref mem => bound ref (List.mem_cons_of_mem _ mem)
    exact congrArg₂ List.cons head tail

/-- A type that is frozen does not extend itself. -/
theorem Evolves.not_mem_superTypes {declared : TypeShape} (E : r.Evolves order r')
    (found : r.complex? id = some t) (building : t.lifecycle = .building declared)
    (mem : id ∈ order) : id ∉ declared.superTypes := by
  intro super
  refine E.irreflexive id mem ?_
  rw [Repository.keptBy, complex?_eq_some.1 found]
  simp only [building]
  rw [keptSuperTypes]
  split
  · exact super
  · exact List.mem_filter.2 ⟨super, by simp [complex?_eq_some.1 found, TypeNode.instantiable]⟩

/-- What a freeze makes of a type that was being built. -/
theorem Evolves.complex?_of_building {declared : TypeShape} (E : r.Evolves order r')
    (found : r.complex? id = some t) (building : t.lifecycle = .building declared)
    (frozen : r'.isFrozen id = true) : id ∈ order ∧
      ∃ moment, r'.complex? id = some (r'.flattened order moment id t declared) := by
  have mem := E.mem_of_building (complex?_eq_some.1 found) building frozen
  obtain ⟨t₁, declared₁, moment, found₁, building₁, found', -⟩ := E.flattened_of_mem mem
  rw [complex?_eq_some.1 found] at found₁
  obtain rfl := TypeNode.complex.inj (Option.some.inj found₁)
  obtain rfl : declared = declared₁ := Lifecycle.building.inj (building.symm.trans building₁)
  exact ⟨mem, moment, complex?_eq_some.2 found'⟩

/-- A copy of a type that was being built is flattened beside it. -/
theorem Evolves.reproduces_of_building {declared : TypeShape} {u : ComplexType}
    (E : r.Evolves order r') (found : r.complex? id = some t)
    (building : t.lifecycle = .building declared) (frozen : r'.isFrozen id = true)
    (there : r.complex? copy = some u) {declared' : TypeShape}
    (building' : u.lifecycle = .building declared') (like : u.instantiable = t.instantiable)
    (frozen' : r'.isFrozen copy = true)
    (copied : id ∉ declared.superTypes → declared'.IsCopyOf declared copy) :
    ∃ t' u', r'.complex? id = some t' ∧ r'.complex? copy = some u' ∧ t'.isFrozen = true ∧
      u'.isFrozen = true ∧ u'.Reproduces t' copy := by
  obtain ⟨mem, moment, found'⟩ := E.complex?_of_building found building frozen
  obtain ⟨-, moment', there'⟩ := E.complex?_of_building there building' frozen'
  have copied := copied (E.not_mem_superTypes found building mem)
  refine ⟨_, _, found', there', rfl, rfl, ?_, fun name => ?_, ?_⟩
  · show (r'.flatten copy u.instantiable declared').fields.fields = _
    rw [like]
    exact fields_flatten_of_isCopyOf copied
  · show name ∈ (r'.flatten copy u.instantiable declared').keyFields.names ↔
      name ∈ (r'.flatten id t.instantiable declared).keyFields.names
    rw [like, mem_keyNames_flatten_iff, mem_keyNames_flatten_iff]
    exact mem_keyNames_gathered_of_isCopyOf copied name
  · show (r'.flatten copy u.instantiable declared').superTypes =
      (r'.flatten id t.instantiable declared).superTypes
    rw [superTypes_flatten, superTypes_flatten, like, copied.superTypes]

/-- A copy of a frozen type becomes what that is. -/
theorem Evolves.reproduces_of_frozen (E : r.Evolves order r') (settled : r'.IsSettled)
    (found : r.complex? id = some t) (frozen : t.isFrozen = true)
    (there : r.complex? copy = some u) {declared : TypeShape}
    (building : u.lifecycle = .building declared) (like : u.instantiable = t.instantiable)
    (frozen' : r'.isFrozen copy = true) (copied : declared.IsCopyOf t.shape copy) :
    ∃ t' u', r'.complex? id = some t' ∧ r'.complex? copy = some u' ∧ t'.isFrozen = true ∧
      u'.isFrozen = true ∧ u'.Reproduces t' copy ∧
      u'.shape.primaryKeyInfo = t'.shape.primaryKeyInfo ∧
      u'.shape.lookupFields = t'.shape.lookupFields := by
  obtain ⟨-, moment, there'⟩ := E.complex?_of_building there building frozen'
  have found' := E.complex?_of_isFrozen found frozen
  have final := settled.shape_isFinal found' frozen
  refine ⟨_, _, found', there', frozen, rfl, ⟨?_, fun name => ?_, ?_⟩, ?_, ?_⟩
  · show (r'.flatten copy u.instantiable declared).fields.fields = _
    rw [like]
    exact (fields_flatten_of_isFinal settled found' frozen copied :)
  · show name ∈ (r'.flatten copy u.instantiable declared).keyFields.names ↔ _
    rw [like, mem_keyNames_flatten_iff]
    exact mem_keyNames_gathered_of_isFinal settled found' frozen copied name
  · show (r'.flatten copy u.instantiable declared).superTypes = _
    rw [like]
    exact (superTypes_flatten_of_isFinal settled found' frozen copied :)
  · show (moment.bindRefs copy declared.primaryKeyInfo).1 = t.shape.primaryKeyInfo
    rw [copied.primaryKeyInfo]
    exact bindRefs_thawed final.primaryKeyInfo
  · show (moment.bindRefs copy declared.lookupFields).1 = t.shape.lookupFields
    rw [copied.lookupFields]
    exact bindRefs_thawed final.lookupFields

/-- No frozen type extends itself. -/
theorem IsGrounded.not_mem_superTypes (h : r.IsGrounded) (found : r.complex? id = some t)
    (frozen : t.isFrozen = true) : id ∉ t.shape.superTypes := by
  intro super
  have inherits : r.Inherits id id :=
    ⟨(mem_complexSuperTypesOf found).2 super, by rw [found]; rfl⟩
  exact (h id t found frozen).not_transGen (.single inherits)

/-- The source of a copy stays declared, or frozen, as it was, and the copy is declared like it. -/
theorem Reachable.copy_declares (h : r.Reachable) {events : List Event} {m₁ : Model}
    (run : Edit.copy id ⟨r, events⟩ = .ok copy m₁) :
    ∃ t t₁ u, r.complex? id = some t ∧ m₁.repository.complex? id = some t₁ ∧
      t₁.lifecycle = t.lifecycle ∧ m₁.repository.complex? copy = some u ∧
      u.lifecycle = .building u.shape ∧ u.instantiable = t₁.instantiable ∧
      (id ∉ t₁.shape.superTypes → u.shape.IsCopyOf t₁.shape copy) := by
  obtain ⟨t, t₁, u, found, found₁, same, there, same'⟩ := Edit.copy_types run
  have lifecycle : t₁.lifecycle = t.lifecycle := by rw [same]
  have shape : t₁.shape = t.shape := congrArg Lifecycle.shape lifecycle
  have keys := (h.isSound id t found).registersKeys
  have distinct := (h.isProper id t found).superTypes
  refine ⟨t, t₁, u, found, found₁, lifecycle, there, ?_, ?_, fun other => ?_⟩
  · rw [same']
    rfl
  · rw [same, same']
    rfl
  · rw [shape] at other ⊢
    rw [same']
    exact ComplexType.isCopyOf_deepCopy keys distinct other

/-- Freezing a type and its copy, in either order, makes the copy what the type is; a copy of a
frozen type has its primary key information and its lookup fields too, if frozen types with super
types were registered only where there was a type like them. -/
theorem Reachable.freeze_copy (h : r.Reachable)
    (admitted : r.isFrozen id = true → ∃ c ids,
      Run c (fun r _ operation => operation.RegistersOnly r.Admits) r ids)
    {events : List Event} {m₁ m₂ : Model}
    (run : Edit.copy id ⟨r, events⟩ = .ok copy m₁) {ids : List TypeId}
    (both : ids = [id, copy] ∨ ids = [copy, id])
    (froze : ids.forM Edit.freeze m₁ = .ok () m₂) :
    ∃ t u, m₂.repository.complex? id = some t ∧ m₂.repository.complex? copy = some u ∧
      t.isFrozen = true ∧ u.isFrozen = true ∧ u.Reproduces t copy ∧
      (r.isFrozen id = true → u.shape.primaryKeyInfo = t.shape.primaryKeyInfo ∧
        u.shape.lookupFields = t.shape.lookupFields) := by
  obtain ⟨t, t₁, u₁, found, found₁, lifecycle, there, building, like, copied⟩ :=
    h.copy_declares run
  obtain ⟨order, freezes⟩ := (Edit.forM_freeze_run ids m₁).of_ok froze
  obtain ⟨E, all⟩ := freezes.evolves
  have frozen : m₂.repository.isFrozen id = true :=
    all rfl id (by rcases both with rfl | rfl <;> simp)
  have frozen' : m₂.repository.isFrozen copy = true :=
    all rfl copy (by rcases both with rfl | rfl <;> simp)
  cases point : t.lifecycle with
  | building declared =>
    have declares : t₁.lifecycle = .building t₁.shape := by
      rw [ComplexType.shape, lifecycle, point]
      rfl
    obtain ⟨t', u', found', there', done, done', reproduces⟩ :=
      E.reproduces_of_building found₁ declares frozen there building like frozen' copied
    refine ⟨t', u', found', there', done, done', reproduces, fun before => ?_⟩
    rw [isFrozen_of_get? (complex?_eq_some.1 found)] at before
    exact absurd point (ComplexType.not_building_of_isFrozen before declared)
  | freezing =>
    have sound := h.isSound id t found
    rw [point] at sound
    exact sound.elim
  | frozen flat =>
    have done : t.isFrozen = true := by
      rw [ComplexType.isFrozen, point]
      rfl
    obtain ⟨c, ids, admitted⟩ := admitted ((isFrozen_of_get? (complex?_eq_some.1 found)).trans done)
    have other : id ∉ t₁.shape.superTypes := by
      rw [ComplexType.shape, lifecycle]
      exact admitted.isGrounded.not_mem_superTypes found done
    have settled : m₁.repository.IsSettled :=
      ((Edit.keeps_copy (fun step settled => settled.keep (.alter step)) id).yields
        admitted.isSettled).of_ok run
    have settled := settled.keep (.alter (.freeze freezes))
    obtain ⟨t', u', found', there', done, done', reproduces, refs⟩ :=
      E.reproduces_of_frozen settled found₁ ((congrArg Lifecycle.isFrozen lifecycle).trans done)
        there building like frozen' (copied other)
    exact ⟨t', u', found', there', done, done', reproduces, fun _ => refs⟩

theorem freeze_copy_person : ∃ copy m₁ m₂ t u,
    Edit.copy ⟨34⟩ ⟨(Session.start {}).repository.perform (.build parties {}), []⟩ =
      .ok copy m₁ ∧
    [copy, ⟨34⟩].forM Edit.freeze m₁ = .ok () m₂ ∧
    m₂.repository.complex? ⟨34⟩ = some t ∧ m₂.repository.complex? copy = some u ∧
    u.Reproduces t copy ∧ u.shape.lookupFields = t.shape.lookupFields := by
  have built : Run {} (fun _ _ operation => operation.registersHeir = false)
      ((Session.start {}).repository.perform (.build parties {})) _ :=
    .perform .start _ (by simp) rfl
  have frozen : ((Session.start {}).repository.perform (.build parties {})).isFrozen ⟨34⟩ =
      true := by
    rw [Session.repository_start]
    cbv
  have done : (Edit.copy ⟨34⟩ >>= fun copy => [copy, ⟨34⟩].forM Edit.freeze).succeeds
      ⟨(Session.start {}).repository.perform (.build parties {}), []⟩ = true := by
    rw [Session.repository_start]
    cbv
  obtain ⟨_, m₂, done⟩ := Edit.exists_of_succeeds done
  obtain ⟨copy, m₁, run, froze⟩ := Edit.bind_eq_ok.1 done
  obtain ⟨t, u, found, there, -, -, reproduces, refs⟩ := Reachable.freeze_copy
    (.build (.start {}) _ _) (fun _ => ⟨_, _, built.admitted⟩) run (.inr rfl) froze
  exact ⟨copy, m₁, m₂, t, u, run, froze, found, there, reproduces, (refs frozen).2⟩

/-- The person that was taken over has no fields of the place; its copy has once it is frozen. -/
theorem not_freeze_copy : ¬ ∀ (r : Repository) (id copy : TypeId) (events : List Event)
    (m₁ m₂ : Model) (ids : List TypeId), r.Reachable → Edit.copy id ⟨r, events⟩ = .ok copy m₁ →
    ids = [id, copy] ∨ ids = [copy, id] → ids.forM Edit.freeze m₁ = .ok () m₂ →
    ∃ t u, m₂.repository.complex? id = some t ∧ m₂.repository.complex? copy = some u ∧
      t.isFrozen = true ∧ u.isFrozen = true ∧ u.Reproduces t copy ∧
      (r.isFrozen id = true → u.shape.primaryKeyInfo = t.shape.primaryKeyInfo ∧
        u.shape.lookupFields = t.shape.lookupFields) := by
  intro always
  have ends : ((Edit.copy ⟨34⟩ >>= fun copy => [copy, ⟨34⟩].forM Edit.freeze >>= fun _ =>
      pure copy).result? ⟨foreignPerson, []⟩).any (fun (copy, m) =>
        (m.repository.complex? copy).any fun u => (m.repository.complex? ⟨34⟩).any fun t =>
          u.shape.fields.fields.length ≠ t.shape.fields.fields.length) = true := by
    rw [foreignPerson, Session.repository_start]
    cbv
  obtain ⟨⟨copy, m₂⟩, run, differ⟩ := (Option.any_eq_true _ _).1 ends
  obtain ⟨_, m₁, run, rest⟩ := Edit.bind_eq_ok.1 (Edit.result?_eq_some.1 run)
  obtain ⟨_, _, froze, same⟩ := Edit.bind_eq_ok.1 rest
  cases same
  obtain ⟨t, u, found, there, -, -, reproduces, -⟩ :=
    always _ ⟨34⟩ copy [] m₁ m₂ _ reachable_foreignPerson run (.inr rfl) froze
  have longer : u.shape.fields.fields.length ≠ t.shape.fields.fields.length := by
    simpa [found, there] using differ
  exact longer (by rw [reproduces.fields, List.length_map])

end Repository

end EntityModel
