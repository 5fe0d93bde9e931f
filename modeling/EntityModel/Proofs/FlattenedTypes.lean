/-
What a freeze makes of a type.

The type that a freeze flattens has the fields of the super types that it keeps, its own, and its
keys (`IsFlattened`).  A name means what the type declares, or else what the last of those super
types has, or else a key; it is a key if it is registered as one or handed down as one.

* `mem_keyNames_gathered_iff` — which names are keys, if the super types are final;
* `find?_flatten_of_final` — what a name means on the flattened type;
* `Reachable.freeze_isFlattened` — so a freeze that succeeds flattens the type;
* `Reachable.freeze_ownField` — an own field keeps all that it declares, but a super type makes
  it a key.
-/
import EntityModel.Proofs.FreezeEffect
import EntityModel.Proofs.FrozenCopies

namespace EntityModel

namespace Repository

variable {r r' : Repository} {id : TypeId} {instantiable : Bool} {declared : TypeShape}
variable {t : ComplexType} {name : String}

/-- One of the types has a key called `name`. -/
def handsKey (r : Repository) (ids : List TypeId) (name : String) : Bool :=
  ids.any fun s => (r.complex? s).any (·.isKey name)

/-- What a type declared as `declared` makes of `name`, if it keeps the super types `kept`: its
own field, or else that of the last super type that has one, or else a key. -/
def fieldOrigin? (r : Repository) (id : TypeId) (declared : TypeShape) (kept : List TypeId)
    (name : String) : Option Field :=
  ((declared.fields.find? name).or
    ((kept.reverse.findSome? (r.ownField? · name)).map (·.adopt id))).or
      (declared.keyFields.find? name)

/-- The shape `flat` is what becomes of a shape that was declared, if the super types `kept` are
kept. -/
structure IsFlattened (r : Repository) (id : TypeId) (instantiable : Bool) (declared : TypeShape)
    (kept : List TypeId) (flat : TypeShape) : Prop where
  /-- Every name comes from the type, from a super type or from a key. -/
  mem_names : ∀ name, name ∈ flat.fields.names ↔
    name ∈ declared.fields.names ∨ (∃ s ∈ kept, ∃ u, r.complex? s = some u ∧
      name ∈ u.shape.fields.names) ∨ name ∈ declared.keyFields.names
  /-- The names stand as they first come. -/
  names : flat.fields.names =
    (r.fieldNamesOf kept ++ declared.fields.names ++ declared.keyFields.names).eraseDups
  field : ∀ name, flat.fields.find? name = (r.fieldOrigin? id declared kept name).map fun f =>
    { f with
      isFrozen := true
      isKey := declared.keyFields.contains name || r.handsKey kept name }
  superTypes : flat.superTypes = kept.filter fun s =>
    (r.get? s).any fun n => n.instantiable = instantiable

theorem mem_fieldNamesOf {ids : List TypeId} : name ∈ r.fieldNamesOf ids ↔
    ∃ s ∈ ids, ∃ u, r.complex? s = some u ∧ name ∈ u.shape.fields.names := by
  rw [fieldNamesOf, List.mem_flatMap]
  refine exists_congr fun s => and_congr_right fun _ => ?_
  cases r.complex? s with
  | none => simp
  | some u => simp

/-! ### Keys -/

section Final

variable (registers : declared.RegistersKeys)
variable (final : ∀ s ∈ r.keptSuperTypes instantiable declared.superTypes, ∀ u,
  r.complex? s = some u → u.shape.IsFinal)

include final in
/-- The keys of a flattened type are those that were registered and those handed down. -/
theorem mem_keyNames_gathered_iff (name : String) :
    name ∈ (r.gathered id instantiable declared).keyFields.names ↔
      (declared.keyFields.contains name ||
        r.handsKey (r.keptSuperTypes instantiable declared.superTypes) name) = true := by
  have handed : (∃ v ∈ r.keptSuperTypes instantiable declared.superTypes, ∃ f,
      r.ownField? v name = some f ∧ f.isKey = true) ↔
      r.handsKey (r.keptSuperTypes instantiable declared.superTypes) name = true := by
    rw [handsKey, List.any_eq_true]
    refine exists_congr fun v => and_congr_right fun mem => ?_
    rw [ownField?]
    cases found : r.complex? v with
    | none => simp
    | some u =>
      have key := (final v mem u found).key name
      simpa [ComplexType.ownField?, ComplexType.isKey, FieldTable.contains] using key.symm
  rw [mem_keyNames_gathered, handed, Bool.or_eq_true, FieldTable.contains,
    List.contains_iff_mem, or_comm]

theorem settle_eq {keys : FieldTable} {f : Field} (key : f.isKey = true → f.name ∈ keys.names) :
    TypeShape.settle keys f =
      { f with isFrozen := true, isKey := decide (f.name ∈ keys.names) } := by
  rw [TypeShape.settle]
  split
  · next named => simp [named, Field.freeze, Field.promote]
  · next other =>
    have unflagged : f.isKey = false := by simpa using mt key other
    simp [other, Field.freeze, unflagged]

include registers in
/-- A flagged field is registered as a key wherever it comes from. -/
theorem fieldOrigin?_registered {f : Field}
    (origin : r.fieldOrigin? id declared (r.keptSuperTypes instantiable declared.superTypes) name =
      some f) : f.name = name ∧
        (f.isKey = true → name ∈ (r.gathered id instantiable declared).keyFields.names) := by
  rw [fieldOrigin?, ← find?_gathered] at origin
  rcases Option.or_eq_some_iff.1 origin with gathered | ⟨-, key⟩
  · exact ⟨FieldTable.name_of_find? gathered, registersKeys_gathered registers name f gathered⟩
  · refine ⟨FieldTable.name_of_find? key, fun _ => (mem_keyNames_gathered ..).2 (.inr ?_)⟩
    exact FieldTable.mem_names_iff.2 (Option.isSome_of_eq_some key)

include registers final in
/-- What a name means on a flattened type, and whether it is a key there. -/
theorem find?_flatten_of_final (name : String) :
    (r.flatten id instantiable declared).fields.find? name =
      (r.fieldOrigin? id declared (r.keptSuperTypes instantiable declared.superTypes) name).map
        fun f =>
          { f with
            isFrozen := true
            isKey := declared.keyFields.contains name ||
              r.handsKey (r.keptSuperTypes instantiable declared.superTypes) name } := by
  rw [find?_flatten]
  refine Option.map_congr fun f origin => ?_
  obtain ⟨rfl, registered⟩ := fieldOrigin?_registered registers origin
  rw [settle_eq registered]
  congr 1
  exact Bool.eq_iff_iff.2 (by rw [decide_eq_true_iff, mem_keyNames_gathered_iff final])

include registers final in
/-- An own field that is no registered key is what was declared, but for what is handed down. -/
theorem find?_flatten_of_own {f : Field} (own : declared.fields.find? name = some f)
    (unregistered : declared.keyFields.contains name = false) :
    (r.flatten id instantiable declared).fields.find? name = some
      { f with
        isFrozen := true
        isKey := r.handsKey (r.keptSuperTypes instantiable declared.superTypes) name } := by
  have origin : r.fieldOrigin? id declared
      (r.keptSuperTypes instantiable declared.superTypes) name = some f := by
    rw [fieldOrigin?, own]
    rfl
  rw [find?_flatten_of_final registers final, origin, Option.map_some, unregistered, Bool.false_or]

include registers final in
theorem isFlattened_flatten :
    r.IsFlattened id instantiable declared (r.keptSuperTypes instantiable declared.superTypes)
      (r.flatten id instantiable declared) where
  mem_names name := by
    rw [names_flatten, List.mem_eraseDups, List.mem_append, List.mem_append, mem_fieldNamesOf,
      or_assoc, or_left_comm]
  names := names_flatten ..
  field := find?_flatten_of_final registers final
  superTypes := superTypes_flatten

end Final

/-! ### What a freeze makes of a type -/

/-- A type that is not frozen and that no freeze is at work on can be modified. -/
theorem Reachable.lifecycle_of_not_isFrozen (h : r.Reachable) (found : r.complex? id = some t)
    (fresh : t.isFrozen = false) : t.lifecycle = .building t.shape := by
  have idle := h.isIdle id t found
  rw [ComplexType.isFrozen] at fresh
  rw [ComplexType.shape]
  cases point : t.lifecycle with
  | building => rfl
  | freezing => exact absurd point idle
  | frozen => simp [point, Lifecycle.isFrozen] at fresh

/-- A freeze that succeeds flattens the type, on super types that are frozen and final. -/
theorem Reachable.exists_flattened (h : r.Reachable) (found : r.complex? id = some t)
    (fresh : t.isFrozen = false) {events : List Event} {m : Model}
    (run : Edit.freeze id ⟨r, events⟩ = .ok () m) :
    (∃ order moment, m.repository.complex? id =
      some (m.repository.flattened order moment id t t.shape)) ∧
    r.keptSuperTypes t.instantiable t.shape.superTypes =
      m.repository.keptSuperTypes t.instantiable t.shape.superTypes ∧
    ∀ s ∈ m.repository.keptSuperTypes t.instantiable t.shape.superTypes,
      m.repository.isFrozen s = true ∧
        ∀ u, m.repository.complex? s = some u → u.shape.IsFinal := by
  obtain ⟨order, freezes⟩ := (Edit.freeze_run id ⟨r, events⟩).of_ok run
  obtain ⟨E, all⟩ := freezes.evolves
  have building := h.lifecycle_of_not_isFrozen found fresh
  have sound : m.repository.IsSound :=
    Step.isSound (G := fun _ => False) (.alter (.freeze freezes)) nofun h.isSound
  have mem := E.mem_of_building (complex?_eq_some.1 found) building (all rfl id List.mem_cons_self)
  obtain ⟨t₁, declared, moment, found₁, building₁, found', supers⟩ := E.flattened_of_mem mem
  cases (complex?_eq_some.1 found).symm.trans found₁
  obtain rfl : t.shape = declared := Lifecycle.building.inj (building.symm.trans building₁)
  refine ⟨⟨order, moment, complex?_eq_some.2 found'⟩, E.preserves.keptSuperTypes _ _, ?_⟩
  intro s kept
  have frozen := supers s kept
  refine ⟨frozen, fun u there => (sound s u there).isFinal_shape ?_⟩
  exact (isFrozen_of_get? (complex?_eq_some.1 there)).symm.trans frozen

/-- What a freeze that succeeds makes of a type that was not frozen. -/
theorem Reachable.freeze_isFlattened (h : r.Reachable) (found : r.complex? id = some t)
    (fresh : t.isFrozen = false) {events : List Event} {m : Model}
    (run : Edit.freeze id ⟨r, events⟩ = .ok () m) :
    ∃ t', m.repository.complex? id = some t' ∧ t'.isFrozen = true ∧
      (∀ s ∈ r.keptSuperTypes t.instantiable t.shape.superTypes,
        m.repository.isFrozen s = true) ∧
      m.repository.IsFlattened id t.instantiable t.shape
        (r.keptSuperTypes t.instantiable t.shape.superTypes) t'.shape := by
  obtain ⟨⟨order, moment, found'⟩, kept, supers⟩ := h.exists_flattened found fresh run
  have registers := (h.isSound id t found).registersKeys
  have flat : m.repository.IsFlattened id t.instantiable t.shape _ _ :=
    isFlattened_flatten registers fun s mem => (supers s mem).2
  rw [kept]
  refine ⟨_, found', rfl, fun s mem => (supers s mem).1, ?_⟩
  exact ⟨flat.mem_names, flat.names, flat.field, flat.superTypes⟩

/-- A person that extends two types.  It declares anew a key of the first, which also gives it a
name that the second has too, and it registers a key that is no field. -/
def employee : Repository :=
  [.addComplexType ⟨"", "Party"⟩ true {},
    .addField ⟨33⟩ { Field.declare ⟨33⟩ "id" ⟨11⟩ .simple with isKey := true },
    .addField ⟨33⟩ (.declare ⟨33⟩ "name" ⟨11⟩ .simple),
    .addComplexType ⟨"", "Worker"⟩ true {},
    .addField ⟨34⟩ (.declare ⟨34⟩ "name" ⟨9⟩ .simple),
    .addComplexType ⟨"", "Person"⟩ true {},
    .addField ⟨35⟩ (.declare ⟨35⟩ "id" ⟨9⟩ .simple),
    .addField ⟨35⟩ (.declare ⟨35⟩ "age" ⟨9⟩ .simple),
    .registerKey ⟨35⟩ (.declare ⟨35⟩ "code" ⟨11⟩ .simple),
    .addSuperType ⟨35⟩ ⟨33⟩, .addSuperType ⟨35⟩ ⟨34⟩].foldl perform (Session.start {}).repository

theorem reachable_employee : employee.Reachable :=
  Reachable.foldl_perform (.start {}) (by simp)

theorem employee_freezes : (Edit.freeze ⟨35⟩).succeeds ⟨employee, []⟩ = true := by
  rw [employee, Session.repository_start]
  cbv

theorem freeze_isFlattened_employee : ∃ t m t', employee.complex? ⟨35⟩ = some t ∧
    t.isFrozen = false ∧ Edit.freeze ⟨35⟩ ⟨employee, []⟩ = .ok () m ∧
    m.repository.complex? ⟨35⟩ = some t' ∧
    m.repository.IsFlattened ⟨35⟩ t.instantiable t.shape
      (employee.keptSuperTypes t.instantiable t.shape.superTypes) t'.shape ∧
    t'.shape.fields.names = ["id", "name", "age", "code"] := by
  have fresh : (employee.complex? ⟨35⟩).any (fun t => !t.isFrozen) = true := by
    rw [employee, Session.repository_start]
    cbv
  have after : (((Edit.freeze ⟨35⟩).result? ⟨employee, []⟩).bind fun p =>
      (p.2.repository.complex? ⟨35⟩).map (·.shape.fields.names)) =
        some ["id", "name", "age", "code"] := by
    rw [employee, Session.repository_start]
    cbv
  obtain ⟨t, found, fresh⟩ := (Option.any_eq_true _ _).1 fresh
  obtain ⟨⟨⟩, m, run⟩ := Edit.exists_of_succeeds employee_freezes
  have fresh : t.isFrozen = false := by simpa using fresh
  obtain ⟨t', found', -, -, flat⟩ := reachable_employee.freeze_isFlattened found fresh run
  rw [Edit.result?_eq_some.2 run, Option.bind_some, found'] at after
  exact ⟨t, m, t', found, fresh, run, found', flat, Option.some.inj after⟩

/-! ### Own fields -/

/-- An own field that is no registered key keeps all that it declares, but becomes a key if one
of the super types has a key of its name. -/
theorem Reachable.freeze_ownField (h : r.Reachable) (found : r.complex? id = some t)
    (fresh : t.isFrozen = false) {f : Field} (own : t.ownField? name = some f)
    (unregistered : t.isKey name = false) {events : List Event} {m : Model}
    (run : Edit.freeze id ⟨r, events⟩ = .ok () m) :
    m.repository.ownField? id name = some
      { f with
        isFrozen := true
        isKey := m.repository.handsKey (r.keptSuperTypes t.instantiable t.shape.superTypes) name } ∧
    (m.repository.ownField? id name = some f.freeze ↔
      m.repository.handsKey (r.keptSuperTypes t.instantiable t.shape.superTypes) name = false) := by
  obtain ⟨⟨order, moment, found'⟩, kept, supers⟩ := h.exists_flattened found fresh run
  have registers : t.shape.RegistersKeys := (h.isSound id t found).registersKeys
  have unflagged : f.isKey = false := by
    refine Bool.eq_false_iff.2 fun key => ?_
    have registered : t.isKey name = true := List.contains_iff_mem.2 (registers name f own key)
    exact absurd (registered.symm.trans unregistered) (by simp)
  have final : m.repository.ownField? id name = some
      { f with
        isFrozen := true
        isKey := m.repository.handsKey
          (r.keptSuperTypes t.instantiable t.shape.superTypes) name } := by
    rw [ownField?, found', kept]
    exact find?_flatten_of_own registers (fun s mem => (supers s mem).2) own unregistered
  refine ⟨final, ?_⟩
  rw [final, Option.some.injEq, Field.freeze, ← unflagged]
  constructor
  · intro same
    exact congrArg Field.isKey same
  · intro same
    rw [same]

theorem freeze_ownField_employee : ∃ t f m, employee.complex? ⟨35⟩ = some t ∧
    t.isFrozen = false ∧ t.ownField? "age" = some f ∧ t.isKey "age" = false ∧
    Edit.freeze ⟨35⟩ ⟨employee, []⟩ = .ok () m ∧
    m.repository.ownField? ⟨35⟩ "age" = some
      { f with
        isFrozen := true
        isKey := m.repository.handsKey
          (employee.keptSuperTypes t.instantiable t.shape.superTypes) "age" } := by
  have declared : (employee.complex? ⟨35⟩).any (fun t =>
      !t.isFrozen && (t.ownField? "age").isSome && !t.isKey "age") = true := by
    rw [employee, Session.repository_start]
    cbv
  obtain ⟨t, found, declared⟩ := (Option.any_eq_true _ _).1 declared
  simp only [Bool.and_eq_true, Bool.not_eq_true'] at declared
  obtain ⟨⟨fresh, own⟩, unregistered⟩ := declared
  obtain ⟨f, own⟩ := Option.isSome_iff_exists.1 own
  obtain ⟨⟨⟩, m, run⟩ := Edit.exists_of_succeeds employee_freezes
  obtain ⟨final, -⟩ := reachable_employee.freeze_ownField found fresh own unregistered run
  exact ⟨t, f, m, found, fresh, own, unregistered, run, final⟩

/-- An own field that is no key may become one. -/
theorem not_freeze_ownField : ¬ ∀ (r : Repository) (id : TypeId) (t : ComplexType) (name : String)
    (f : Field) (events : List Event) (m : Model), r.Reachable → r.complex? id = some t →
    t.isFrozen = false → t.ownField? name = some f → t.isKey name = false →
    Edit.freeze id ⟨r, events⟩ = .ok () m → m.repository.ownField? id name = some f.freeze := by
  intro wins
  have declared : (employee.complex? ⟨35⟩).any (fun t => !t.isFrozen &&
      (t.ownField? "id").any (!·.isKey) && !t.isKey "id") = true := by
    rw [employee, Session.repository_start]
    cbv
  have after : (((Edit.freeze ⟨35⟩).result? ⟨employee, []⟩).bind fun p =>
      (p.2.repository.ownField? ⟨35⟩ "id").map (·.isKey)) = some true := by
    rw [employee, Session.repository_start]
    cbv
  obtain ⟨t, found, declared⟩ := (Option.any_eq_true _ _).1 declared
  simp only [Bool.and_eq_true, Bool.not_eq_true'] at declared
  obtain ⟨⟨fresh, own⟩, unregistered⟩ := declared
  obtain ⟨f, own, unflagged⟩ := (Option.any_eq_true _ _).1 own
  obtain ⟨⟨⟩, m, run⟩ := Edit.exists_of_succeeds employee_freezes
  rw [Edit.result?_eq_some.2 run, Option.bind_some,
    wins _ _ t "id" f [] m reachable_employee found fresh own unregistered run] at after
  have flagged : f.isKey = true := Option.some.inj after
  simp [flagged] at unflagged

end Repository

end EntityModel
