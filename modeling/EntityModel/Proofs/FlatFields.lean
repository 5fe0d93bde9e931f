/-
The fields of a flattened type.

What a name means on a type that was frozen, as a function of what its super types are:

* `find?_addAll`, `find?_insertAll`, `find?_insertMissing` — tables filled with fields one by one;
* `find?_finish`, `find?_keyFields_finish` — a shape made final: a key that has no field
  becomes one, and a field that bears the name of a key is a key;
* `find?_flatten` — a type's own field comes first, then that of the last super type that
  has one, then a key.
-/
import EntityModel.Proofs.FreezeSteps
import EntityModel.Proofs.Resolving
import Mathlib.Data.List.Nodup

namespace EntityModel

namespace FieldTable

variable {t : FieldTable} {name : String} {f : Field}

theorem find?_eq_some_iff : t.find? name = some f ↔ f ∈ t.fields ∧ f.name = name := by
  constructor
  · intro found
    exact ⟨mem_of_find? found, name_of_find? found⟩
  · rintro ⟨mem, rfl⟩
    cases found : t.find? f.name with
    | none => exact absurd (mem_names.2 ⟨f, mem, rfl⟩) (find?_eq_none.1 found)
    | some g =>
      congr 1
      exact List.inj_on_of_nodup_map t.nodup_fields (mem_of_find? found) mem (name_of_find? found)

theorem mem_names_iff : name ∈ t.names ↔ (t.find? name).isSome := by
  rw [Option.isSome_iff_ne_none, ne_eq, find?_eq_none, not_not]

theorem find?_insertMissing (t other : FieldTable) (name : String) :
    (t.insertMissing other).find? name = (t.find? name).or (other.find? name) := by
  show (other.entries.foldl _ t).find? name =
    (t.find? name).or ((other.entries.find? (·.key == name)).map NamedField.field)
  generalize other.entries = l
  induction l generalizing t with
  | nil => simp
  | cons e rest ih =>
    rw [List.foldl_cons, ih]
    by_cases same : e.key = name
    · subst same
      rw [List.find?_cons_of_pos (by simp)]
      by_cases present : e.key ∈ t.names
      · obtain ⟨g, found⟩ := Option.isSome_iff_exists.1 (mem_names_iff.1 present)
        simp [present, found]
      · simp [present, find?_insert, find?_eq_none.2 present]
    · rw [List.find?_cons_of_neg (by simpa using same)]
      by_cases present : e.key ∈ t.names
      · rw [if_pos present]
      · rw [if_neg present, find?_insert, if_neg (Ne.symm same)]

/-- Fields with distinct names inserted into a table: they come first. -/
theorem find?_addAll (t : FieldTable) {l : List Field} (distinct : (l.map Field.name).Nodup)
    (name : String) :
    (t.addAll l).find? name = (l.find? (·.name == name)).or (t.find? name) := by
  induction l generalizing t with
  | nil => rfl
  | cons f rest ih =>
    rw [List.map_cons, List.nodup_cons] at distinct
    have step : t.addAll (f :: rest) = (t.add f).addAll rest := rfl
    rw [step, ih _ distinct.2, find?_add]
    by_cases same : f.name = name
    · subst same
      have none : rest.find? (·.name == f.name) = Option.none := by
        refine List.find?_eq_none.2 fun g hg same => distinct.1 ?_
        exact List.mem_map.2 ⟨g, hg, by simpa using same⟩
      rw [none, List.find?_cons_of_pos (by simp), if_pos rfl, Option.none_or, Option.some_or]
    · rw [List.find?_cons_of_neg (by simpa using same), if_neg (Ne.symm same)]

/-- The fields of a table as a list are found as in the table. -/
theorem find?_fields (t : FieldTable) (name : String) :
    t.fields.find? (·.name == name) = t.find? name := by
  rw [fields, List.find?_map, find?]
  congr 2
  funext e
  rw [Function.comp_apply, e.named]

/-- The entries of another table inserted: they come first. -/
theorem find?_insertAll (t other : FieldTable) (name : String) :
    (t.insertAll other).find? name = (other.find? name).or (t.find? name) := by
  rw [insertAll_eq, find?_addAll _ other.nodup_fields, find?_fields]

/-- Fields whose names are new go to the end. -/
theorem fields_addAll (t : FieldTable) {l : List Field}
    (distinct : (t.names ++ l.map Field.name).Nodup) : (t.addAll l).fields = t.fields ++ l := by
  induction l generalizing t with
  | nil => rw [List.append_nil]; rfl
  | cons f rest ih =>
    have fresh : f.name ∉ t.names := fun mem =>
      (List.nodup_append.1 distinct).2.2 f.name mem f.name (by simp) rfl
    have step : t.addAll (f :: rest) = (t.append f.name f rfl fresh).addAll rest := by
      show (t.add f).addAll rest = _
      rw [add, insert, dif_neg fresh]
    rw [step, ih, fields_append, List.append_assoc, List.singleton_append]
    simpa [append, names] using distinct

theorem addAll_empty (t : FieldTable) : (∅ : FieldTable).addAll t.fields = t :=
  ext_fields (fields_addAll ∅ t.nodup_fields)

/-- The fields of a table that satisfy a condition. -/
def filter (t : FieldTable) (p : Field → Bool) : FieldTable :=
  ⟨t.entries.filter fun e => p e.field, t.distinct.sublist (List.filter_sublist.map NamedField.key)⟩

theorem fields_filter (t : FieldTable) (p : Field → Bool) :
    (t.filter p).fields = t.fields.filter p := by
  rw [fields, fields, filter, List.filter_map]
  rfl

theorem find?_filter (t : FieldTable) (p : Field → Bool) (name : String) :
    (t.filter p).find? name = (t.find? name).filter p := by
  refine Option.ext fun f => ?_
  rw [find?_eq_some_iff, Option.filter_eq_some_iff, find?_eq_some_iff, fields_filter,
    List.mem_filter]
  exact and_right_comm

/-- The fields of a table owned by another type. -/
def adopt (t : FieldTable) (owner : TypeId) : FieldTable :=
  t.mapFields (·.adopt owner) fun f => Field.name_adopt f owner

theorem fields_adopt (t : FieldTable) (owner : TypeId) :
    (t.adopt owner).fields = t.fields.map (·.adopt owner) := fields_mapFields ..

theorem find?_adopt (t : FieldTable) (owner : TypeId) (name : String) :
    (t.adopt owner).find? name = (t.find? name).map (·.adopt owner) :=
  find?_mapFields ..

end FieldTable

/-! ### Shapes -/

namespace TypeShape

variable (s : TypeShape) (heir : TypeId) (t : FieldTable) (name : String)

theorem fields_inherit (l : List Field) :
    (s.inherit heir l).fields = s.fields.addAll (l.map (·.adopt heir)) := by
  induction l generalizing s with
  | nil => rfl
  | cons f rest ih => exact ih _

theorem keyFields_inherit (l : List Field) :
    (s.inherit heir l).keyFields =
      s.keyFields.addAll ((l.filter (·.isKey)).map (·.adopt heir)) := by
  induction l generalizing s with
  | nil => rfl
  | cons f rest ih =>
    refine (ih _).trans ?_
    cases key : f.isKey with
    | true =>
      rw [List.filter_cons_of_pos (by exact key), List.map_cons]
      simp only [Field.adopt, key, if_true]
      rfl
    | false =>
      rw [List.filter_cons_of_neg (by simp [key])]
      simp only [Field.adopt, key, Bool.false_eq_true, if_false]

/-- What a super type hands down comes before what is there. -/
theorem find?_inherit :
    (s.inherit heir t.fields).fields.find? name =
      ((t.find? name).map (·.adopt heir)).or (s.fields.find? name) := by
  rw [fields_inherit, ← FieldTable.fields_adopt, ← FieldTable.find?_adopt,
    ← FieldTable.insertAll_eq, FieldTable.find?_insertAll]

/-- The keys that a super type hands down are its fields that are keys. -/
theorem find?_keyFields_inherit :
    (s.inherit heir t.fields).keyFields.find? name =
      (((t.find? name).filter (·.isKey)).map (·.adopt heir)).or (s.keyFields.find? name) := by
  rw [keyFields_inherit, ← FieldTable.fields_filter, ← FieldTable.fields_adopt,
    ← FieldTable.find?_filter, ← FieldTable.find?_adopt, ← FieldTable.insertAll_eq,
    FieldTable.find?_insertAll]

theorem find?_finish :
    s.finish.fields.find? name =
      ((s.fields.find? name).or (s.keyFields.find? name)).map (settle s.keyFields) := by
  rw [finish, FieldTable.find?_mapFields, FieldTable.find?_insertMissing]

theorem find?_keyFields_finish :
    s.finish.keyFields.find? name =
      (s.keyFields.find? name).bind fun _ => s.finish.fields.find? name := by
  rw [find?_finish, finish, FieldTable.find?_mapEntries]
  cases found : s.keyFields.find? name with
  | none => rfl
  | some k =>
    have flat := find?_finish s name
    rw [found] at flat
    cases own : s.fields.find? name with
    | none =>
      rw [own] at flat
      exact congrArg some (congrArg (Option.getD · k) flat)
    | some f =>
      rw [own] at flat
      exact congrArg some (congrArg (Option.getD · k) flat)

end TypeShape

/-! ### Inherited fields -/

namespace Repository

variable (r : Repository) (id : TypeId) (instantiable : Bool) (s declared : TypeShape)
variable (name : String)

theorem find?_inheritFrom (superType : TypeId) :
    (r.inheritFrom id instantiable s superType).fields.find? name =
      ((r.ownField? superType name).map (·.adopt id)).or (s.fields.find? name) := by
  rw [inheritFrom, ownField?, complex?]
  cases r.get? superType with
  | none => rfl
  | some n =>
    cases n with
    | simple t => rfl
    | complex t => exact TypeShape.find?_inherit _ id t.shape.fields name

theorem find?_keyFields_inheritFrom (superType : TypeId) :
    (r.inheritFrom id instantiable s superType).keyFields.find? name =
      (((r.ownField? superType name).filter (·.isKey)).map (·.adopt id)).or
        (s.keyFields.find? name) := by
  rw [inheritFrom, ownField?, complex?]
  cases r.get? superType with
  | none => rfl
  | some n =>
    cases n with
    | simple t => rfl
    | complex t => exact TypeShape.find?_keyFields_inherit _ id t.shape.fields name

/-- Of several super types that have the field, the last one counts. -/
theorem find?_foldl_inheritFrom (superTypes : List TypeId) :
    (superTypes.foldl (r.inheritFrom id instantiable) s).fields.find? name =
      ((superTypes.reverse.findSome? (r.ownField? · name)).map (·.adopt id)).or
        (s.fields.find? name) := by
  induction superTypes generalizing s with
  | nil => rfl
  | cons v rest ih =>
    rw [List.foldl_cons, ih, find?_inheritFrom, List.reverse_cons, List.findSome?_append]
    cases rest.reverse.findSome? (r.ownField? · name) <;> simp

theorem find?_keyFields_foldl_inheritFrom (superTypes : List TypeId) :
    (superTypes.foldl (r.inheritFrom id instantiable) s).keyFields.find? name =
      ((superTypes.reverse.findSome? fun v =>
        (r.ownField? v name).filter (·.isKey)).map (·.adopt id)).or (s.keyFields.find? name) := by
  induction superTypes generalizing s with
  | nil => rfl
  | cons v rest ih =>
    rw [List.foldl_cons, ih, find?_keyFields_inheritFrom, List.reverse_cons,
      List.findSome?_append]
    cases rest.reverse.findSome? fun v => (r.ownField? v name).filter (·.isKey) <;> simp

/-- The shape that a type has before it is made final: what its super types hand down,
under its own fields. -/
def gathered : TypeShape :=
  let inherited := (r.keptSuperTypes instantiable declared.superTypes).foldl
    (r.inheritFrom id instantiable) { declared with fields := ∅, superTypes := [] }
  { inherited with fields := inherited.fields.insertAll declared.fields }

theorem find?_gathered :
    (r.gathered id instantiable declared).fields.find? name =
      (declared.fields.find? name).or
        (((r.keptSuperTypes instantiable declared.superTypes).reverse.findSome?
          (r.ownField? · name)).map (·.adopt id)) := by
  rw [gathered, FieldTable.find?_insertAll, find?_foldl_inheritFrom, FieldTable.find?_empty,
    Option.or_none]

theorem find?_keyFields_gathered :
    (r.gathered id instantiable declared).keyFields.find? name =
      (((r.keptSuperTypes instantiable declared.superTypes).reverse.findSome? fun v =>
        (r.ownField? v name).filter (·.isKey)).map (·.adopt id)).or
        (declared.keyFields.find? name) :=
  find?_keyFields_foldl_inheritFrom r id instantiable _ name _

/-- The shape of a frozen type is the gathered one made final. -/
theorem flatten_eq_finish :
    r.flatten id instantiable declared = (r.gathered id instantiable declared).finish := by
  rw [flatten]
  split
  · next none =>
    rw [List.isEmpty_iff] at none
    have same : r.gathered id instantiable declared = declared := by
      rw [gathered, none, keptSuperTypes, if_pos (by simp)]
      dsimp only [List.foldl_nil]
      rw [FieldTable.insertAll_eq, FieldTable.addAll_empty, ← none]
    rw [same]
  · rfl

/-- What a name means on a frozen type. -/
theorem find?_flatten :
    (r.flatten id instantiable declared).fields.find? name =
      (((declared.fields.find? name).or
        (((r.keptSuperTypes instantiable declared.superTypes).reverse.findSome?
          (r.ownField? · name)).map (·.adopt id))).or (declared.keyFields.find? name)).map
            (TypeShape.settle (r.gathered id instantiable declared).keyFields) := by
  rw [flatten_eq_finish, TypeShape.find?_finish, find?_gathered, find?_keyFields_gathered]
  congr 1
  -- a key that a super type hands down is a field that it hands down
  cases last : (r.keptSuperTypes instantiable declared.superTypes).reverse.findSome?
      (r.ownField? · name) with
  | some f => cases declared.fields.find? name <;> rfl
  | none =>
    have none : (r.keptSuperTypes instantiable declared.superTypes).reverse.findSome? (fun v =>
        (r.ownField? v name).filter (·.isKey)) = none := by
      refine List.findSome?_eq_none_iff.2 fun v hv => ?_
      rw [List.findSome?_eq_none_iff.1 last v hv]
      rfl
    rw [none]
    rfl

end Repository

end EntityModel
