/-
Types under other handles.

The place of a type in its repository is a matter of when it was added, and what is computed of a
type does not depend on it.  A renumbering replaces every handle by another:

* `TypeShape.renumber_inherit`, `TypeShape.renumber_finish` — shapes are put together alike;
* `Repository.renumber_flatten` — so a declared shape is flattened alike, if what it inherits is;
* `Repository.HeadersVia` — names that lead to the same types under other handles;
* `TypeEntry.renumber_shapeIn` — an entry declares the same shape where they do.
-/
import EntityModel.Proofs.DeclaredModels
import EntityModel.Proofs.FieldOrder

namespace EntityModel

/-! ### Fields and tables -/

section Renumber

variable (σ : TypeId → TypeId)

/-- What a field holds, with the type that it refers to under another handle. -/
def FieldKind.renumber : FieldKind → FieldKind
  | .reference info => .reference { info with target := σ info.target }
  | kind => kind

/-- The field with the types that it mentions under other handles. -/
def Field.renumber (f : Field) : Field :=
  { f with
    valueType := σ f.valueType
    containingType := σ f.containingType
    declaringType := σ f.declaringType
    kind := f.kind.renumber σ }

/-- The field reference with the types that it mentions under other handles. -/
def FieldRef.renumber : FieldRef → FieldRef
  | .field f => .field (f.renumber σ)
  | .path p => .path p

/-- The table with the types that it mentions under other handles. -/
def FieldTable.renumber (t : FieldTable) : FieldTable := t.mapFields (·.renumber σ) fun _ => rfl

/-- The shape with the types that it mentions under other handles. -/
def TypeShape.renumber (s : TypeShape) : TypeShape where
  fields := s.fields.renumber σ
  keyFields := s.keyFields.renumber σ
  superTypes := s.superTypes.map σ
  primaryKeyInfo := s.primaryKeyInfo.map (·.renumber σ)
  lookupFields := s.lookupFields.map (·.renumber σ)

end Renumber

variable {σ : TypeId → TypeId}

theorem map_foldl_appendNew (injective : Function.Injective σ) (l ids : List TypeId) :
    (l.foldl appendNew ids).map σ = (l.map σ).foldl appendNew (ids.map σ) := by
  induction l generalizing ids with
  | nil => rfl
  | cons id rest ih =>
    have step : (appendNew ids id).map σ = appendNew (ids.map σ) (σ id) := by
      simp only [appendNew, List.mem_map_of_injective injective]
      split
      · rfl
      · rw [List.map_append, List.map_singleton]
    rw [List.foldl_cons, ih, step, List.map_cons, List.foldl_cons]

theorem filter_isKey_renumber (l : List Field) :
    (l.map (·.renumber σ)).filter (·.isKey) = (l.filter (·.isKey)).map (·.renumber σ) := by
  rw [List.filter_map]
  rfl

namespace FieldTable

variable (t : FieldTable)

theorem fields_renumber : (t.renumber σ).fields = t.fields.map (·.renumber σ) :=
  fields_mapFields ..

@[simp] theorem names_renumber : (t.renumber σ).names = t.names := names_mapFields ..

@[simp] theorem find?_renumber (name : String) :
    (t.renumber σ).find? name = (t.find? name).map (·.renumber σ) := find?_mapFields ..

theorem renumber_add (f : Field) : (t.add f).renumber σ = (t.renumber σ).add (f.renumber σ) := by
  refine ext_find? ?_ fun name => ?_
  · rw [names_renumber, names_add, names_add, names_renumber]
    rfl
  · rw [find?_renumber, find?_add, find?_add, find?_renumber]
    exact apply_ite (Option.map (·.renumber σ)) (name = f.name) (some f) (t.find? name)

theorem renumber_addAll (l : List Field) :
    (t.addAll l).renumber σ = (t.renumber σ).addAll (l.map (·.renumber σ)) := by
  induction l generalizing t with
  | nil => rfl
  | cons f rest ih =>
    have step : t.addAll (f :: rest) = (t.add f).addAll rest := rfl
    rw [step, ih, renumber_add]
    rfl

theorem renumber_insertAll (other : FieldTable) :
    (t.insertAll other).renumber σ = (t.renumber σ).insertAll (other.renumber σ) := by
  rw [insertAll_eq, insertAll_eq, renumber_addAll, fields_renumber]

end FieldTable

/-! ### Shapes -/

namespace TypeShape

variable (s : TypeShape)

theorem renumber_inherit (heir : TypeId) (l : List Field) :
    (s.inherit heir l).renumber σ =
      (s.renumber σ).inherit (σ heir) (l.map (·.renumber σ)) := by
  have adopted : ∀ l : List Field, (l.map (·.adopt heir)).map (·.renumber σ) =
      (l.map (·.renumber σ)).map (·.adopt (σ heir)) := by
    intro l
    rw [List.map_map, List.map_map]
    rfl
  rw [inherit_eq, inherit_eq (s.renumber σ)]
  simp only [renumber, fields_inherit, keyFields_inherit, FieldTable.renumber_addAll, adopted,
    filter_isKey_renumber]

theorem renumber_settle (keys : FieldTable) (f : Field) :
    (settle keys f).renumber σ = settle (keys.renumber σ) (f.renumber σ) := by
  rw [settle, settle, FieldTable.names_renumber]
  exact apply_ite (Field.renumber σ) (f.name ∈ keys.names) f.freeze.promote f.freeze

theorem renumber_finish : s.finish.renumber σ = (s.renumber σ).finish := by
  have fields : s.finish.fields.renumber σ = (s.renumber σ).finish.fields := by
    refine FieldTable.ext_find? ?_ fun name => ?_
    · rw [FieldTable.names_renumber, names_finish, names_finish]
      simp only [renumber, FieldTable.names_renumber]
    · rw [FieldTable.find?_renumber, find?_finish, find?_finish]
      simp only [renumber, FieldTable.find?_renumber, ← Option.map_or, Option.map_map]
      congr 1
      funext f
      exact renumber_settle s.keyFields f
  have keyFields : s.finish.keyFields.renumber σ = (s.renumber σ).finish.keyFields := by
    refine FieldTable.ext_find? ?_ fun name => ?_
    · rw [FieldTable.names_renumber, finish, finish, FieldTable.names_mapEntries,
        FieldTable.names_mapEntries]
      exact (FieldTable.names_renumber s.keyFields).symm
    · rw [FieldTable.find?_renumber, find?_keyFields_finish, find?_keyFields_finish, ← fields,
        FieldTable.find?_renumber]
      simp only [renumber, FieldTable.find?_renumber]
      cases s.keyFields.find? name <;> rfl
  show (⟨s.finish.fields.renumber σ, s.finish.keyFields.renumber σ, _, _, _⟩ : TypeShape) = _
  rw [fields, keyFields]
  rfl

end TypeShape

/-! ### Flattened shapes -/

namespace Repository

variable {r r' : Repository} {id : TypeId} {b : Bool} {declared : TypeShape}

theorem map_keptSuperTypes {superTypes : List TypeId}
    (instantiable : ∀ s ∈ superTypes,
      (r'.get? (σ s)).map (·.instantiable) = (r.get? s).map (·.instantiable)) :
    r'.keptSuperTypes b (superTypes.map σ) = (r.keptSuperTypes b superTypes).map σ := by
  rw [keptSuperTypes, keptSuperTypes, List.length_map]
  split
  · rfl
  · rw [List.filter_map]
    congr 1
    refine List.filter_congr fun s mem => ?_
    have same := congrArg (Option.any (· = b)) (instantiable s mem)
    rw [Option.any_map, Option.any_map] at same
    exact same

theorem renumber_inheritFrom (id : TypeId) (b : Bool) (s : TypeShape) {v : TypeId}
    (instantiable : (r'.get? (σ v)).map (·.instantiable) = (r.get? v).map (·.instantiable))
    (fields : (r'.get? (σ v)).map (·.ownFields) =
      (r.get? v).map (·.ownFields.map (·.renumber σ))) :
    (r.inheritFrom id b s v).renumber σ = r'.inheritFrom (σ id) b (s.renumber σ) (σ v) := by
  rw [inheritFrom, inheritFrom]
  generalize r.get? v = before at instantiable fields ⊢
  generalize r'.get? (σ v) = after at instantiable fields ⊢
  cases before with
  | none =>
    obtain rfl := Option.map_eq_none_iff.1 fields
    rfl
  | some n =>
    obtain ⟨n', rfl, own⟩ := Option.map_eq_some_iff.1 fields
    have same : n'.instantiable = n.instantiable := Option.some.inj instantiable
    have supers : (if n.instantiable = b then s.superTypes ++ [v] else s.superTypes).map σ =
        if n.instantiable = b then s.superTypes.map σ ++ [σ v] else s.superTypes.map σ := by
      split
      · rw [List.map_append, List.map_singleton]
      · rfl
    dsimp only
    rw [own, same, TypeShape.renumber_inherit]
    simp only [TypeShape.renumber, supers]

/-- A declared shape is flattened alike if what it inherits is alike. -/
theorem renumber_flatten
    (instantiable : ∀ s ∈ declared.superTypes,
      (r'.get? (σ s)).map (·.instantiable) = (r.get? s).map (·.instantiable))
    (fields : ∀ s ∈ r.keptSuperTypes b declared.superTypes,
      (r'.get? (σ s)).map (·.ownFields) = (r.get? s).map (·.ownFields.map (·.renumber σ))) :
    r'.flatten (σ id) b (declared.renumber σ) = (r.flatten id b declared).renumber σ := by
  have inherited : ∀ (l : List TypeId) (s : TypeShape),
      (∀ v ∈ l, v ∈ r.keptSuperTypes b declared.superTypes) →
      (l.foldl (r.inheritFrom id b) s).renumber σ =
        (l.map σ).foldl (r'.inheritFrom (σ id) b) (s.renumber σ) := by
    intro l
    induction l with
    | nil => exact fun s _ => rfl
    | cons v rest ih =>
      intro s sub
      have kept := sub v List.mem_cons_self
      have here := renumber_inheritFrom id b s
        (instantiable v (mem_keptSuperTypes kept)) (fields v kept)
      rw [List.foldl_cons, List.map_cons, List.foldl_cons, ← here]
      exact ih _ fun w mem => sub w (List.mem_cons_of_mem v mem)
  have gathered : r'.gathered (σ id) b (declared.renumber σ) =
      (r.gathered id b declared).renumber σ := by
    have own : ∀ s : TypeShape,
        TypeShape.renumber σ { s with fields := s.fields.insertAll declared.fields } =
          { s.renumber σ with
            fields := (s.renumber σ).fields.insertAll (declared.renumber σ).fields } := by
      intro s
      simp only [TypeShape.renumber, FieldTable.renumber_insertAll]
    have all := inherited (r.keptSuperTypes b declared.superTypes)
      { declared with fields := ∅, superTypes := [] } fun v mem => mem
    rw [← map_keptSuperTypes instantiable] at all
    refine Eq.trans ?_ (own _).symm
    rw [all]
    rfl
  rw [flatten_eq_finish, flatten_eq_finish, gathered, TypeShape.renumber_finish]

/-! ### Where names lead -/

/-- Under other handles, names lead to the same types and the same types are complex. -/
structure HeadersVia (σ : TypeId → TypeId) (r r' : Repository) : Prop where
  names : ∀ name, r'.names.find? name = (r.names.find? name).map σ
  builtinNamespace : r'.builtinNamespace = r.builtinNamespace
  complex : ∀ u, (r'.complex? (σ u)).isSome = (r.complex? u).isSome

theorem HeadersVia.named? (h : HeadersVia σ r r') (ns name : String) :
    r'.named? ns name = (r.named? ns name).map σ := by
  rw [Repository.named?, Repository.named?, lookup, lookup, h.names, h.names, h.builtinNamespace,
    ← Option.map_or]
  rfl

end Repository

/-! ### What entries declare -/

open Repository

section Entries

variable {r r' : Repository} (h : HeadersVia σ r r') (ns : String)

include h

theorem FieldEntry.renumber_kind? (e : FieldEntry) (valueType : TypeId) :
    e.kind? r' ns (σ valueType) = (e.kind? r ns valueType).map (·.renumber σ) := by
  rw [kind?, kind?]
  cases e.reference with
  | none =>
    dsimp only
    rw [h.complex, Option.map_some]
    cases (r.complex? valueType).isSome <;> cases e.enumeration <;> rfl
  | some reference =>
    dsimp only
    rw [h.named?, Option.map_map, Option.map_map]
    rfl

theorem FieldEntry.renumber_declared? (e : FieldEntry) (id : TypeId) :
    e.declared? r' ns (σ id) = (e.declared? r ns id).map (·.renumber σ) := by
  rw [declared?, declared?]
  split
  · rfl
  · rw [h.named?]
    cases r.named? ns e.type with
    | none => rfl
    | some valueType =>
      simp only [Option.map_some, Option.bind_some, e.renumber_kind? h, Option.map_map]
      rfl

variable (injective : Function.Injective σ)

include injective

/-- An entry declares the same shape under other handles. -/
theorem TypeEntry.renumber_shapeIn (e : TypeEntry) (id : TypeId) :
    e.shapeIn r' ns (σ id) = (e.shapeIn r ns id).renumber σ := by
  have fields : e.fields.filterMap (·.declared? r' ns (σ id)) =
      (e.fields.filterMap (·.declared? r ns id)).map (·.renumber σ) := by
    simp only [FieldEntry.renumber_declared? h, List.map_filterMap]
  have superTypes : e.superTypes.filterMap (r'.named? ns) =
      (e.superTypes.filterMap (r.named? ns)).map σ := by
    simp only [h.named?, List.map_filterMap]
  have paths : ∀ l : List String, (l.map FieldRef.path).map (·.renumber σ) = l.map .path := by
    intro l
    rw [List.map_map]
    rfl
  simp only [shapeIn, fields, superTypes, filter_isKey_renumber, TypeShape.renumber,
    FieldTable.renumber_addAll, map_foldl_appendNew injective, paths]
  rfl

end Entries

end EntityModel
