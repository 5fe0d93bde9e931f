/-
What the shapes of types are made of.

What holds of all fields and keys that are declared holds of what a freeze makes of them, if it
does not depend on who owns a field and on whether it is settled (`Evolves.forall_shape`).

In a proper shape every field and every key has a name, and no super type is listed twice
(`TypeShape.IsProper`).  Only such shapes can be declared, so only such shapes come out of a
freeze, and all types that operations can lead to have one (`Reachable.isProper`).
-/
import EntityModel.Proofs.FlatFields
import EntityModel.Proofs.FreezeOrder

namespace EntityModel

/-- Every field and key has a name, and no super type is listed twice. -/
structure TypeShape.IsProper (s : TypeShape) : Prop where
  fields : "" ∉ s.fields.names
  keyFields : "" ∉ s.keyFields.names
  superTypes : s.superTypes.Nodup

/-- Every field and every key of the shape is as `Q` says. -/
def TypeShape.Forall (Q : Field → Prop) (s : TypeShape) : Prop :=
  (∀ f ∈ s.fields.fields, Q f) ∧ ∀ k ∈ s.keyFields.fields, Q k

theorem TypeShape.IsProper.forall {s : TypeShape} (h : s.IsProper) : s.Forall (·.name ≠ "") :=
  ⟨fun f mem unnamed => h.fields (FieldTable.mem_names.2 ⟨f, mem, unnamed⟩),
    fun k mem unnamed => h.keyFields (FieldTable.mem_names.2 ⟨k, mem, unnamed⟩)⟩

theorem TypeShape.isProper_of_forall {s : TypeShape} (named : s.Forall (·.name ≠ ""))
    (superTypes : s.superTypes.Nodup) : s.IsProper := by
  refine ⟨fun unnamed => ?_, fun unnamed => ?_, superTypes⟩
  · obtain ⟨f, mem, name⟩ := FieldTable.mem_names.1 unnamed
    exact named.1 f mem name
  · obtain ⟨k, mem, name⟩ := FieldTable.mem_names.1 unnamed
    exact named.2 k mem name

theorem nodup_appendNew {ids : List TypeId} (h : ids.Nodup) (id : TypeId) :
    (appendNew ids id).Nodup := by
  rw [appendNew]
  split
  · exact h
  · next fresh =>
    refine List.nodup_append.2 ⟨h, List.nodup_singleton id, fun v mem w new => ?_⟩
    rw [List.mem_singleton.1 new]
    exact ne_of_mem_of_not_mem mem fresh

/-! ### Declarations -/

namespace FieldTable

variable {t : FieldTable} {f : Field}

theorem not_mem_names_add (h : "" ∉ t.names) (named : f.name ≠ "") :
    "" ∉ (t.add f).names := by
  rw [names_add]
  split
  · exact h
  · rw [List.mem_append, List.mem_singleton]
    exact not_or.2 ⟨h, named.symm⟩

end FieldTable

theorem TypeShape.IsProper.grows {s s' : TypeShape} (h : s.IsProper) (grows : s.Grows s') :
    s'.IsProper := by
  cases grows with
  | field f named =>
    refine ⟨FieldTable.not_mem_names_add h.fields named, ?_, h.superTypes⟩
    show "" ∉ (if f.isKey then s.keyFields.add f else s.keyFields).names
    split
    · exact FieldTable.not_mem_names_add h.keyFields named
    · exact h.keyFields
  | key k named =>
    exact ⟨h.fields, FieldTable.not_mem_names_add h.keyFields named, h.superTypes⟩
  | superType id => exact ⟨h.fields, h.keyFields, nodup_appendNew h.superTypes id⟩

theorem ComplexType.Change.isProper {t t' : ComplexType} (change : t.Change t')
    (h : t.shape.IsProper) : t'.shape.IsProper := by
  cases change.effect with
  | declares building grows =>
    rw [shape, building] at h
    exact TypeShape.IsProper.grows h grows
  | keeps name lifecycle frozen =>
    rw [shape, lifecycle]
    exact h

/-! ### Freezes -/

namespace Repository

variable {r r' : Repository} {id u : TypeId} {instantiable : Bool} {declared : TypeShape}
variable {name : String}

section Forall

variable {Q : Field → Prop} (adopt : ∀ f owner, Q f → Q (f.adopt owner))
variable (settle : ∀ keys f, Q f → Q (TypeShape.settle keys f))

include adopt settle

/-- What holds of all that is declared and of all that kept super types hand down holds of all
that a flattened type has. -/
theorem forall_flatten (own : declared.Forall Q)
    (supers : ∀ s ∈ r.keptSuperTypes instantiable declared.superTypes,
      ∀ name f, r.ownField? s name = some f → Q f) :
    (r.flatten id instantiable declared).Forall Q := by
  have fields : ∀ name f,
      (r.flatten id instantiable declared).fields.find? name = some f → Q f := by
    intro name f found
    rw [find?_flatten] at found
    obtain ⟨g, origin, rfl⟩ := Option.map_eq_some_iff.1 found
    refine settle _ g ?_
    rcases Option.or_eq_some_iff.1 origin with origin | ⟨-, key⟩
    · rcases Option.or_eq_some_iff.1 origin with field | ⟨-, inherited⟩
      · exact own.1 g (FieldTable.mem_of_find? field)
      · obtain ⟨f, handed, rfl⟩ := Option.map_eq_some_iff.1 inherited
        obtain ⟨s, mem, field⟩ := List.exists_of_findSome?_eq_some handed
        exact adopt f id (supers s (List.mem_reverse.1 mem) name f field)
    · exact own.2 g (FieldTable.mem_of_find? key)
  refine ⟨fun f mem => fields f.name f (FieldTable.find?_eq_some_iff.2 ⟨mem, rfl⟩), ?_⟩
  intro k mem
  -- every key is one of the fields
  have found := FieldTable.find?_eq_some_iff.2 ⟨mem, rfl⟩
  rw [flatten_eq_finish, TypeShape.find?_keyFields_finish] at found
  obtain ⟨-, -, field⟩ := Option.bind_eq_some_iff.1 found
  rw [← flatten_eq_finish] at field
  exact fields k.name k field

end Forall

theorem superTypes_flatten_sublist :
    (r.flatten id instantiable declared).superTypes.Sublist declared.superTypes := by
  rw [superTypes_flatten]
  refine List.filter_sublist.trans ?_
  rw [keptSuperTypes]
  split
  · exact List.Sublist.refl _
  · exact List.filter_sublist

/-- The shapes of all complex types are proper. -/
def IsProper (r : Repository) : Prop := ∀ id t, r.complex? id = some t → t.shape.IsProper

/-- What is not flattened keeps its shape. -/
theorem Evolution.shape_of_not_mem {order : List TypeId} {t t' : ComplexType}
    (h : Evolution r order u (.complex t) (.complex t')) (out : u ∉ order) :
    t'.shape = t.shape := by
  cases h with
  | untouched => rfl
  | extended => rfl
  | flattened _ _ mem => exact absurd mem out

/-- What holds of all fields and keys before a freeze holds of them afterwards; the induction is
on the place in the order. -/
theorem Evolves.forall_shape {Q : Field → Prop} (adopt : ∀ f owner, Q f → Q (f.adopt owner))
    (settle : ∀ keys f, Q f → Q (TypeShape.settle keys f)) {order : List TypeId} {t' : ComplexType}
    (E : r.Evolves order r') (h : ∀ id t, r.complex? id = some t → t.shape.Forall Q)
    (found' : r'.complex? u = some t') : t'.shape.Forall Q := by
  induction rank : order.idxOf u using Nat.strongRecOn generalizing u t' with
  | ind rank ih =>
    subst rank
    obtain ⟨t, found, evolution⟩ := E.exists_of_complex? found'
    cases evolution with
    | untouched => exact h u _ found
    | extended => exact (h u _ found :)
    | flattened moment building mem supers =>
      have own := h u _ found
      rw [ComplexType.shape, building] at own
      refine (forall_flatten adopt settle own fun s kept name f handed => ?_ :)
      obtain ⟨v, found'', field⟩ := Option.bind_eq_some_iff.1 handed
      refine (?_ : v.shape.Forall Q).1 f (FieldTable.mem_of_find? field)
      -- a super type comes earlier, unless it is not flattened at all
      by_cases earlier : s ∈ order
      · refine ih _ (E.idxOf_lt mem earlier ?_) found'' rfl
        rw [Repository.keptBy, complex?_eq_some.1 found]
        simp only [building]
        rwa [E.preserves.keptSuperTypes]
      · obtain ⟨v₀, before, evolution⟩ := E.exists_of_complex? found''
        rw [evolution.shape_of_not_mem earlier]
        exact h s v₀ before

theorem Evolves.isProper {order : List TypeId} (E : r.Evolves order r') (h : r.IsProper) :
    r'.IsProper := by
  have settle : ∀ keys f, f.name ≠ "" → (TypeShape.settle keys f).name ≠ "" := fun keys f named =>
    by rwa [TypeShape.name_settle]
  have named : ∀ u t', r'.complex? u = some t' → t'.shape.Forall (·.name ≠ "") := fun u t' =>
    E.forall_shape (fun _ _ => id) settle fun id t found => (h id t found).forall
  intro u t' found'
  refine TypeShape.isProper_of_forall (named u t' found') ?_
  obtain ⟨t, found, evolution⟩ := E.exists_of_complex? found'
  have proper := h u t found
  cases evolution with
  | untouched => exact proper.superTypes
  | extended => exact proper.superTypes
  | flattened moment building mem supers =>
    rw [ComplexType.shape, building] at proper
    exact proper.superTypes.sublist superTypes_flatten_sublist

/-! ### Every step keeps shapes proper -/

theorem Step.isProper {G : TypeNode → Prop} (step : Step G r r')
    (given : ∀ t, G (.complex t) → t.shape.IsProper) (h : r.IsProper) : r'.IsProper := by
  intro id t' found'
  cases step.origin found' with
  | same found => exact h id t' found
  | registered registers => exact given t' registers
  | copied _ _ same =>
    rw [same]
    exact ⟨List.not_mem_nil, List.not_mem_nil, List.nodup_nil⟩
  | changed found change => exact change.isProper (h id _ found)
  | renamed name found ok =>
    obtain ⟨-, rfl⟩ := ComplexType.rename_eq_ok ok
    exact (h id _ found :)
  | evolved _ E _ => exact E.isProper h id t' found'

theorem Reachable.isProper (h : r.Reachable) : r.IsProper := by
  refine h.forall_complex (fun a name b => ?_) (fun change => change.isProper) fun step => ?_
  · exact ⟨List.not_mem_nil, List.not_mem_nil, List.nodup_nil⟩
  · exact step.isProper fun t given => given t rfl

end Repository

end EntityModel
