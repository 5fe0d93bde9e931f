/-
Repositories that differ in handles.

A repository is renumbered if its types are put under other handles, all of them ready to be
frozen.  Then the freeze of all types succeeds for both or for neither, and makes the same of
both, whatever the orders in which it goes through them.

* `FreezeRun.ok_iff_isAcyclic` — all that can fail is that a type extends itself;
* `Renumbers.isAcyclic_iff` — which it does under other handles too;
* `Renumbers.ownFields_eq` — what a type hands down is the same, by induction along the order;
* `Renumbers.sameModel` — and so is all else that is made of it.
-/
import EntityModel.Proofs.Freezable
import EntityModel.Proofs.Renumbering
import EntityModel.Proofs.Usages
import Mathlib.Logic.Equiv.Basic
import Mathlib.Logic.Relation

namespace EntityModel

/-- Two types have the same place in their models, if the renumbering leads from the handles of
the one model to those of the other: what is ordered has the same order. -/
structure ComplexType.SameModel (σ : TypeId → TypeId) (t t' : ComplexType) : Prop where
  qualifiedName : t'.qualifiedName = t.qualifiedName
  fields : t'.shape.fields.fields = t.shape.fields.fields.map (·.renumber σ)
  keyFields : t'.shape.keyFields.fields = t.shape.keyFields.fields.map (·.renumber σ)
  superTypes : t'.shape.superTypes = t.shape.superTypes.map σ
  usages : ∀ u, u ∈ t'.usages ↔ u ∈ t.usages.map σ
  subTypes : ∀ u, u ∈ t'.subTypes ↔ u ∈ t.subTypes.map σ
  directives : t'.directives = t.directives
  schematron : t'.schematron = t.schematron
  instantiable : t'.instantiable = t.instantiable
  labels : t'.labels = t.labels
  isFrozen : t'.isFrozen = t.isFrozen

/-- The second type is the first under other handles, and both are ready to be frozen. -/
inductive TypeNode.Renumbers (σ : TypeId → TypeId) : TypeNode → TypeNode → Prop
  | simple {t : SimpleType} (frozen : t.isFrozen = true) : Renumbers σ (.simple t) (.simple t)
  | complex {t : ComplexType} {declared : TypeShape} {usages : List TypeId}
      (building : t.lifecycle = .building declared) (fresh : t.subTypes = [])
      (used : ∀ u, u ∈ usages ↔ u ∈ t.usages.map σ) :
      Renumbers σ (.complex t)
        (.complex { t with lifecycle := .building (declared.renumber σ), usages })

namespace Repository

/-- The repository `r'` has the types of `r` under other handles, ready to be frozen. -/
def Renumbers (σ : TypeId ≃ TypeId) (r r' : Repository) : Prop :=
  ∀ u, Option.Rel (TypeNode.Renumbers σ) (r.get? u) (r'.get? (σ u))

/-- No type that is ready to be frozen extends itself, however far above. -/
def IsAcyclic (r : Repository) : Prop := ∀ u, ¬ Relation.TransGen r.Extends u u

end Repository

open Repository

variable {σ : TypeId ≃ TypeId} {r r' f f' : Repository} {order order' ids : List TypeId}
variable {u v : TypeId} {t : ComplexType}

/-! ### What the freeze of all types needs -/

/-- The freeze of all types that are being built succeeds if and only if none of them extends
itself. -/
theorem FreezeRun.ok_iff_isAcyclic {out : Except ModelError Unit}
    (run : FreezeRun ids r order out f) (idle : r.IsIdle)
    (simple : ∀ u t, r.get? u = some (.simple t) → t.isFrozen = true)
    (known : ∀ u, r.DeclaresKnown u) (there : ∀ u ∈ ids, (r.complex? u).isSome)
    (all : ∀ u t declared, r.get? u = some (.complex t) → t.lifecycle = .building declared →
      u ∈ ids) : out = .ok () ↔ r.IsAcyclic := by
  constructor
  · rintro rfl u round
    obtain ⟨E, done⟩ := run.evolves
    obtain ⟨v, super, -⟩ := Relation.TransGen.head'_iff.1 round
    obtain ⟨t, declared, found, building, -⟩ := super.exists_building
    exact E.not_transGen_self (done rfl u (all u t declared found building)) round
  · intro acyclic
    cases out with
    | ok _ => rfl
    | error e =>
      obtain ⟨id, mem, reached⟩ := run.blocked
      obtain ⟨t, found⟩ := Option.isSome_iff_exists.1 (there id mem)
      have blocked : r.Blocked [id] e := ⟨id, List.mem_cons_self, reached⟩
      cases blocked.refuses simple idle found with
      | @unknown u s t above found fresh mem absent =>
        cases lifecycle : t.lifecycle with
        | building declared =>
          rw [ComplexType.shape, lifecycle] at mem
          exact absurd absent (known u t declared (complex?_eq_some.1 found) lifecycle s mem)
        | freezing => exact absurd lifecycle (idle u t found)
        | frozen => simp [ComplexType.isFrozen, lifecycle, Lifecycle.isFrozen] at fresh
      | cyclic _ _ round => exact absurd round (acyclic _)

namespace Repository

namespace Renumbers

variable (M : Renumbers σ r r')

include M

/-- Whatever depends neither on the shape of a type nor on its usages is the same. -/
theorem map_eq {β : Type} (view : TypeNode → β)
    (blind : ∀ (t : ComplexType) lifecycle usages,
      view (.complex { t with lifecycle, usages }) = view (.complex t)) (u : TypeId) :
    (r'.get? (σ u)).map view = (r.get? u).map view := by
  have related := M u
  generalize r.get? u = before at related ⊢
  generalize r'.get? (σ u) = after at related ⊢
  cases related with
  | none => rfl
  | some h =>
    cases h with
    | simple => rfl
    | complex => exact congrArg some (blind _ _ _)

theorem instantiable (u : TypeId) :
    (r'.get? (σ u)).map (·.instantiable) = (r.get? u).map (·.instantiable) :=
  M.map_eq _ (fun _ _ _ => rfl) u

theorem nameOf? (u : TypeId) : r'.nameOf? (σ u) = r.nameOf? u := M.map_eq _ (fun _ _ _ => rfl) u

theorem isSome_complex? (u : TypeId) : (r'.complex? (σ u)).isSome = (r.complex? u).isSome := by
  have related := M u
  rw [complex?, complex?]
  generalize r.get? u = before at related ⊢
  generalize r'.get? (σ u) = after at related ⊢
  cases related with
  | none => rfl
  | some h => cases h <;> rfl

/-- The declared usages are the same. -/
theorem used_iff : (∃ s, r'.complex? (σ u) = some s ∧ σ v ∈ s.usages) ↔
    ∃ s, r.complex? u = some s ∧ v ∈ s.usages := by
  have related := M u
  rw [complex?, complex?]
  generalize r.get? u = before at related ⊢
  generalize r'.get? (σ u) = after at related ⊢
  cases related with
  | none => simp
  | some h =>
    cases h with
    | simple => simp
    | complex building fresh used => simp [used]

theorem keptBy (u : TypeId) : r'.keptBy (σ u) = (r.keptBy u).map σ := by
  have related := M u
  rw [Repository.keptBy, Repository.keptBy]
  generalize r.get? u = before at related ⊢
  generalize r'.get? (σ u) = after at related ⊢
  cases related with
  | none => rfl
  | some h =>
    cases h with
    | simple => rfl
    | complex building =>
      simp only [building]
      exact map_keptSuperTypes fun s _ => M.instantiable s

theorem extends_iff : r'.Extends (σ u) (σ v) ↔ r.Extends u v := by
  rw [Extends, Extends, M.keptBy, List.mem_map_of_injective σ.injective]

theorem isAcyclic_iff : r'.IsAcyclic ↔ r.IsAcyclic := by
  constructor
  · intro acyclic u round
    exact acyclic (σ u) (round.lift σ fun v w => M.extends_iff.2)
  · intro acyclic u round
    refine acyclic (σ.symm u) (round.lift σ.symm fun v w super => ?_)
    show r.Extends (σ.symm v) (σ.symm w)
    rwa [← M.extends_iff, σ.apply_symm_apply, σ.apply_symm_apply]

/-! ### What the freeze makes of them -/

section Frozen

variable (E : r.Evolves order f) (E' : r'.Evolves order' f')

include E E'

theorem instantiable_eq (u : TypeId) :
    (f'.get? (σ u)).map (·.instantiable) = (f.get? u).map (·.instantiable) := by
  rw [← E'.instantiable, ← E.instantiable, M.instantiable]

/-- A type that is not complex hands down nothing. -/
theorem ownFields_eq_of_none (absent : r.complex? u = none) :
    (f'.get? (σ u)).map (·.ownFields) = (f.get? u).map (·.ownFields.map (·.renumber σ)) := by
  have related := M u
  cases before : r.get? u with
  | none =>
    rw [before] at related
    generalize before' : r'.get? (σ u) = n' at related
    cases related
    rw [E.get?_none.2 before, E'.get?_none.2 before']
    rfl
  | some n =>
    rw [before] at related
    generalize before' : r'.get? (σ u) = n' at related
    cases related with
    | some h =>
      cases h with
      | simple =>
        obtain ⟨_, after, evolution⟩ := E.get? before
        obtain ⟨_, after', evolution'⟩ := E'.get? before'
        cases evolution
        cases evolution'
        rw [after, after']
        rfl
      | complex => simp [complex?, before] at absent

/-- A complex type and the one that it is renumbered to, before and after both are frozen. -/
theorem exists_flattened (found : r.complex? u = some t) (mem : u ∈ order) (mem' : σ u ∈ order') :
    ∃ declared usages moment moment', t.lifecycle = .building declared ∧
      (∀ u, u ∈ usages ↔ u ∈ t.usages.map σ) ∧ t.subTypes = [] ∧
      f.complex? u = some (f.flattened order moment u t declared) ∧
      f'.complex? (σ u) = some (f'.flattened order' moment' (σ u)
        { t with lifecycle := .building (declared.renumber σ), usages } (declared.renumber σ)) := by
  obtain ⟨t₁, declared, moment, found₁, building, after, -⟩ := E.flattened_of_mem mem
  cases (complex?_eq_some.1 found).symm.trans found₁
  obtain ⟨t', declared', moment', found', building', after', -⟩ := E'.flattened_of_mem mem'
  have related := M u
  rw [found₁, found'] at related
  cases related with
  | some h =>
    cases h with
    | complex same fresh used =>
      cases building.symm.trans same
      cases building'
      exact ⟨declared, _, moment, moment', building, used, fresh, complex?_eq_some.2 after,
        complex?_eq_some.2 after'⟩

variable (all : ∀ u t, r.complex? u = some t → u ∈ order ∧ σ u ∈ order')

include all

/-- What a type hands down is the same under other handles; the induction is on its place in the
order. -/
theorem ownFields_eq (u : TypeId) :
    (f'.get? (σ u)).map (·.ownFields) = (f.get? u).map (·.ownFields.map (·.renumber σ)) := by
  induction rank : order.idxOf u using Nat.strongRecOn generalizing u with
  | ind rank ih =>
    subst rank
    cases found : r.complex? u with
    | none => exact M.ownFields_eq_of_none E E' found
    | some t =>
      obtain ⟨mem, mem'⟩ := all u t found
      obtain ⟨declared, usages, moment, moment', building, -, -, after, after'⟩ :=
        M.exists_flattened E E' found mem mem'
      have flat : f'.flatten (σ u) t.instantiable (declared.renumber σ) =
          (f.flatten u t.instantiable declared).renumber σ := by
        refine renumber_flatten (fun s _ => M.instantiable_eq E E' s) fun s kept => ?_
        -- a complex super type comes earlier in the order
        cases super : r.complex? s with
        | none => exact M.ownFields_eq_of_none E E' super
        | some t' =>
          have extends' := E.mem_keptBy (complex?_eq_some.1 found) building kept
          exact ih _ (E.idxOf_lt mem (all s t' super).1 extends') s rfl
      rw [complex?_eq_some.1 after, complex?_eq_some.1 after']
      show some (f'.flatten (σ u) t.instantiable (declared.renumber σ)).fields.fields =
        some ((f.flatten u t.instantiable declared).fields.fields.map (·.renumber σ))
      rw [flat, TypeShape.renumber, FieldTable.fields_renumber]

theorem flatten_eq (u : TypeId) (b : Bool) (declared : TypeShape) :
    f'.flatten (σ u) b (declared.renumber σ) = (f.flatten u b declared).renumber σ :=
  renumber_flatten (fun s _ => M.instantiable_eq E E' s) fun s _ => M.ownFields_eq E E' all s

theorem complexSuperTypesOf_eq (u : TypeId) :
    f'.complexSuperTypesOf (σ u) = (f.complexSuperTypesOf u).map σ := by
  rw [complexSuperTypesOf_eq_getD, complexSuperTypesOf_eq_getD]
  cases found : r.complex? u with
  | none =>
    have absent := E.sameHeaders.complex u
    have absent' := E'.sameHeaders.complex (σ u)
    rw [M.isSome_complex?] at absent'
    simp only [found, Option.isSome_none, Option.isSome_eq_false_iff, Option.isNone_iff_eq_none]
      at absent absent'
    rw [absent, absent']
    rfl
  | some t =>
    obtain ⟨mem, mem'⟩ := all u t found
    obtain ⟨declared, usages, moment, moment', -, -, -, after, after'⟩ :=
      M.exists_flattened E E' found mem mem'
    rw [after, after']
    exact congrArg TypeShape.superTypes (M.flatten_eq E E' all u t.instantiable declared)

theorem inherits_iff : f'.Inherits (σ u) (σ v) ↔ f.Inherits u v := by
  rw [Inherits, Inherits, M.complexSuperTypesOf_eq E E' all, List.mem_map_of_injective σ.injective,
    E'.sameHeaders.complex, E.sameHeaders.complex, M.isSome_complex?]

theorem reflTransGen_inherits_iff :
    Relation.ReflTransGen f'.Inherits (σ u) (σ v) ↔ Relation.ReflTransGen f.Inherits u v := by
  constructor
  · intro path
    have back : ∀ a b, f'.Inherits a b → f.Inherits (σ.symm a) (σ.symm b) := by
      intro a b inherits
      rwa [← M.inherits_iff E E' all, σ.apply_symm_apply, σ.apply_symm_apply]
    have path : Relation.ReflTransGen f.Inherits (σ.symm (σ u)) (σ.symm (σ v)) :=
      path.lift σ.symm back
    rwa [σ.symm_apply_apply, σ.symm_apply_apply] at path
  · exact fun path => path.lift σ fun a b => (M.inherits_iff E E' all).2

theorem mem_order_iff (u : TypeId) : σ u ∈ order' ↔ u ∈ order := by
  have complex : ∀ r order f u, Evolves r order f → u ∈ order → (r.complex? u).isSome := by
    intro r order f u E mem
    obtain ⟨t, _, found, -⟩ := E.fresh u mem
    rw [complex?_eq_some.2 found]
    rfl
  constructor
  · intro mem
    have there := complex _ _ _ _ E' mem
    rw [M.isSome_complex?] at there
    obtain ⟨t, found⟩ := Option.isSome_iff_exists.1 there
    exact (all u t found).1
  · intro mem
    obtain ⟨t, found⟩ := Option.isSome_iff_exists.1 (complex _ _ _ _ E mem)
    exact (all u t found).2

omit E E' in
theorem mem_order_of_complex? {v : TypeId} {s : ComplexType} (there : r'.complex? v = some s) :
    v ∈ order' := by
  obtain ⟨v, rfl⟩ := σ.surjective v
  have complex := M.isSome_complex? v
  rw [there] at complex
  obtain ⟨s', there'⟩ := Option.isSome_iff_exists.1 complex.symm
  exact (all v s' there').2

/-- Under their other handles the same types use a type. -/
theorem mem_usages_iff {t' : ComplexType} (found : f.complex? u = some t)
    (found' : f'.complex? (σ u) = some t') (w : TypeId) : σ w ∈ t'.usages ↔ w ∈ t.usages := by
  have frozen' : ∀ v s, r'.complex? v = some s → v ∈ order' :=
    fun v s there => M.mem_order_of_complex? all there
  rw [E'.mem_usages_iff frozen' found', E.mem_usages_iff (fun v s there => (all v s there).1) found]
  constructor
  · rintro ⟨v, s, path, before, used⟩
    obtain ⟨v, rfl⟩ := σ.surjective v
    obtain ⟨s', before', used'⟩ := M.used_iff.1 ⟨s, before, used⟩
    exact ⟨v, s', (M.reflTransGen_inherits_iff E E' all).1 path, before', used'⟩
  · rintro ⟨v, s, path, before, used⟩
    obtain ⟨s', before', used'⟩ := M.used_iff.2 ⟨s, before, used⟩
    exact ⟨σ v, s', (M.reflTransGen_inherits_iff E E' all).2 path, before', used'⟩

theorem mem_joined_iff (w : TypeId) :
    σ w ∈ f'.joined order' (σ u) [] ↔ w ∈ f.joined order u [] := by
  rw [Evolves.mem_joined, Evolves.mem_joined, M.mem_order_iff E E' all,
    M.complexSuperTypesOf_eq E E' all, List.mem_map_of_injective σ.injective]
  simp only [List.not_mem_nil]

/-- Once all types are frozen, each complex type is the same under its other handle. -/
theorem sameModel (found : f.complex? u = some t) :
    ∃ t', f'.complex? (σ u) = some t' ∧ t.SameModel σ t' := by
  obtain ⟨t₀, found₀, -⟩ := E.exists_of_complex? found
  obtain ⟨mem, mem'⟩ := all u t₀ found₀
  obtain ⟨declared, usages, moment, moment', -, -, fresh, after, after'⟩ :=
    M.exists_flattened E E' found₀ mem mem'
  have flat := M.flatten_eq E E' all u t₀.instantiable declared
  refine ⟨_, after', ?_⟩
  obtain rfl := Option.some.inj (after.symm.trans found)
  constructor
  · rfl
  · exact (congrArg (fun s : TypeShape => s.fields.fields) flat).trans
      (FieldTable.fields_renumber ..)
  · exact (congrArg (fun s : TypeShape => s.keyFields.fields) flat).trans
      (FieldTable.fields_renumber ..)
  · exact congrArg TypeShape.superTypes flat
  · intro w
    obtain ⟨w, rfl⟩ := σ.surjective w
    rw [List.mem_map_of_injective σ.injective]
    exact M.mem_usages_iff E E' all after after' w
  · intro w
    obtain ⟨w, rfl⟩ := σ.surjective w
    rw [List.mem_map_of_injective σ.injective]
    show σ w ∈ f'.joined order' (σ u) t₀.subTypes ↔ w ∈ f.joined order u t₀.subTypes
    rw [fresh]
    exact M.mem_joined_iff E E' all w
  · rfl
  · rfl
  · rfl
  · rfl
  · rfl

end Frozen

end Renumbers

end Repository

end EntityModel
