/-
Subtypes are the converse of super types.

Unless types are copied or subtypes are set, only a freeze says which types extend which, and
tells both sides of it.  A type that was frozen before it is registered has super types that are
not told, and one that lists subtypes when it is registered need not be extended by them.  In
runs without all that (`Operation.isStraight`), a type lists exactly the frozen types that have it
as a super type:

* `PlainStep.listsHeirs` — what is listed is frozen and extends the type that lists it;
* `mem_complexSubTypesOf_of_inherits` — a frozen type is listed by what it extends;
* `Run.mem_subTypes_iff` — so the subtypes of a type are the frozen types that inherit from it at
  any depth, each listed once, and the type is not among them.
-/
import EntityModel.Proofs.Acyclicity
import EntityModel.Proofs.DeepCopy
import EntityModel.Proofs.Registrations

namespace EntityModel

namespace Operation

/-- The operation sets the subtypes of a type, or registers a type that lists some. -/
def setsSubTypes : Operation → Bool
  | .setSubTypes _ _ => true
  | .register (.complex t) => !t.subTypes.isEmpty
  | _ => false

theorem Registers.subTypes_eq_nil {operation : Operation} {t : ComplexType}
    (h : operation.Registers (.complex t)) (unset : operation.setsSubTypes = false) :
    t.subTypes = [] := by
  cases h with
  | given => simpa [setsSubTypes] using unset
  | declared => rfl

/-- The operation makes no copy, sets no subtypes, and registers neither a type that lists some
nor a frozen type with super types. -/
def isStraight (operation : Operation) : Bool :=
  operation.isPlain && !operation.setsSubTypes && !operation.registersHeir

theorem isStraight_eq_true {operation : Operation} : operation.isStraight = true ↔
    operation.isPlain = true ∧ operation.setsSubTypes = false ∧
      operation.registersHeir = false := by
  simp [isStraight, and_assoc]

end Operation

namespace Repository

variable {G : TypeNode → Prop} {r r' : Repository} {id u v : TypeId} {t : ComplexType}

/-- Every type that is listed as a subtype is frozen and extends the type that lists it. -/
def ListsHeirs (r : Repository) : Prop :=
  ∀ id t, r.complex? id = some t → ∀ u ∈ t.subTypes,
    ∃ t', r.complex? u = some t' ∧ t'.isFrozen = true ∧ id ∈ t'.shape.superTypes

/-- What was listed before a step still extends the type. -/
theorem ListsHeirs.keep (h : r.ListsHeirs) (step : Step G r r') (found : r.complex? id = some t)
    (listed : u ∈ t.subTypes) :
    ∃ t', r'.complex? u = some t' ∧ t'.isFrozen = true ∧ id ∈ t'.shape.superTypes := by
  obtain ⟨t₁, before, frozen, super⟩ := h id t found u listed
  obtain ⟨t', after, frozen', shape⟩ := step.complex?_of_isFrozen before frozen
  exact ⟨t', after, frozen', by rwa [shape]⟩

theorem PlainStep.listsHeirs (step : PlainStep G r r')
    (bare : ∀ t, G (.complex t) → t.subTypes = []) (h : r.ListsHeirs) : r'.ListsHeirs := by
  have whole : Step G r r' := .alter step.alteration
  intro id t' found' u listed
  cases step with
  | register given ok =>
    obtain ⟨-, rfl⟩ := register_eq_ok ok
    rcases complex?_push r id _ found' with ⟨-, same⟩ | found
    · subst same
      rw [bare t' given] at listed
      cases listed
    · exact h.keep whole found listed
  | change found _ subTypes =>
    rcases complex?_set r _ id _ found' with ⟨rfl, same, -⟩ | ⟨-, found⟩
    · rw [← TypeNode.complex.inj same, subTypes] at listed
      exact h.keep whole found listed
    · exact h.keep whole found listed
  | restrict =>
    rcases complex?_set r _ id _ found' with ⟨-, same, -⟩ | ⟨-, found⟩
    · cases same
    · exact h.keep whole found listed
  | freeze run =>
    have E := run.evolves.1
    obtain ⟨t, found, old | ⟨mem, super⟩⟩ := E.mem_subTypes_cases found' listed
    · exact h.keep whole found old
    · -- what the freeze adds to the list it has just frozen
      obtain ⟨t₀, declared, moment, -, -, after, -⟩ := E.flattened_of_mem mem
      have after := complex?_eq_some.2 after
      exact ⟨_, after, rfl, (mem_complexSuperTypesOf after).1 super⟩

theorem ListsHeirs.rename {name : String} (h : r.ListsHeirs) (ok : r.rename id name = .ok r') :
    r'.ListsHeirs := by
  have whole : Step (fun _ => False) r r' := .rename id name ok
  obtain ⟨t, t', found, renamed, rfl⟩ := rename_eq_ok ok
  intro u t₁ found₁ w listed
  rcases complex?_set r _ u _ found₁ with ⟨rfl, same, -⟩ | ⟨-, found₁⟩
  · obtain ⟨-, rfl⟩ := ComplexType.rename_eq_ok renamed
    rw [← TypeNode.complex.inj same] at listed
    exact h.keep whole found listed
  · exact h.keep whole found₁ listed

/-- A frozen type is listed by what it inherits from. -/
theorem ListsFrozen.mem_complexSubTypesOf_of_inherits (lists : r.ListsFrozen)
    (found : r.complex? u = some t) (frozen : t.isFrozen = true) (h : r.Inherits u v) :
    u ∈ r.complexSubTypesOf v := by
  obtain ⟨t₁, t', found₁, found', super⟩ := h.exists_superType
  obtain rfl := Option.some.inj (found.symm.trans found₁)
  refine mem_complexSubTypesOf.2 ⟨?_, by rw [found]; rfl⟩
  exact (mem_declaredSubTypesOf found').2 (lists u t found frozen v super t' found')

/-- What is listed inherits from the type that lists it. -/
theorem ListsHeirs.inherits (h : r.ListsHeirs) (listed : u ∈ r.complexSubTypesOf v) :
    r.isFrozen u = true ∧ r.Inherits u v := by
  obtain ⟨declared, -⟩ := mem_complexSubTypesOf.1 listed
  cases found : r.complex? v with
  | none => simp [declaredSubTypesOf, found] at declared
  | some t =>
    obtain ⟨t', found', frozen, super⟩ := h v t found u ((mem_declaredSubTypesOf found).1 declared)
    refine ⟨(isFrozen_of_get? (complex?_eq_some.1 found')).trans frozen, ?_, by rw [found]; rfl⟩
    exact (mem_complexSuperTypesOf found').2 super

/-! ### What the search lists -/

theorem ListsHeirs.of_mem_subTypes (h : r.ListsHeirs) (mem : u ∈ r.subTypes id) :
    r.isFrozen u = true ∧ Relation.TransGen r.Inherits u id := by
  refine forall_mem_visit
    (C := fun u => r.isFrozen u = true ∧ Relation.TransGen r.Inherits u id) ?_ ?_ u mem
  · intro x listed
    exact ⟨(h.inherits listed).1, .single (h.inherits listed).2⟩
  · intro x _ below y listed
    exact ⟨(h.inherits listed).1, .head (h.inherits listed).2 below.2⟩

theorem ListsFrozen.mem_subTypes_of_transGen (lists : r.ListsFrozen) (closed : r.IsClosed)
    (grounded : r.IsGrounded) (found : r.complex? u = some t) (frozen : t.isFrozen = true)
    (path : Relation.TransGen r.Inherits u id) : u ∈ r.subTypes id := by
  induction path using Relation.TransGen.head_induction_on generalizing t with
  | @single u inherits =>
    have listed := lists.mem_complexSubTypesOf_of_inherits found frozen inherits
    refine (mem_visit_of_mem listed).resolve_left fun root => ?_
    obtain rfl := List.mem_singleton.1 root
    exact (grounded u t found frozen).not_transGen (.single inherits)
  | @head u v inherits rest ih =>
    obtain ⟨t', found', frozen'⟩ := closed.isFrozen_of_inherits found frozen inherits
    have listed := lists.mem_complexSubTypesOf_of_inherits found frozen inherits
    have vertex : v ∈ r.ids := mem_ids_of_complex? found'
    -- the search cannot have been at the type before, or it would inherit from itself
    refine (mem_visit_of_mem_next (ih found' frozen') vertex listed).resolve_left fun root => ?_
    obtain rfl := List.mem_singleton.1 root
    exact (grounded u t found frozen).not_transGen (.head inherits rest)

namespace Run

variable {c : SchemaConfig} {ids : List TypeId}

theorem listsHeirs (run : Run c (fun _ _ operation => operation.isStraight = true) r ids) :
    r.ListsHeirs := by
  induction run with
  | start =>
    intro id t found
    exact absurd found (complex?_initial_ne_some _ id t)
  | perform _ operation _ straight ih =>
    obtain ⟨plain, unset, -⟩ := Operation.isStraight_eq_true.1 straight
    refine perform_keeps (operation.keeps_run_of_isPlain ?_ ?_ plain) ih
    · exact fun step => step.listsHeirs fun t registers => registers.subTypes_eq_nil unset
    · exact fun ok h => h.rename ok

theorem registersNoHeir (run : Run c (fun _ _ operation => operation.isStraight = true) r ids) :
    Run c (fun _ _ operation => operation.registersHeir = false) r ids :=
  run.mono fun _ _ _ straight => (Operation.isStraight_eq_true.1 straight).2.2

/-- The subtypes of a type are the frozen types that inherit from it at any depth. -/
theorem mem_subTypes_iff (run : Run c (fun _ _ operation => operation.isStraight = true) r ids)
    (id : TypeId) :
    (∀ u, u ∈ r.subTypes id ↔ r.isFrozen u = true ∧ Relation.TransGen r.Inherits u id) ∧
      (r.subTypes id).Nodup ∧ id ∉ r.subTypes id := by
  have orphans := run.registersNoHeir
  refine ⟨fun u => ⟨run.listsHeirs.of_mem_subTypes, ?_⟩, nodup_visit, ?_⟩
  · rintro ⟨frozen, path⟩
    obtain ⟨v, inherits, -⟩ := Relation.TransGen.head'_iff.1 path
    obtain ⟨t, -, found, -, -⟩ := inherits.exists_superType
    rw [isFrozen_of_get? (complex?_eq_some.1 found)] at frozen
    exact orphans.listsFrozen.mem_subTypes_of_transGen orphans.admitted.isClosed
      orphans.admitted.isGrounded found frozen path
  · exact fun mem => not_mem_of_mem_visit mem List.mem_cons_self

end Run

/-- A patron is a party in two ways, and is listed once. -/
theorem mem_subTypes_iff_patrons : ∃ ids,
    Run {} (fun _ _ operation => operation.isStraight = true) patrons ids ∧
    (∀ u, u ∈ patrons.subTypes ⟨33⟩ ↔
      patrons.isFrozen u = true ∧ Relation.TransGen patrons.Inherits u ⟨33⟩) ∧
    (patrons.subTypes ⟨33⟩).Nodup ∧ ⟨33⟩ ∉ patrons.subTypes ⟨33⟩ :=
  have run : Run {} (fun _ _ operation => operation.isStraight = true) patrons _ :=
    .perform .start _ (by simp) rfl
  ⟨_, run, run.mem_subTypes_iff ⟨33⟩⟩

/-- A type that was frozen when it was registered inherits from a type of which it is no subtype. -/
theorem not_mem_subTypes_iff : ¬ ∀ (c : SchemaConfig) (r : Repository) (ids : List TypeId)
    (id : TypeId), Run c (fun _ _ operation => operation.isPlain = true) r ids →
    (∀ u, u ∈ r.subTypes id ↔ r.isFrozen u = true ∧ Relation.TransGen r.Inherits u id) ∧
      (r.subTypes id).Nodup ∧ id ∉ r.subTypes id := by
  intro always
  have run : Run {} (fun _ _ operation => operation.isPlain = true)
      ((Session.start {}).repository.perform (.build places {})) _ :=
    .perform .start _ (by simp) rfl
  obtain ⟨ids, run⟩ : ∃ ids, Run {} (fun _ _ operation => operation.isPlain = true)
      foreignPerson ids := run.takeOver (.build (.start {}) _ _) ⟨34⟩ fun _ _ => rfl
  have place : ((foreignPerson.complex? ⟨33⟩).isSome &&
      foreignPerson.subTypes ⟨33⟩ == []) = true := by
    rw [foreignPerson, Session.repository_start]
    cbv
  obtain ⟨t, found, frozen, supers⟩ := exists_foreignPerson
  obtain ⟨known, none⟩ := Bool.and_eq_true_iff.1 place
  have inherits : foreignPerson.Inherits ⟨34⟩ ⟨33⟩ := by
    refine ⟨(mem_complexSuperTypesOf found).2 ?_, known⟩
    rw [supers]
    exact List.mem_cons_self
  have listed := ((always _ _ ids ⟨33⟩ run).1 ⟨34⟩).2
    ⟨(isFrozen_of_get? (complex?_eq_some.1 found)).trans frozen, .single inherits⟩
  rw [eq_of_beq none] at listed
  cases listed

end Repository

end EntityModel
