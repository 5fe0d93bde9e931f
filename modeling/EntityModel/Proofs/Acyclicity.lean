/-
Inheritance of frozen types has no cycle.

A type `Inherits` from its complex super types.  From a frozen type, a chain of them ends
(`Repository.IsGrounded`): it has only frozen types on it, which are what they were when they
were frozen, and each was frozen after its super types.

* `EndsAbove.keep` — a chain of types that were frozen before does not change;
* `Evolves.acc_of_mem` — from a type that was just frozen, a chain goes back in the order;
* `Step.isGrounded` — so every step keeps it that the chains from frozen types end;
* `EndsAbove.not_transGen` — no type from which they end inherits from itself.
-/
import EntityModel.Proofs.ClosedTypes
import EntityModel.Proofs.SubtypeTrees

namespace EntityModel

namespace Repository

variable {G : TypeNode → Prop} {r r' : Repository} {order : List TypeId}
variable {id u v s : TypeId} {t : ComplexType}

/-- The complex type `v` is a super type of `u`. -/
def Inherits (r : Repository) (u v : TypeId) : Prop :=
  v ∈ r.complexSuperTypesOf u ∧ (r.complex? v).isSome

/-- From the type, every chain of super types ends. -/
def EndsAbove (r : Repository) (u : TypeId) : Prop := Acc (fun v u => r.Inherits u v) u

/-- From a frozen type, every chain of super types ends. -/
def IsGrounded (r : Repository) : Prop :=
  ∀ id t, r.complex? id = some t → t.isFrozen = true → r.EndsAbove id

theorem Inherits.exists_superType (h : r.Inherits u v) : ∃ t t', r.complex? u = some t ∧
    r.complex? v = some t' ∧ v ∈ t.shape.superTypes := by
  obtain ⟨super, known⟩ := h
  obtain ⟨t', found'⟩ := Option.isSome_iff_exists.1 known
  rw [complexSuperTypesOf_eq_getD] at super
  cases found : r.complex? u with
  | none => simp [found] at super
  | some t => exact ⟨t, t', rfl, found', by simpa [found] using super⟩

/-- What a frozen type inherits from is frozen. -/
theorem IsClosed.isFrozen_of_inherits (closed : r.IsClosed) (found : r.complex? u = some t)
    (frozen : t.isFrozen = true) (h : r.Inherits u v) :
    ∃ t', r.complex? v = some t' ∧ t'.isFrozen = true := by
  obtain ⟨t₁, t', found₁, found', super⟩ := h.exists_superType
  obtain rfl := Option.some.inj (found.symm.trans found₁)
  exact ⟨t', found', (closed.supports found frozen super found').frozen⟩

/-- A chain of types that were frozen before a step is what it was. -/
theorem EndsAbove.keep (step : Step G r r') (closed : r.IsClosed) (h : r.EndsAbove u)
    (found : r.complex? u = some t) (frozen : t.isFrozen = true) : r'.EndsAbove u := by
  induction h generalizing t with
  | intro u _ ih =>
    refine .intro u fun v inherits => ?_
    obtain ⟨t', found', -, shape⟩ := step.complex?_of_isFrozen found frozen
    obtain ⟨t₁, v', found₁, there, super⟩ := inherits.exists_superType
    obtain rfl := Option.some.inj (found'.symm.trans found₁)
    rw [shape] at super
    -- the super type was frozen, so it was complex already
    obtain ⟨n, before, supports⟩ := closed u t found frozen v super
    obtain ⟨n', after, keeps⟩ := step.get?_of_isFrozen before supports.frozen
    rw [complex?_eq_some.1 there] at after
    obtain rfl := Option.some.inj after
    cases keeps with
    | complex =>
      have before := complex?_eq_some.2 before
      have known : (r.complex? v).isSome := by rw [before]; rfl
      exact ih v ⟨(mem_complexSuperTypesOf found).2 super, known⟩ before supports.frozen

/-- What a type inherits from that was just frozen is what it was to keep. -/
theorem Evolves.mem_keptBy_of_inherits (E : r.Evolves order r') (mem : u ∈ order)
    (inherits : r'.Inherits u v) : v ∈ r.keptBy u := by
  obtain ⟨t, declared, moment, found, building, found', -⟩ := E.flattened_of_mem mem
  obtain ⟨t₁, v', found₁, -, super⟩ := inherits.exists_superType
  rw [complex?_eq_some.1 found₁] at found'
  obtain rfl := TypeNode.complex.inj (Option.some.inj found')
  exact E.mem_keptBy found building (mem_superTypes_flatten super)

/-- From a type that was just frozen one goes back in the order, and then to types that were
frozen before. -/
theorem Evolves.acc_of_mem (E : r.Evolves order r')
    (old : ∀ id t, r.complex? id = some t → t.isFrozen = true → r'.EndsAbove id)
    (mem : u ∈ order) : r'.EndsAbove u := by
  induction rank : order.idxOf u using Nat.strongRecOn generalizing u with
  | ind rank ih =>
    subst rank
    refine .intro u fun v inherits => ?_
    obtain ⟨v', there⟩ := Option.isSome_iff_exists.1 inherits.2
    have kept := E.mem_keptBy_of_inherits mem inherits
    by_cases earlier : v ∈ order
    · exact ih _ (E.idxOf_lt mem earlier kept) earlier rfl
    · obtain ⟨v₀, before, evolution⟩ := E.exists_of_complex? there
      have frozen := E.keptBy_of_mem mem v kept
      rw [isFrozen_of_get? (complex?_eq_some.1 there)] at frozen
      refine old v v₀ before ?_
      cases evolution with
      | untouched fresh => exact frozen
      | extended done => exact done
      | flattened _ _ mem => exact absurd mem earlier

/-- The chains from a type end if those from a type with the same super types do. -/
theorem EndsAbove.of_subset (h : r.EndsAbove u)
    (supers : r.complexSuperTypesOf id ⊆ r.complexSuperTypesOf u) : r.EndsAbove id :=
  .intro id fun _ inherits => h.inv ⟨supers inherits.1, inherits.2⟩

theorem Step.isGrounded (step : Step G r r') (admits : ∀ t, G (.complex t) → r.Admits t)
    (closed : r.IsClosed) (h : r.IsGrounded) : r'.IsGrounded := by
  have old : ∀ id t, r.complex? id = some t → t.isFrozen = true → r'.EndsAbove id :=
    fun id t found frozen => (h id t found frozen).keep step closed found frozen
  intro id t' found' frozen
  cases step.frozenOrigin found' frozen with
  | kept found frozen => exact old id _ found frozen
  | registered given =>
    rcases admits t' given frozen with none | ⟨u, t, found, done, shape, -⟩
    · refine .intro id fun v inherits => ?_
      rw [Inherits, mem_complexSuperTypesOf found', none] at inherits
      cases inherits.1
    · -- it has the super types of a type that was frozen before
      obtain ⟨t₁, found₁, -, shape₁⟩ := step.complex?_of_isFrozen found done
      refine (old u t found done).of_subset fun v super => ?_
      rw [mem_complexSuperTypesOf found'] at super
      rwa [mem_complexSuperTypesOf found₁, shape₁, shape]
  | flattened _ _ E mem => exact E.acc_of_mem old mem

theorem isGrounded_start (c : SchemaConfig) : (Session.start c).repository.IsGrounded :=
  fun id t found => absurd found (complex?_initial_ne_some _ id t)

theorem Run.isGrounded {c : SchemaConfig} {ids : List TypeId}
    (run : Run c (fun r _ operation => operation.RegistersOnly r.Admits) r ids) :
    r.IsGrounded := by
  refine (run.invariant (P := fun r => r.IsClosed ∧ r.IsGrounded) (fun step => step.admits)
    ⟨isClosed_start c, isGrounded_start c⟩ ?_).2
  rintro G r r' step admits sound ⟨closed, grounded⟩
  exact ⟨step.isClosed admits sound closed, step.isGrounded admits closed grounded⟩

theorem EndsAbove.not_transGen (h : r.EndsAbove u) : ¬ Relation.TransGen r.Inherits u u := by
  induction h with
  | intro u _ ih =>
    intro round
    -- the cycle can be entered at the next type
    obtain ⟨v, first, rest⟩ := Relation.TransGen.head'_iff.1 round
    exact ih v first (.tail' rest first)

end Repository

end EntityModel
