/-
Frozen types over whole runs.

What a freeze makes final stays so, whatever operations follow (`get?_foldl_perform`), and the
operations that would change it are refused (`run_eq_error_of_reshaped`): they fail with the
name of the type, and leave the model as it was.
-/
import EntityModel.Proofs.FinalTypes
import EntityModel.Proofs.FrozenTypes

namespace EntityModel

/-- The type whose name, shape or kind an operation is meant to change. -/
def Operation.reshaped : Operation → Option TypeId
  | .addField id _ | .registerKey id _ | .addSuperType id _ | .setInstantiable id _
  | .setSubTypes id _ | .rename id _ => some id
  | _ => none

/-! ### Operations that are refused -/

namespace ComplexType

variable {t : ComplexType}

theorem declared_eq_error (frozen : t.isFrozen = true) : t.declared = .error (.frozen t.name) := by
  rw [isFrozen] at frozen
  rw [declared]
  cases h : t.lifecycle with
  | building declared => simp [h, Lifecycle.isFrozen] at frozen
  | freezing => rfl
  | frozen flat => rfl

end ComplexType

namespace Repository

variable {r r' : Repository} {id : TypeId} {t : ComplexType} {n : TypeNode}

theorem modify_eq_error {f : ComplexType → Except ModelError ComplexType} {e : ModelError}
    (found : r.complex? id = some t) (refuses : f t = .error e) : r.modify id f = .error e := by
  rw [modify, complex_eq_ok_iff.2 found]
  show (f t >>= fun t' => pure (r.set id (.complex t'))) = _
  rw [refuses]
  rfl

/-- An operation on the name, shape or kind of a frozen type fails and changes nothing. -/
theorem run_eq_error_of_reshaped (found : r.complex? id = some t) (frozen : t.isFrozen = true)
    {operation : Operation} (reshapes : operation.reshaped = some id) (events : List Event) :
    operation.run ⟨r, events⟩ = .error (.frozen t.name) ⟨r, events⟩ := by
  have refuses := ComplexType.declared_eq_error frozen
  have modify : ∀ f : ComplexType → Except ModelError ComplexType, f t = .error (.frozen t.name) →
      Operation.run.done (Edit.modify id f) ⟨r, events⟩ = .error (.frozen t.name) ⟨r, events⟩ :=
    fun f h => Edit.bind_eq_of_error (Edit.attempt_eq_error (modify_eq_error found h))
  cases operation with
  | addField u f =>
    obtain rfl := Option.some.inj reshapes
    refine modify _ ?_
    rw [ComplexType.addField, refuses]
    rfl
  | registerKey u f =>
    obtain rfl := Option.some.inj reshapes
    refine modify _ ?_
    rw [ComplexType.registerKey, refuses]
    rfl
  | setInstantiable u b =>
    obtain rfl := Option.some.inj reshapes
    refine modify _ ?_
    rw [ComplexType.setInstantiable, refuses]
    rfl
  | setSubTypes u ids =>
    obtain rfl := Option.some.inj reshapes
    refine modify _ ?_
    rw [ComplexType.setSubTypes, refuses]
    rfl
  | addSuperType u s =>
    obtain rfl := Option.some.inj reshapes
    refine Edit.bind_eq_of_error (Edit.attempt_eq_error ?_)
    show r.addSuperType u s = _
    rw [addSuperType, get_eq_ok (complex?_eq_some.1 found)]
    show (TypeNode.addSuperType (.complex t) s >>= _) = _
    rw [TypeNode.addSuperType, ComplexType.addSuperType, refuses]
    rfl
  | rename u name =>
    obtain rfl := Option.some.inj reshapes
    refine Edit.bind_eq_of_error (Edit.attempt_eq_error ?_)
    show r.rename u name = _
    rw [rename, complex_eq_ok_iff.2 found]
    show (t.rename name >>= _) = _
    rw [ComplexType.rename, refuses]
    rfl
  | _ => cases reshapes

/-! ### Whole runs -/

/-- An operation leaves a frozen type there, and what it is. -/
theorem get?_perform (operation : Operation) (found : r.get? id = some n)
    (frozen : n.isFrozen = true) :
    ∃ n', (r.perform operation).get? id = some n' ∧ n.Keeps n' := by
  refine perform_keeps (P := fun r => ∃ n', r.get? id = some n' ∧ n.Keeps n')
    (operation.keeps_run fun step => ?_) ⟨n, found, .refl n⟩
  rintro ⟨n₁, found₁, kept⟩
  obtain ⟨n₂, found₂, kept'⟩ := step.get?_of_isFrozen found₁ (kept.isFrozen.trans frozen)
  exact ⟨n₂, found₂, kept.trans kept'⟩

/-- So does a sequence of operations. -/
theorem get?_foldl_perform (operations : List Operation) (found : r.get? id = some n)
    (frozen : n.isFrozen = true) :
    ∃ n', (operations.foldl perform r).get? id = some n' ∧ n.Keeps n' := by
  induction operations generalizing r n with
  | nil => exact ⟨n, found, .refl n⟩
  | cons operation rest ih =>
    obtain ⟨n₁, found₁, kept⟩ := get?_perform operation found frozen
    obtain ⟨n₂, found₂, kept'⟩ := ih found₁ (kept.isFrozen.trans frozen)
    exact ⟨n₂, found₂, kept.trans kept'⟩

/-- A frozen type keeps its name, its shape and its kind over every run, and is told only of
further subtypes and usages; whatever is meant to change it is refused at every point of the
run, and changes nothing. -/
theorem frozen_immutable (found : r.complex? id = some t) (frozen : t.isFrozen = true)
    (operations : List Operation) :
    (∃ t', (operations.foldl perform r).complex? id = some t' ∧
      t'.qualifiedName = t.qualifiedName ∧ t'.instantiable = t.instantiable ∧
      t'.isFrozen = true ∧ t'.shape = t.shape ∧
      t.subTypes <+: t'.subTypes ∧ t.usages <+: t'.usages) ∧
    ∀ operation : Operation, operation.reshaped = some id → ∀ events,
      operation.run ⟨operations.foldl perform r, events⟩ =
        .error (.frozen t.name) ⟨operations.foldl perform r, events⟩ := by
  obtain ⟨n', found', kept⟩ := get?_foldl_perform operations (complex?_eq_some.1 found) frozen
  have frozen' := kept.isFrozen.trans frozen
  cases kept with
  | @complex _ t' name lifecycle instantiable subTypes usages =>
    have found' := complex?_eq_some.2 found'
    refine ⟨⟨t', found', name, instantiable, frozen', congrArg Lifecycle.shape lifecycle,
      subTypes, usages⟩, fun operation reshapes events => ?_⟩
    have same : t'.name = t.name := congrArg QualifiedName.name name
    rw [← same]
    exact run_eq_error_of_reshaped found' frozen' reshapes events

/-- The repository of a party and a person, both of them frozen. -/
def partyRepository : Repository := (Session.start {}).repository.perform (.build parties {})

/-- A party is told of a usage and of a copy of its subtype. -/
theorem frozen_immutable_party : ∃ t, partyRepository.complex? ⟨33⟩ = some t ∧
    t.isFrozen = true ∧
    (∃ t', ([.declareUsage ⟨33⟩ ⟨34⟩, .copy ⟨34⟩].foldl perform partyRepository).complex? ⟨33⟩ =
      some t' ∧ t'.shape = t.shape ∧ t.subTypes <+: t'.subTypes ∧ t.usages <+: t'.usages) ∧
    (Operation.rename ⟨33⟩ "Person").reshaped = some ⟨33⟩ ∧
    ∃ m', (Operation.rename ⟨33⟩ "Person").run m' = .error (.frozen t.name) m' := by
  have frozen : (partyRepository.complex? ⟨33⟩).any (·.isFrozen) = true := by
    rw [partyRepository, Session.repository_start]
    cbv
  obtain ⟨t, found, frozen⟩ := (Option.any_eq_true _ _).1 frozen
  obtain ⟨⟨t', found', -, -, -, shape, subTypes, usages⟩, refused⟩ :=
    frozen_immutable found frozen [.declareUsage ⟨33⟩ ⟨34⟩, .copy ⟨34⟩]
  exact ⟨t, found, frozen, ⟨t', found', shape, subTypes, usages⟩, rfl, _, refused _ rfl []⟩

end Repository

end EntityModel
