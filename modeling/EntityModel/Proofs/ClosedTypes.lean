/-
Frozen types and what they inherit from.

A frozen type rests on its super types: each is there, is frozen and agrees with it in being
instantiable, and a complex one has no field and no key that it lacks (`TypeNode.Supports`).

A type that is frozen already when it is registered brings its super types along, be they what
they were where it was frozen or not.  So the repository is closed in this way as long as it
`Admits` such a type: if it has super types, the repository has a frozen type like it.  And the
super types do not learn of it, so they list their heirs as long as no such type is registered
(`Operation.registersHeir`).

* `supports_flattened` — the end of a freeze gives a type super types that are fit to be that;
* `Step.isClosed` — every step keeps it so, for what supports a frozen type is frozen too;
* `Step.listsFrozen` — a complex type lists the frozen types that extend it;
* `IsClosed.inheritedField?_eq` — a plain name means an own field on a frozen type;
* `Run.frozen_closed` — so it is after all runs that register what the repository admits.
-/
import EntityModel.Proofs.FinalTypes
import EntityModel.Proofs.FreezeOrder
import EntityModel.Proofs.FrozenTypes

namespace EntityModel

/-- The type is fit to be a super type of the frozen type `t`. -/
structure TypeNode.Supports (n : TypeNode) (t : ComplexType) : Prop where
  frozen : n.isFrozen = true
  instantiable : n.instantiable = t.instantiable
  fields : ∀ u, n = .complex u → u.shape.fields.names ⊆ t.shape.fields.names
  keys : ∀ u, n = .complex u → u.shape.keyFields.names ⊆ t.shape.keyFields.names

/-- Whatever may become of it, it stays fit, also for other types of the same shape. -/
theorem TypeNode.Supports.keep {n n' : TypeNode} {t t' : ComplexType} (h : n.Supports t)
    (super : n.Keeps n') (shape : t'.shape = t.shape)
    (instantiable : t'.instantiable = t.instantiable) : n'.Supports t' := by
  cases super with
  | simple =>
    refine ⟨h.frozen, ?_, nofun, nofun⟩
    rw [instantiable]
    exact h.instantiable
  | @complex v v' _ lifecycle' instantiable' =>
    have shape' : v'.shape = v.shape := congrArg Lifecycle.shape lifecycle'
    refine ⟨?_, ?_, ?_, ?_⟩
    · show v'.lifecycle.isFrozen = true
      rw [lifecycle']
      exact h.frozen
    · show v'.instantiable = t'.instantiable
      rw [instantiable', instantiable]
      exact h.instantiable
    · rintro _ ⟨⟩
      rw [shape, shape']
      exact h.fields v rfl
    · rintro _ ⟨⟩
      rw [shape, shape']
      exact h.keys v rfl

theorem Lifecycle.IsSound.isFinal_shape {l : Lifecycle} (h : l.IsSound)
    (frozen : l.isFrozen = true) : l.shape.IsFinal := by
  cases l with
  | building => cases frozen
  | freezing => cases frozen
  | frozen flat => exact h

namespace Repository

variable {G : TypeNode → Prop} {r r' : Repository} {id s : TypeId} {t : ComplexType}
variable {name : String}

/-! ### What a freeze makes -/

/-- A kept super type hands down its fields. -/
theorem names_subset_flatten {declared : TypeShape} {instantiable : Bool} {u : ComplexType}
    (found : r.complex? s = some u)
    (kept : s ∈ r.keptSuperTypes instantiable declared.superTypes) :
    u.shape.fields.names ⊆ (r.flatten id instantiable declared).fields.names := by
  intro name mem
  have own : (r.ownField? s name).isSome := by
    rw [ownField?, found]
    exact FieldTable.mem_names_iff.1 mem
  have handed : ((r.keptSuperTypes instantiable declared.superTypes).reverse.findSome?
      (r.ownField? · name)).isSome :=
    List.findSome?_isSome_iff.2 ⟨s, List.mem_reverse.2 kept, own⟩
  rw [FieldTable.mem_names_iff, find?_flatten, Option.isSome_map, Option.isSome_or,
    Option.isSome_or, Option.isSome_map, handed, Bool.or_true, Bool.true_or]

/-- A kept super type hands down those of its fields that are keys. -/
theorem keyNames_subset_flatten {declared : TypeShape} {instantiable : Bool} {u : ComplexType}
    (found : r.complex? s = some u) (final : u.shape.IsFinal)
    (kept : s ∈ r.keptSuperTypes instantiable declared.superTypes) :
    u.shape.keyFields.names ⊆ (r.flatten id instantiable declared).keyFields.names := by
  intro name mem
  obtain ⟨f, own, key⟩ := (final.key name).1 mem
  have own : ((r.ownField? s name).filter (·.isKey)).isSome := by
    rw [ownField?, found, Option.bind_some, ComplexType.ownField?, own]
    simp [key]
  have handed : ((r.keptSuperTypes instantiable declared.superTypes).reverse.findSome? fun v =>
      (r.ownField? v name).filter (·.isKey)).isSome :=
    List.findSome?_isSome_iff.2 ⟨s, List.mem_reverse.2 kept, own⟩
  rw [flatten_eq_finish, TypeShape.names_keyFields_finish, FieldTable.mem_names_iff,
    find?_keyFields_gathered, Option.isSome_or, Option.isSome_map, handed, Bool.true_or]

/-- A super type of a type that was just frozen is fit to be one. -/
theorem supports_flattened {order : List TypeId} {moment : Repository} {declared : TypeShape}
    (sound : r'.IsSound)
    (supers : ∀ s ∈ r'.keptSuperTypes t.instantiable declared.superTypes, r'.isFrozen s = true)
    (super : s ∈ (r'.flatten id t.instantiable declared).superTypes) :
    ∃ n, r'.get? s = some n ∧ n.Supports (r'.flattened order moment id t declared) := by
  have kept := mem_superTypes_flatten super
  rw [superTypes_flatten] at super
  obtain ⟨n, here, agrees⟩ := (Option.any_eq_true _ _).1 (List.mem_filter.1 super).2
  have frozen := supers s kept
  rw [isFrozen_of_get? here] at frozen
  refine ⟨n, here, frozen, of_decide_eq_true agrees, ?_, ?_⟩
  · rintro u rfl
    exact names_subset_flatten (complex?_eq_some.2 here) kept
  · rintro u rfl
    have final := (sound s u (complex?_eq_some.2 here)).isFinal_shape frozen
    exact keyNames_subset_flatten (complex?_eq_some.2 here) final kept

/-! ### What may be registered -/

/-- A frozen type of the repository has the same shape as `t`, and is instantiable if it is. -/
def HasLike (r : Repository) (t : ComplexType) : Prop :=
  ∃ id t', r.complex? id = some t' ∧ t'.isFrozen = true ∧ t'.shape = t.shape ∧
    t'.instantiable = t.instantiable

/-- If `t` is frozen and has super types, the repository has a frozen type like it: then what it
extends here is what it extended where it was frozen. -/
def Admits (r : Repository) (t : ComplexType) : Prop :=
  t.isFrozen = true → t.shape.superTypes = [] ∨ r.HasLike t

theorem Step.hasLike (step : Step G r r') (h : r.HasLike t) : r'.HasLike t := by
  obtain ⟨id, t', found, frozen, shape, instantiable⟩ := h
  obtain ⟨n', after, keeps⟩ := step.get?_of_isFrozen (complex?_eq_some.1 found) frozen
  have frozen' := keeps.isFrozen.trans frozen
  cases keeps with
  | @complex _ t'' _ lifecycle instantiable' =>
    exact ⟨id, t'', complex?_eq_some.2 after, frozen',
      (congrArg Lifecycle.shape lifecycle).trans shape, instantiable'.trans instantiable⟩

theorem Step.admits (step : Step G r r') (h : r.Admits t) : r'.Admits t :=
  fun frozen => (h frozen).imp_right step.hasLike

/-! ### Every step keeps frozen types closed -/

/-- All super types of frozen types are fit to be that. -/
def IsClosed (r : Repository) : Prop :=
  ∀ id t, r.complex? id = some t → t.isFrozen = true →
    ∀ s ∈ t.shape.superTypes, ∃ n, r.get? s = some n ∧ n.Supports t

/-- A new repository has no complex types. -/
theorem isClosed_start (c : SchemaConfig) : (Session.start c).repository.IsClosed :=
  fun id t found => absurd found (complex?_initial_ne_some _ id t)

theorem IsClosed.supports (h : r.IsClosed) (found : r.complex? id = some t)
    (frozen : t.isFrozen = true) (super : s ∈ t.shape.superTypes) {u : ComplexType}
    (there : r.complex? s = some u) : (TypeNode.complex u).Supports t := by
  obtain ⟨n, here, supports⟩ := h id t found frozen s super
  rw [complex?_eq_some.1 there] at here
  rwa [Option.some.inj here]

/-- What a frozen type rests on is there after a step, for all types like it. -/
theorem IsClosed.keep {t' : ComplexType} (h : r.IsClosed) (step : Step G r r')
    (found : r.complex? id = some t) (frozen : t.isFrozen = true) (shape : t'.shape = t.shape)
    (instantiable : t'.instantiable = t.instantiable) (super : s ∈ t'.shape.superTypes) :
    ∃ n, r'.get? s = some n ∧ n.Supports t' := by
  obtain ⟨n, before, supports⟩ := h id t found frozen s (shape ▸ super)
  obtain ⟨n', after, keeps⟩ := step.get?_of_isFrozen before supports.frozen
  exact ⟨n', after, supports.keep keeps shape instantiable⟩

theorem Step.isClosed (step : Step G r r') (admits : ∀ t, G (.complex t) → r.Admits t)
    (sound : r'.IsSound) (h : r.IsClosed) : r'.IsClosed := by
  intro id t' found' frozen s super
  cases step.frozenOrigin found' frozen with
  | @kept t _ found done =>
    obtain ⟨n', here, keeps⟩ := step.get?_of_isFrozen (complex?_eq_some.1 found) done
    obtain rfl := Option.some.inj ((complex?_eq_some.1 found').symm.trans here)
    cases keeps with
    | complex _ lifecycle instantiable =>
      exact h.keep step found done (congrArg Lifecycle.shape lifecycle) instantiable super
  | registered given =>
    rcases admits t' given frozen with none | ⟨u, t, found, done, shape, instantiable⟩
    · simp [none] at super
    · exact h.keep step found done shape.symm instantiable.symm super
  | flattened _ _ _ _ supers => exact supports_flattened sound supers super

/-! ### Every step keeps frozen types listed -/

/-- A complex type lists all frozen types that extend it. -/
def ListsFrozen (r : Repository) : Prop :=
  ∀ id t, r.complex? id = some t → t.isFrozen = true → ∀ s ∈ t.shape.superTypes,
    ∀ u, r.complex? s = some u → id ∈ u.subTypes

theorem Step.listsFrozen (step : Step G r r')
    (orphans : ∀ t, G (.complex t) → t.isFrozen = true → t.shape.superTypes = [])
    (closed : r.IsClosed) (h : r.ListsFrozen) : r'.ListsFrozen := by
  intro id t' found' frozen s super u' there'
  cases step.frozenOrigin found' frozen with
  | @kept t _ found done =>
    obtain ⟨t₁, found₁, -, shape⟩ := step.complex?_of_isFrozen found done
    obtain rfl := Option.some.inj (found'.symm.trans found₁)
    rw [shape] at super
    -- the super type was frozen, so it has not lost an entry
    obtain ⟨n, before, supports⟩ := closed id t found done s super
    obtain ⟨n', after, keeps⟩ := step.get?_of_isFrozen before supports.frozen
    obtain rfl := Option.some.inj ((complex?_eq_some.1 there').symm.trans after)
    cases keeps with
    | complex _ _ _ subTypes =>
      exact subTypes.subset (h id t found done s super _ (complex?_eq_some.2 before))
  | registered given => simp [orphans t' given frozen] at super
  | @flattened t declared order moment _ E mem supers =>
    have heir : s ∈ r'.complexSuperTypesOf id := by
      rw [complexSuperTypesOf, found']
      exact super
    have done := supers s (mem_superTypes_flatten super)
    rw [isFrozen_of_get? (complex?_eq_some.1 there')] at done
    obtain ⟨u₀, before, -⟩ := E.exists_of_complex? there'
    exact (E.mem_subTypes (complex?_eq_some.1 before) (complex?_eq_some.1 there') done).2
      (.inr ⟨mem, heir⟩)

/-! ### Runs -/

namespace Run

variable {c : SchemaConfig} {ids : List TypeId} {P : Repository → Prop}

/-- What is kept by steps that register types that fit, holds after all runs that register such
types. -/
theorem invariant {fits : Repository → ComplexType → Prop}
    (run : Run c (fun r _ operation => operation.RegistersOnly (fits r)) r ids)
    (keep : ∀ {G r r' t}, Step G r r' → fits r t → fits r' t)
    (start : P (Session.start c).repository)
    (stable : ∀ {G r r'}, Step G r r' → (∀ t, G (.complex t) → fits r t) → r'.IsSound →
      P r → P r') : P r := by
  induction run with
  | start => exact start
  | perform run operation given ok ih =>
    refine (perform_keeps (P := fun r => operation.RegistersOnly (fits r) ∧ r.IsSound ∧ P r)
      (operation.keeps_run ?_) ⟨ok, run.reachable.isSound, ih⟩).2.2
    rintro r r' step ⟨fit, sound, holds⟩
    have sound := step.isSound (fun t registers => (registers.obtained given).isSound) sound
    exact ⟨fun t registers => keep step (fit t registers), sound, stable step fit sound holds⟩

theorem isClosed (run : Run c (fun r _ operation => operation.RegistersOnly r.Admits) r ids) :
    r.IsClosed :=
  run.invariant (fun step => step.admits) (isClosed_start c) fun step => step.isClosed

end Run

/-! ### What a plain name means -/

/-- Whatever a frozen type inherits from has no field that it lacks. -/
theorem IsClosed.inheritedField?_eq (h : r.IsClosed) (found : r.complex? id = some t)
    (frozen : t.isFrozen = true) (name : String) :
    r.inheritedField? id name = t.ownField? name := by
  have own : r.ownField? id name = t.ownField? name := by rw [ownField?, found]; rfl
  cases field : t.ownField? name with
  | some f => exact inheritedField?_of_ownField? (own.trans field)
  | none =>
    have absent : name ∉ t.shape.fields.names := FieldTable.find?_eq_none.1 field
    have lineage : ∀ u ∈ r.lineage id, ∀ v, r.complex? u = some v →
        v.isFrozen = true ∧ v.shape.fields.names ⊆ t.shape.fields.names := by
      refine forall_mem_visit ?_ ?_
      · intro u mem v here
        obtain rfl := List.mem_singleton.1 mem
        obtain rfl := Option.some.inj (found.symm.trans here)
        exact ⟨frozen, List.Subset.refl _⟩
      · intro u _ below s super v here
        rw [complexSuperTypesOf_eq_getD] at super
        cases heir : r.complex? u with
        | none => simp [heir] at super
        | some w =>
          rw [heir] at super
          obtain ⟨frozen, fields⟩ := below w heir
          have supports := h.supports heir frozen super here
          exact ⟨supports.frozen, List.Subset.trans (supports.fields v rfl) fields⟩
    rw [inheritedField?_eq_findSome?, List.findSome?_eq_none_iff]
    intro u mem
    rw [ownField?]
    cases here : r.complex? u with
    | none => rfl
    | some v => exact FieldTable.find?_eq_none.2 fun named => absent ((lineage u mem v here).2 named)

/-! ### Runs that register no frozen type with super types -/

end Repository

/-- A frozen complex type that has super types is registered. -/
def Operation.registersHeir : Operation → Bool
  | .register (.complex t) => t.isFrozen && !t.shape.superTypes.isEmpty
  | _ => false

theorem Operation.Registers.superTypes_eq_nil {operation : Operation} {t : ComplexType}
    (h : operation.Registers (.complex t)) (orphans : operation.registersHeir = false)
    (frozen : t.isFrozen = true) : t.shape.superTypes = [] := by
  cases h with
  | given => simpa [Operation.registersHeir, frozen] using orphans
  | declared => cases frozen

namespace Repository.Run

variable {r : Repository} {c : SchemaConfig} {ids : List TypeId} {id : TypeId} {t : ComplexType}

/-- So all that is registered is admitted. -/
theorem admitted (run : Run c (fun _ _ operation => operation.registersHeir = false) r ids) :
    Run c (fun r _ operation => operation.RegistersOnly r.Admits) r ids :=
  run.mono fun _ _ _ orphans _ registers frozen =>
    .inl (registers.superTypes_eq_nil orphans frozen)

theorem listsFrozen (run : Run c (fun _ _ operation => operation.registersHeir = false) r ids) :
    r.ListsFrozen := by
  have orphans : Run c (fun _ _ operation => operation.RegistersOnly fun t =>
      t.isFrozen = true → t.shape.superTypes = []) r ids :=
    run.mono fun _ _ _ orphans _ registers => registers.superTypes_eq_nil orphans
  refine (orphans.invariant (P := fun r => r.IsClosed ∧ r.ListsFrozen) (fun _ fits => fits)
    ⟨isClosed_start c, fun id t found => ?_⟩ ?_).2
  · exact absurd found (complex?_initial_ne_some _ id t)
  · rintro G r r' step orphans sound ⟨closed, lists⟩
    exact ⟨step.isClosed (fun t given frozen => .inl (orphans t given frozen)) sound closed,
      step.listsFrozen orphans closed lists⟩

/-- A frozen type rests on frozen super types that agree with it, and has all that they hand down;
so a plain name leads to an own field, or nowhere.  The super types list it, if no frozen type with
super types was registered. -/
theorem frozen_closed (run : Run c (fun r _ operation => operation.RegistersOnly r.Admits) r ids)
    (found : r.complex? id = some t) (frozen : t.isFrozen = true) :
    (∀ s ∈ t.shape.superTypes, ∃ n, r.get? s = some n ∧ n.Supports t ∧
      ((∃ ids', Run c (fun _ _ operation => operation.registersHeir = false) r ids') →
        ∀ u, n = .complex u → id ∈ u.subTypes)) ∧
      ∀ name f, name ≠ "" → Path.isNested name = false →
        (r.field id name = .ok f ↔ t.ownField? name = some f) := by
  refine ⟨fun s super => ?_, fun name f nonempty plain => ?_⟩
  · obtain ⟨n, here, supports⟩ := run.isClosed id t found frozen s super
    refine ⟨n, here, supports, ?_⟩
    rintro ⟨ids', orphans⟩ u rfl
    exact orphans.listsFrozen id t found frozen s super u (complex?_eq_some.2 here)
  · rw [field_eq_ok_iff found nonempty plain, run.isClosed.inheritedField?_eq found frozen]

theorem frozen_closed_person : ∃ ids t,
    Run {} (fun _ _ operation => operation.registersHeir = false)
      ((Session.start {}).repository.perform (.build parties {})) ids ∧
    ((Session.start {}).repository.perform (.build parties {})).complex? ⟨34⟩ = some t ∧
      t.isFrozen = true ∧ t.shape.superTypes = [⟨33⟩] ∧
      ∃ n, ((Session.start {}).repository.perform (.build parties {})).get? ⟨33⟩ = some n ∧
        n.Supports t ∧ ∀ u, n = .complex u → ⟨34⟩ ∈ u.subTypes := by
  have run : Run {} (fun _ _ operation => operation.registersHeir = false)
      ((Session.start {}).repository.perform (.build parties {})) _ :=
    .perform .start _ (by simp) rfl
  have built : (((Session.start {}).repository.perform (.build parties {})).complex? ⟨34⟩).any
      (fun t => t.isFrozen && t.shape.superTypes == [⟨33⟩]) = true := by
    rw [Session.repository_start]
    cbv
  obtain ⟨t, found, built⟩ := (Option.any_eq_true _ _).1 built
  obtain ⟨frozen, supers⟩ := Bool.and_eq_true_iff.1 built
  have supers : t.shape.superTypes = [⟨33⟩] := eq_of_beq supers
  obtain ⟨closed, -⟩ := run.admitted.frozen_closed found frozen
  obtain ⟨n, here, supports, listed⟩ := closed ⟨33⟩ (by simp [supers])
  exact ⟨_, t, run, found, frozen, supers, n, here, supports, listed ⟨_, run⟩⟩

end Repository.Run

namespace Repository

def places : Manifest where
  types := [{ name := "Place", fields := [{ name := "town", type := "string" }] }]

/-- A place, and the person that was taken over from where its super type is a party. -/
def foreignPerson : Repository :=
  ((Session.start {}).repository.perform (.build places {})).takeOver
    ((Session.start {}).repository.perform (.build parties {})) ⟨34⟩

theorem reachable_foreignPerson : foreignPerson.Reachable :=
  (Reachable.build (.start {}) _ _).takeOver (.build (.start {}) _ _) _

theorem exists_foreignPerson : ∃ t, foreignPerson.complex? ⟨34⟩ = some t ∧ t.isFrozen = true ∧
    t.shape.superTypes = [⟨33⟩] := by
  have taken : (foreignPerson.complex? ⟨34⟩).any
      (fun t => t.isFrozen && t.shape.superTypes == [⟨33⟩]) = true := by
    rw [foreignPerson, Session.repository_start]
    cbv
  obtain ⟨t, found, taken⟩ := (Option.any_eq_true _ _).1 taken
  obtain ⟨frozen, supers⟩ := Bool.and_eq_true_iff.1 taken
  exact ⟨t, found, frozen, eq_of_beq supers⟩

/-- A type that was frozen when it was registered need not be listed by what it extends. -/
theorem not_frozen_closed : ¬ ∀ (r : Repository) (id : TypeId) (t : ComplexType), r.Reachable →
    r.complex? id = some t → t.isFrozen = true →
    (∀ s ∈ t.shape.superTypes, ∃ n, r.get? s = some n ∧ n.Supports t ∧
      ∀ u, n = .complex u → id ∈ u.subTypes) ∧
      ∀ name f, name ≠ "" → Path.isNested name = false →
        (r.field id name = .ok f ↔ t.ownField? name = some f) := by
  intro closed
  obtain ⟨t, found, frozen, supers⟩ := exists_foreignPerson
  have unlisted : (foreignPerson.get? ⟨33⟩).any
      (fun n => n.complex?.any (fun u => ⟨34⟩ ∉ u.subTypes)) = true := by
    rw [foreignPerson, Session.repository_start]
    cbv
  obtain ⟨n, here, -, listed⟩ :=
    (closed _ _ t reachable_foreignPerson found frozen).1 ⟨33⟩ (by simp [supers])
  rw [here, Option.any_some] at unlisted
  obtain ⟨u, same, absent⟩ := (Option.any_eq_true _ _).1 unlisted
  exact of_decide_eq_true absent (listed u (TypeNode.complex?_eq_some.1 same))

end Repository

end EntityModel
