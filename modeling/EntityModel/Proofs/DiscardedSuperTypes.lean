/-
Super types that are discarded.

A copy that is frozen loses the super types that do not agree with it in being instantiable, while
they go on listing it.  This is how an entry in the lists of subtypes becomes stale, and the only
way:

* `Repository.discards` — the operations that do this;
* `perform_freezesTo` — an operation that freezes types declares some first, perhaps;
* `NoStale.perform` — any other operation leaves no stale entry;
* `Run.listsFrozenHeirs` — so frozen types are listed by their super types only, until an
  operation discards a super type.
-/
import EntityModel.Proofs.StaleEdges

namespace EntityModel

namespace Repository

variable {r s final : Repository} {id u : TypeId} {t t' : ComplexType} {operation : Operation}

/-- The types of `r` are there in `s` and list what they listed; none of them has changed in being
instantiable or frozen.  Other types list nothing. -/
structure KeepsListings (r s : Repository) : Prop where
  old : ∀ u t, r.complex? u = some t → ∃ t', s.complex? u = some t' ∧
    t'.subTypes = t.subTypes ∧ t'.instantiable = t.instantiable ∧ t'.isFrozen = t.isFrozen
  new : ∀ u t', s.complex? u = some t' → (r.complex? u).isSome ∨ t'.subTypes = []

namespace KeepsListings

theorem refl (r : Repository) : r.KeepsListings r where
  old _ t found := ⟨t, found, rfl, rfl, rfl⟩
  new u t' found := .inl (by rw [found]; rfl)

theorem push (h : r.KeepsListings s) (bare : t.subTypes = []) :
    r.KeepsListings (s.push (.complex t)) where
  old u t₁ found := by
    obtain ⟨t', found', same⟩ := h.old u t₁ found
    exact ⟨t', complex?_eq_some.2 (get?_push_of_some (complex?_eq_some.1 found') _), same⟩
  new u t' found' := by
    rcases complex?_push s u _ found' with ⟨-, same⟩ | found
    · exact .inr (TypeNode.complex.inj same ▸ bare)
    · exact h.new u t' found

theorem declare (h : r.KeepsListings s) (found : s.complex? id = some t)
    (declares : t.Declaration t') : r.KeepsListings (s.set id (.complex t')) where
  old u t₁ before := by
    obtain ⟨t₂, found₂, subTypes, instantiable, frozen⟩ := h.old u t₁ before
    by_cases here : u = id
    · subst here
      obtain rfl := Option.some.inj (found.symm.trans found₂)
      exact ⟨t', complex?_set_self (complex?_eq_some.1 found) t',
        declares.subTypes.trans subTypes, declares.instantiable.trans instantiable,
        declares.change.isFrozen.trans frozen⟩
    · refine ⟨t₂, ?_, subTypes, instantiable, frozen⟩
      rw [complex?, get?_set_of_ne here]
      exact found₂
  new u t₁ found₁ := by
    rcases complex?_set s id u _ found₁ with ⟨rfl, same, -⟩ | ⟨-, found₁⟩
    · rw [← TypeNode.complex.inj same, declares.subTypes]
      exact h.new u t found
    · exact h.new u t₁ found₁

end KeepsListings

/-- The repository `final` is `r` with some types declared, perhaps, and then some frozen. -/
def FreezesTo (r final : Repository) : Prop :=
  ∃ s order, r.KeepsListings s ∧ (r.NoStale → s.NoStale) ∧ s.Evolves order final

theorem freezesTo_of_run {ids order : List TypeId} {out : Except ModelError Unit}
    (run : FreezeRun ids r order out final) : r.FreezesTo final :=
  ⟨r, order, .refl r, fun h => h, run.evolves.1⟩

theorem keeps_declare_listings (m : Manifest) (c : Config) :
    Edit.Keeps (fun s => r.KeepsListings s ∧ (r.NoStale → s.NoStale)) (m.declare c) := by
  refine Manifest.keeps_declare ?_ ?_ m c
  · rintro s id t t' found declares ⟨listings, noStale⟩
    constructor
    · exact listings.declare found declares
    · intro h
      exact (noStale h).set_complex found declares.change.superTypes_subset declares.subTypes
  · rintro s s' a name b ok ⟨listings, noStale⟩
    obtain ⟨-, rfl⟩ := register_eq_ok ok
    constructor
    · have pushed : r.KeepsListings (s.push (.complex (a.type name b))) := listings.push rfl
      exact ⟨pushed.old, pushed.new⟩
    · intro h
      refine (noStale h).push fun t same => ?_
      rw [← TypeNode.complex.inj same]
      rfl

theorem yields_build_freezesTo (m : Manifest) (c : Config) (model : Model) :
    (m.build c).Yields model fun _ after => model.repository.FreezesTo after.repository := by
  rw [Manifest.build_eq_declare, Edit.yields_bind]
  refine ((keeps_declare_listings m c).yields ⟨.refl _, fun h => h⟩).mono fun out declared => ?_
  rintro ⟨listings, noStale⟩
  cases out with
  | error e => exact ⟨_, [], listings, noStale, .refl _⟩
  | ok ids =>
    dsimp only
    rw [Edit.yields_bind]
    refine (Edit.forM_freeze_run ids declared).mono fun out after => ?_
    rintro ⟨order, run⟩
    cases out with
    | error e => exact ⟨_, order, listings, noStale, run.evolves.1⟩
    | ok _ => exact ⟨_, order, listings, noStale, run.evolves.1⟩

theorem perform_freezesTo (freezing : operation.isFreezing = true) (r : Repository) :
    r.FreezesTo (r.perform operation) := by
  have done : ∀ {edit : Edit Unit} {m : Model},
      (edit.Yields m fun _ m' => r.FreezesTo m'.repository) →
      (Operation.run.done edit).Yields m fun _ m' => r.FreezesTo m'.repository := by
    intro edit m ends
    rw [Operation.run.done, Edit.yields_bind]
    refine ends.mono fun out m' freezes => ?_
    cases out <;> exact freezes
  refine perform_of_yields ?_
  cases operation with
  | freeze id =>
    refine done ((Edit.freeze_run id ⟨r, []⟩).mono fun out m' => ?_)
    rintro ⟨order, run⟩
    exact freezesTo_of_run run
  | freezeAll =>
    refine done ((Edit.freezeAll_run ⟨r, []⟩).mono fun out m' => ?_)
    rintro ⟨order, run⟩
    exact freezesTo_of_run run
  | build manifest c => exact (Edit.yields_map _ _).2 (yields_build_freezesTo manifest c ⟨r, []⟩)
  | _ => cases freezing

/-- The operation freezes a type that is listed by one that it does not agree with in being
instantiable, and so loses the super type. -/
def discards (r : Repository) (operation : Operation) : Bool :=
  operation.isFreezing && r.ids.any fun id => (r.complex? id).any fun t =>
    t.subTypes.any fun u => (r.complex? u).any fun t' =>
      !t'.isFrozen && t.instantiable != t'.instantiable && (r.perform operation).isFrozen u

theorem discards_eq_true : r.discards operation = true ↔ operation.isFreezing = true ∧
    ∃ id t u t', r.complex? id = some t ∧ u ∈ t.subTypes ∧ r.complex? u = some t' ∧
      t'.isFrozen = false ∧ t.instantiable ≠ t'.instantiable ∧
      (r.perform operation).isFrozen u = true := by
  simp only [discards, Bool.and_eq_true, List.any_eq_true, Option.any_eq_true, Bool.not_eq_true',
    bne_iff_ne]
  refine and_congr_right fun _ => ?_
  constructor
  · rintro ⟨id, -, t, found, u, listed, t', found', ⟨fresh, differ⟩, frozen⟩
    exact ⟨id, t, u, t', found, listed, found', fresh, differ, frozen⟩
  · rintro ⟨id, t, u, t', found, listed, found', fresh, differ, frozen⟩
    exact ⟨id, mem_ids_of_complex? found, t, found, u, listed, t', found', ⟨fresh, differ⟩, frozen⟩

/-- If no super type is discarded that lists the type, nothing is stale after a freeze. -/
theorem NoStale.perform_of_isFreezing (h : r.NoStale) (freezing : operation.isFreezing = true)
    (kept : r.discards operation = false) : (r.perform operation).NoStale := by
  obtain ⟨s, order, listings, noStale, E⟩ := perform_freezesTo freezing r
  refine (noStale h).evolve E fun id t' u v' found' listed mem there' => ?_
  obtain ⟨t, found⟩ : ∃ t, r.complex? id = some t := by
    refine Option.isSome_iff_exists.1 ((listings.new id t' found').resolve_right fun bare => ?_)
    rw [bare] at listed
    cases listed
  obtain ⟨t₁, found₁, subTypes, instantiable, -⟩ := listings.old id t found
  obtain rfl := Option.some.inj (found'.symm.trans found₁)
  rw [subTypes] at listed
  obtain ⟨v, there, -⟩ := h id t found u listed
  obtain ⟨v₁, there₁, -, instantiable', frozen⟩ := listings.old u v there
  obtain rfl := Option.some.inj (there'.symm.trans there₁)
  have fresh : v'.isFrozen = false := by
    obtain ⟨v₁, declared, before, building⟩ := E.fresh u mem
    obtain rfl := TypeNode.complex.inj
      (Option.some.inj ((complex?_eq_some.1 there').symm.trans before))
    exact ComplexType.isFrozen_of_building building
  by_contra differ
  rw [instantiable, instantiable'] at differ
  have discarded := discards_eq_true.2 ⟨freezing, id, t, u, v, found, listed, there,
    frozen.symm.trans fresh, differ, E.isFrozen_of_mem mem⟩
  rw [kept] at discarded
  cases discarded

/-- And if one is discarded, an entry is stale. -/
theorem not_listsFrozenHeirs_of_discards (discarded : r.discards operation = true) :
    ¬ (r.perform operation).ListsFrozenHeirs := by
  obtain ⟨freezing, id, t, u, v, found, listed, there, fresh, differ, frozen⟩ :=
    discards_eq_true.1 discarded
  obtain ⟨s, order, listings, -, E⟩ := perform_freezesTo freezing r
  obtain ⟨t', found', subTypes, instantiable, -⟩ := listings.old id t found
  obtain ⟨v', there', -, instantiable', same⟩ := listings.old u v there
  have mem := E.mem_of_fresh (complex?_eq_some.1 there') (same.trans fresh) frozen
  rw [← subTypes] at listed
  rw [← instantiable, ← instantiable'] at differ
  exact E.stale_of_mem mem found' listed there' differ

/-! ### Runs -/

theorem NoStale.perform (h : r.NoStale) (reachable : r.Reachable)
    (unset : operation.setsSubTypes = false) (kept : r.discards operation = false) :
    (r.perform operation).NoStale := by
  cases freezing : operation.isFreezing with
  | true => exact h.perform_of_isFreezing freezing kept
  | false =>
    cases plain : operation.isPlain with
    | true =>
      by_cases other : ∀ id name, operation ≠ .rename id name
      · refine perform_keeps (operation.keeps_run_of_quietStep (fun step => step.noStale
          fun t registers => registers.subTypes_eq_nil unset) ?_ plain other) h
        intro freezing'
        cases freezing.symm.trans freezing'
      · push Not at other
        obtain ⟨id, name, rfl⟩ := other
        exact perform_keeps (Operation.keeps_run_rename fun ok h => h.rename ok) h
    | false =>
      cases operation with
      | setSubTypes => cases unset
      | copy id =>
        have tidy : r.IsTidy := ⟨h, reachable.isProper⟩
        have keeps : Edit.Keeps IsTidy (Operation.copy id).run :=
          Edit.keeps_map (Edit.keeps_isTidy_copy id)
        exact (perform_keeps keeps tidy).noStale
      | copyShallow id =>
        have keeps : Edit.Keeps NoStale (Operation.copyShallow id).run :=
          Edit.keeps_map (Edit.keeps_noStale_copyShallow id)
        exact perform_keeps keeps h
      | _ => cases plain

namespace Run

variable {c : SchemaConfig} {ids : List TypeId}

theorem noStale (run : Run c (fun r _ operation => operation.setsSubTypes = false ∧
    r.discards operation = false) r ids) : r.NoStale := by
  induction run with
  | start =>
    intro id t found
    exact absurd found (complex?_initial_ne_some _ id t)
  | perform run operation _ permitted ih =>
    exact ih.perform run.reachable permitted.1 permitted.2

/-- However types are copied, changed and frozen, a frozen type is listed by its super types only,
until an operation freezes a type that is listed by a super type that it is to lose; then it is
listed by that super type. -/
theorem listsFrozenHeirs (run : Run c (fun r _ operation => operation.setsSubTypes = false ∧
      r.discards operation = false) r ids) :
    r.ListsFrozenHeirs ∧ ∀ operation : Operation, operation.setsSubTypes = false →
      ((r.perform operation).ListsFrozenHeirs ↔ r.discards operation = false) := by
  constructor
  · exact run.noStale.frozenHeirs
  · intro operation unset
    constructor
    · intro heirs
      by_contra discarded
      exact not_listsFrozenHeirs_of_discards (eq_true_of_ne_false discarded) heirs
    · intro kept
      exact (run.noStale.perform run.reachable unset kept).frozenHeirs

end Run

/-- A type is copied before it is frozen; it extends one that may not agree with it in being
instantiable. -/
def copiedHeir (instantiable : Bool) : Repository :=
  [.addComplexType ⟨"", "A"⟩ true {}, .addComplexType ⟨"", "B"⟩ instantiable {},
    .addSuperType ⟨34⟩ ⟨33⟩, .copy ⟨34⟩].foldl perform (Session.start {}).repository

/-- As long as nothing is frozen, no super type is discarded. -/
theorem exists_run_copiedHeir (instantiable : Bool) : ∃ ids,
    Run {} (fun r _ operation => operation.setsSubTypes = false ∧ r.discards operation = false)
      (copiedHeir instantiable) ids := by
  refine Run.start.exists_foldl ?_ fun operation mem r ids => ?_
  · simp
  have quiet : operation.setsSubTypes = false ∧ operation.isFreezing = false := by
    revert mem operation
    simp [Operation.setsSubTypes, Operation.isFreezing, Operation.addComplexType, Annotations.type]
  rw [discards, quiet.2]
  exact ⟨quiet.1, rfl⟩

theorem listsFrozenHeirs_copiedHeir : ∃ ids,
    Run {} (fun r _ operation => operation.setsSubTypes = false ∧ r.discards operation = false)
      ((copiedHeir true).perform (.freeze ⟨35⟩)) ids ∧
    ((copiedHeir true).perform (.freeze ⟨35⟩)).ListsFrozenHeirs ∧
    ((copiedHeir true).perform (.freeze ⟨35⟩)).isFrozen ⟨35⟩ = true ∧
    ((copiedHeir true).perform (.freeze ⟨35⟩)).complexSubTypesOf ⟨33⟩ = [⟨35⟩] := by
  have kept : (copiedHeir true).discards (.freeze ⟨35⟩) = false := by
    rw [copiedHeir, Session.repository_start]
    cbv
  obtain ⟨ids, run⟩ := exists_run_copiedHeir true
  have run' := run.perform (.freeze ⟨35⟩) (by simp) ⟨rfl, kept⟩
  have copied : ((copiedHeir true).perform (.freeze ⟨35⟩)).isFrozen ⟨35⟩ = true ∧
      ((copiedHeir true).perform (.freeze ⟨35⟩)).complexSubTypesOf ⟨33⟩ = [⟨35⟩] := by
    rw [copiedHeir, Session.repository_start]
    cbv
  exact ⟨_, run', run'.listsFrozenHeirs.1, copied⟩

/-- A copy that is frozen may be listed by a type that it does not extend. -/
theorem not_listsFrozenHeirs : ¬ ∀ (c : SchemaConfig) (r : Repository) (ids : List TypeId),
    Run c (fun _ _ operation => operation.setsSubTypes = false) r ids → r.ListsFrozenHeirs := by
  intro heirs
  have discarded : (copiedHeir false).discards (.freeze ⟨35⟩) = true := by
    rw [copiedHeir, Session.repository_start]
    cbv
  obtain ⟨ids, run⟩ := exists_run_copiedHeir false
  have run' := (run.mono fun _ _ _ permitted => permitted.1).perform (.freeze ⟨35⟩) (by simp) rfl
  exact not_listsFrozenHeirs_of_discards discarded (heirs {} _ _ run')

end Repository

end EntityModel
