/-
What a freeze leaves alone.

A freeze works on many types and may fail halfway.  Whatever comes of it, no type is left half
changed (`FreezeEffect`):

* `Evolves.get?_of_not_isFrozen` — a type that is not frozen afterwards is what it was;
* `Evolves.exists_subTypes_of_isFrozen` — a type that was frozen before has only got subtypes;
* `FreezeRun.get?_eq_of_not_mem` — what is not reached through super types is what it was.

No operation starts while a freeze is under way (`Reachable.isIdle`).
-/
import EntityModel.Proofs.FinalTypes
import EntityModel.Proofs.FreezeOrder

namespace EntityModel

namespace Repository

variable {r r₁ r' : Repository} {order : List TypeId} {id u v : TypeId} {t t' : ComplexType}

/-- The type and what is reached from it through super types. -/
def above (r : Repository) (id : TypeId) : Set TypeId :=
  {u | Relation.ReflTransGen (fun u v => v ∈ r.superTypesOf u) id u}

/-- The freeze of no type is under way. -/
def IsIdle (r : Repository) : Prop :=
  ∀ u t, r.complex? u = some t → t.lifecycle ≠ .freezing

/-- What a freeze of the type at `id` can do to a repository, whatever comes of it. -/
structure FreezeEffect (r : Repository) (id : TypeId) (r' : Repository) : Prop where
  /-- No type is left with its shape taken out. -/
  idle : r'.IsIdle
  /-- A type of either sort that is not frozen afterwards is what it was. -/
  unfrozen : ∀ u n, r'.get? u = some n → n.isFrozen = false → r.get? u = some n
  /-- A complex type that was frozen before has only got subtypes, which are newly frozen. -/
  frozen : ∀ u t, r.complex? u = some t → t.isFrozen = true → ∃ added,
    r'.complex? u = some { t with subTypes := t.subTypes ++ added } ∧
      ∀ v ∈ added, r.isFrozen v = false ∧ r'.isFrozen v = true
  /-- Types of either sort that are not reached through super types do not change. -/
  unreached : ∀ u, u ∉ r.above id → r'.get? u = r.get? u
  size : r'.types.size = r.types.size
  names : r'.names = r.names
  builtinNamespace : r'.builtinNamespace = r.builtinNamespace

/-- No operation leaves the freeze of a type under way. -/
theorem Reachable.isIdle (h : r.Reachable) : r.IsIdle := by
  intro u t found underWay
  have sound := h.isSound u t found
  rw [underWay] at sound
  exact sound

/-! ### Types that are not frozen, and types that were -/

theorem Evolves.get?_of_not_isFrozen (E : r.Evolves order r') {n : TypeNode}
    (found' : r'.get? u = some n) (fresh : n.isFrozen = false) : r.get? u = some n := by
  have related := E.types u
  rw [found'] at related
  generalize r.get? u = before at related ⊢
  cases related with
  | some evolution =>
    cases evolution with
    | @simple t isFrozen kept =>
      -- it is not marked, so it was not marked before
      obtain rfl : isFrozen = false := fresh
      cases marked : t.isFrozen with
      | true => cases kept marked
      | false => rw [← marked]
    | untouched => rfl
    | extended done => exact absurd (done.symm.trans fresh) (by simp)
    | flattened => cases fresh

/-- A type of the order is newly frozen. -/
theorem Evolves.newly_of_mem (E : r.Evolves order r') (mem : u ∈ order) :
    r.isFrozen u = false ∧ r'.isFrozen u = true := by
  obtain ⟨t, declared, found, building⟩ := E.fresh u mem
  refine ⟨?_, E.isFrozen_of_mem mem⟩
  rw [isFrozen_of_get? found]
  exact ComplexType.isFrozen_of_building building

theorem Evolves.exists_subTypes_of_isFrozen (E : r.Evolves order r')
    (found : r.complex? u = some t) (frozen : t.isFrozen = true) : ∃ added,
    r'.complex? u = some { t with subTypes := t.subTypes ++ added } ∧
      ∀ v ∈ added, r.isFrozen v = false ∧ r'.isFrozen v = true := by
  obtain ⟨added, eq, sub⟩ := exists_foldl_appendNew_eq
    (order.filter fun s => u ∈ r'.complexSuperTypesOf s) t.subTypes
  refine ⟨added, ?_, fun v hv => E.newly_of_mem (List.mem_filter.1 (sub v hv)).1⟩
  rw [E.complex?_of_isFrozen found frozen, joined, eq]

theorem Evolves.isIdle (E : r.Evolves order r') (idle : r.IsIdle) : r'.IsIdle := by
  intro u t found' underWay
  have found := E.get?_of_not_isFrozen (complex?_eq_some.1 found')
    (ComplexType.isFrozen_of_freezing underWay)
  exact idle u t (complex?_eq_some.2 found) underWay

/-! ### Types that are not reached -/

theorem mem_superTypesOf_of_mem_pulls (h : v ∈ r.pulls u) : v ∈ r.superTypesOf u := by
  rw [pulls] at h
  rw [superTypesOf]
  cases found : r.get? u with
  | none => simp [found, keptBy] at h
  | some n =>
    cases n with
    | simple t =>
      rw [found] at h
      dsimp only at h
      split at h
      · cases h
      · exact h
    | complex t =>
      simp only [found, keptBy] at h
      show v ∈ t.lifecycle.shape.superTypes
      cases lifecycle : t.lifecycle with
      | building declared =>
        rw [lifecycle] at h
        exact mem_keptSuperTypes h
      | freezing | frozen => simp [lifecycle] at h

/-- The end of a freeze reaches the type itself and its super types. -/
theorem get?_complete_of_not_mem {flat : TypeShape} (other : u ≠ id)
    (out : u ∉ flat.superTypes) : (r.complete id flat).get? u = r.get? u := by
  rw [get?_complete]
  simp only [other, out, if_false]
  cases r.get? u with
  | none => rfl
  | some n => exact congrArg some (TypeNode.mapComplex_id n)

end Repository

open Repository

/-- What is outside a set of types that contains what is asked for, and with a type what its
freeze pulls in, does not change. -/
theorem FreezeRun.get?_eq_of_not_mem {C : TypeId → Prop} {ids order : List TypeId}
    {r r' : Repository} {out : Except ModelError Unit} (run : FreezeRun ids r order out r')
    (closed : ∀ u, C u → ∀ v ∈ r.pulls u, C v) (start : ∀ id ∈ ids, C id) {u : TypeId}
    (outside : ¬ C u) : r'.get? u = r.get? u := by
  have other : ∀ {id}, C id → u ≠ id := fun here same => outside (same ▸ here)
  -- the set stays closed along the run, for types pull no more later than at its start
  induction run with
  | nil | unknown | cyclic | missing => rfl
  | frozen _ _ ih => exact ih closed fun id mem => start id (List.mem_cons_of_mem _ mem)
  | @simpleError id _ r t _ _ _ found fresh supers ih =>
    have E := Evolves.markFrozen found
    have here := start id List.mem_cons_self
    rw [ih (fun u hu v hv => closed u hu v (E.pulls_subset hv)) fun v hv =>
      closed id here v (by simpa [pulls, found, fresh] using hv)]
    exact get?_markFrozen t (other here)
  | @simple id _ r t _ _ _ _ _ found fresh supers _ ih ih' =>
    have E := Evolves.markFrozen found
    have E' := E.trans supers.evolves.1
    have here := start id List.mem_cons_self
    rw [ih' (fun u hu v hv => closed u hu v (E'.pulls_subset hv)) fun id mem =>
        start id (List.mem_cons_of_mem _ mem),
      ih (fun u hu v hv => closed u hu v (E.pulls_subset hv)) fun v hv =>
        closed id here v (by simpa [pulls, found, fresh] using hv)]
    exact get?_markFrozen t (other here)
  | @complexError id _ r t declared _ _ r₁ found building known supers ih =>
    have here := start id List.mem_cons_self
    rw [get?_setLifecycle_of_ne _ (other here), ih (fun u hu v hv =>
        closed u hu v (pulls_setLifecycle found hv)) fun v hv =>
      closed id here v (by simpa [pulls, keptBy, found, building] using hv)]
    exact get?_setLifecycle_of_ne _ (other here)
  | @complex id _ r t declared _ r₁ _ _ _ found building known supers _ ih ih' =>
    have here := start id List.mem_cons_self
    obtain ⟨E, done⟩ := supers.evolves
    have E' := E.complete found building (done rfl)
    have kept : ∀ v ∈ r.keptSuperTypes t.instantiable declared.superTypes, C v := fun v hv =>
      closed id here v (by simpa [pulls, keptBy, found, building] using hv)
    have out : u ∉ (r₁.flatten id t.instantiable declared).superTypes := by
      intro super
      refine outside (kept u ?_)
      rw [E.keptSuperTypes_begin]
      exact mem_superTypes_flatten super
    rw [ih' (fun u hu v hv => closed u hu v (E'.pulls_subset hv)) fun id mem =>
        start id (List.mem_cons_of_mem _ mem),
      get?_complete_of_not_mem (other here) out,
      ih (fun u hu v hv => closed u hu v (pulls_setLifecycle found hv)) kept]
    exact get?_setLifecycle_of_ne _ (other here)

/-- However the freeze of a type ends, it leaves no type half changed. -/
theorem Edit.freeze_effect {m : Model} (idle : m.repository.IsIdle) (id : TypeId) :
    (Edit.freeze id).Yields m fun _ m' => FreezeEffect m.repository id m'.repository := by
  refine (freeze_run id m).mono fun out m' => ?_
  rintro ⟨order, run⟩
  have E := run.evolves.1
  exact
    { idle := E.isIdle idle
      unfrozen := fun u n found' fresh => E.get?_of_not_isFrozen found' fresh
      frozen := fun u t found frozen => E.exists_subTypes_of_isFrozen found frozen
      unreached := fun u out => by
        refine run.get?_eq_of_not_mem (C := (· ∈ m.repository.above id)) ?_ ?_ out
        · intro u here v pulled
          exact .tail here (mem_superTypesOf_of_mem_pulls pulled)
        · intro v mem
          obtain rfl := List.mem_singleton.1 mem
          exact .refl
      size := E.size
      names := E.names
      builtinNamespace := E.builtinNamespace }

/-- An heir of a base and of a type whose super type does not exist. -/
def brokenHeir : Repository :=
  [.addComplexType ⟨"", "Base"⟩ true {},
    .addComplexType ⟨"", "Broken"⟩ true {},
    .addComplexType ⟨"", "Heir"⟩ true {},
    .addSuperType ⟨34⟩ ⟨99⟩, .addSuperType ⟨35⟩ ⟨33⟩,
    .addSuperType ⟨35⟩ ⟨34⟩].foldl perform (Session.start {}).repository

theorem reachable_brokenHeir : brokenHeir.Reachable :=
  Reachable.foldl_perform (.start {}) (by simp)

/-- The freeze of the heir fails after that of the base, which stays frozen. -/
theorem freeze_effect_brokenHeir : brokenHeir.IsIdle ∧ ∃ m',
    Edit.freeze ⟨35⟩ ⟨brokenHeir, []⟩ = .error (.unknownType ⟨99⟩) m' ∧
      m'.repository.isFrozen ⟨33⟩ = true ∧ m'.repository.isFrozen ⟨35⟩ = false ∧
      FreezeEffect brokenHeir ⟨35⟩ m'.repository := by
  have idle := reachable_brokenHeir.isIdle
  have fails : ((Edit.freeze ⟨35⟩).failure? ⟨brokenHeir, []⟩).any (fun (e, m') =>
      e = .unknownType ⟨99⟩ ∧ m'.repository.isFrozen ⟨33⟩ = true ∧
        m'.repository.isFrozen ⟨35⟩ = false) = true := by
    rw [brokenHeir, Session.repository_start]
    cbv
  obtain ⟨⟨e, m'⟩, run, ends⟩ := (Option.any_eq_true _ _).1 fails
  obtain ⟨rfl, base, heir⟩ := of_decide_eq_true ends
  have run := Edit.failure?_eq_some.1 run
  have effect := Edit.freeze_effect (m := ⟨brokenHeir, []⟩) idle ⟨35⟩
  exact ⟨idle, m', run, base, heir, effect.of_error run⟩

end EntityModel
