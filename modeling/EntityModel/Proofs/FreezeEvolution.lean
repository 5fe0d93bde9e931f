/-
Every freeze is an evolution.

All that a freeze does to the structure of a model can be read off `Evolves`, without
looking at the recursion:

* `Evolves.complete`, `Evolves.abort` — the freeze of one complex type, which reads as empty
  while other types are frozen;
* `FreezeRun.evolves` — so every run of the freeze is an evolution, whether it succeeds or
  fails, and if it succeeds the types are frozen;
* `FreezeRun.forall_mem_order` — only what the freeze pulls in is flattened.
-/
import EntityModel.Proofs.Evolution
import EntityModel.Proofs.FreezeRun

namespace EntityModel

namespace Repository

variable {r r₁ r₂ r' : Repository} {order order' : List TypeId} {id u : TypeId}

namespace Evolves

/-! ### The freeze of one complex type -/

section UnderWay

variable {t : ComplexType} {declared : TypeShape}

theorem instantiable_setLifecycle (lifecycle : Lifecycle) (s : TypeId) :
    ((r.setLifecycle id lifecycle).get? s).map (·.instantiable) =
      (r.get? s).map (·.instantiable) := by
  rw [get?_setLifecycle, Option.map_map]
  congr 1
  funext n
  by_cases same : s = id <;> cases n <;> simp [same, TypeNode.instantiable]

/-- What is frozen while the freeze of `id` is under way was being built before. -/
theorem fresh_of_begin (E : (r.setLifecycle id .freezing).Evolves order r₁)
    (found : r.get? id = some (.complex t)) (mem : u ∈ order) :
    u ≠ id ∧ r.keptBy u = (r.setLifecycle id .freezing).keptBy u ∧
      ∃ t declared, r.get? u = some (.complex t) ∧ t.lifecycle = .building declared := by
  have other : u ≠ id := by
    rintro rfl
    exact (E.get?_freezing (get?_setLifecycle_self _ found) rfl).2 mem
  obtain ⟨t', declared', found', building⟩ := E.fresh u mem
  rw [get?_setLifecycle_of_ne _ other] at found'
  refine ⟨other, ?_, t', declared', found', building⟩
  rw [Repository.keptBy, Repository.keptBy]
  rw [get?_setLifecycle_of_ne _ other, found']
  simp only [building]
  exact keptSuperTypes_congr fun s _ => (instantiable_setLifecycle .freezing s).symm

theorem preserves_of_ne (fresh : r₁.isFrozen id = false)
    (others : ∀ s, s ≠ id →
      (r₁.get? s).map (·.withoutSubTypes) = (r₂.get? s).map (·.withoutSubTypes))
    (instantiable : (r₁.get? id).map (·.instantiable) = (r₂.get? id).map (·.instantiable)) :
    Preserves r₁ r₂ where
  instantiable s := by
    by_cases same : s = id
    · rw [same, instantiable]
    · have view := congrArg (Option.map TypeNode.instantiable) (others s same)
      have blind : TypeNode.instantiable ∘ TypeNode.withoutSubTypes = TypeNode.instantiable :=
        funext fun n => by cases n <;> rfl
      simpa only [Option.map_map, blind] using view
  frozen s hs := by
    refine others s ?_
    rintro rfl
    rw [fresh] at hs
    cases hs

/-- The super types that a type keeps are known before its freeze begins. -/
theorem keptSuperTypes_begin (E : (r.setLifecycle id .freezing).Evolves order r₁)
    (instantiable : Bool) (superTypes : List TypeId) :
    r.keptSuperTypes instantiable superTypes = r₁.keptSuperTypes instantiable superTypes :=
  keptSuperTypes_congr fun s _ =>
    (instantiable_setLifecycle .freezing s).symm.trans (E.instantiable s)

/-- The freeze of `id` fails: the type is what it was. -/
theorem abort (E : (r.setLifecycle id .freezing).Evolves order r₁)
    (found : r.get? id = some (.complex t)) (building : t.lifecycle = .building declared) :
    r.Evolves order (r₁.setLifecycle id (.building declared)) := by
  obtain ⟨found₁, out⟩ := E.get?_freezing (get?_setLifecycle_self _ found) rfl
  have fresh : r₁.isFrozen id = false := isFrozen_of_get? found₁
  have p : Preserves r₁ (r₁.setLifecycle id (.building declared)) :=
    preserves_of_ne fresh (fun s other => by rw [get?_setLifecycle_of_ne _ other])
      (instantiable_setLifecycle _ id).symm
  exact
    { types := fun u => by
        by_cases same : u = id
        · subst same
          rw [found, get?_setLifecycle_self _ found₁]
          have restored : { t with lifecycle := .building declared } = t := by rw [← building]
          rw [restored]
          exact .some (.untouched (ComplexType.isFrozen_of_building building) out)
        · have related := E.types u
          rw [get?_setLifecycle_of_ne _ same] at related ⊢
          have whole := Evolution.rel_trans related (Evolution.rel_refl _) p
            (fun _ => E.isFrozen_of_mem) fun _ => E.superTypes_of_mem
          rwa [List.append_nil] at whole
      names := by
        rw [Repository.setLifecycle, names_adjust, E.names, Repository.setLifecycle, names_adjust]
      builtinNamespace := by
        rw [Repository.setLifecycle, builtinNamespace_adjust, E.builtinNamespace,
          Repository.setLifecycle, builtinNamespace_adjust]
      fresh := fun u mem => (E.fresh_of_begin found mem).2.2
      nodup := E.nodup
      -- what the other types keep does not depend on the lifecycle of `id`
      sorted := by
        refine E.sorted.imp_of_mem fun mem _ h => ?_
        rwa [(E.fresh_of_begin found mem).2.1]
      irreflexive := fun u mem => by
        rw [(E.fresh_of_begin found mem).2.1]
        exact E.irreflexive u mem }

section Complete

variable {flat : TypeShape}

theorem complexSuperTypesOf_complete (found : r.get? id = some (.complex t)) :
    (r.complete id flat).complexSuperTypesOf id = flat.superTypes := by
  rw [complexSuperTypesOf, complex?_eq_map (get?_complete flat), complex?_eq_some.2 found]
  simp [ComplexType.shape, Lifecycle.shape]

/-- The end of the freeze of `id` keeps what is frozen. -/
theorem preserves_complete (fresh : r.isFrozen id = false) :
    Preserves r (r.complete id flat) := by
  refine preserves_of_ne fresh (fun s other => ?_) ?_
  · rw [get?_complete, Option.map_map]
    congr 1
    funext n
    cases n <;> simp [other, TypeNode.withoutSubTypes]
  · rw [get?_complete, Option.map_map]
    congr 1
    funext n
    cases n <;> rfl

/-- The end of the freeze of `id`, as another type sees it. -/
theorem rel_complete (found : r.get? id = some (.complex t))
    (supers : ∀ s ∈ flat.superTypes, r.isFrozen s = true) (other : u ≠ id) :
    Option.Rel (Evolution (r.complete id flat) [id] u) (r.get? u)
      ((r.complete id flat).get? u) := by
  have own : (r.complete id flat).complexSuperTypesOf id = flat.superTypes :=
    complexSuperTypesOf_complete found
  rw [get?_complete]
  cases found' : r.get? u with
  | none => exact .none
  | some n =>
    refine .some ?_
    cases n with
    | simple t' => exact .simple fun h => h
    | complex t' =>
      cases frozen : t'.isFrozen with
      | true =>
        have joined : (r.complete id flat).joined [id] u t'.subTypes =
            if u ∈ flat.superTypes then appendNew t'.subTypes id else t'.subTypes := by
          by_cases mem : u ∈ flat.superTypes <;> simp [Repository.joined, own, mem]
        simp only [TypeNode.mapComplex_complex, other, if_false, ← joined]
        exact .extended frozen
      | false =>
        have out : u ∉ flat.superTypes := by
          intro mem
          have := supers u mem
          rw [isFrozen_of_get? found'] at this
          exact absurd (this.symm.trans frozen) (by simp)
        simp only [TypeNode.mapComplex_complex, other, out, if_false]
        exact .untouched frozen (by simpa using other)

end Complete

/-- The end of the freeze of `id`, as the type itself sees it. -/
theorem rel_complete_self {flat : TypeShape} (E : (r.setLifecycle id .freezing).Evolves order r₁)
    (found : r.get? id = some (.complex t)) (building : t.lifecycle = .building declared)
    (supers : ∀ s ∈ r₁.keptSuperTypes t.instantiable declared.superTypes, r₁.isFrozen s = true)
    (shape : r₁.flatten id t.instantiable declared = flat) :
    Option.Rel (Evolution (r₁.complete id flat) (order ++ [id]) id) (r.get? id)
      ((r₁.complete id flat).get? id) := by
  obtain ⟨found₁, -⟩ := E.get?_freezing (get?_setLifecycle_self _ found) rfl
  have fresh : r₁.isFrozen id = false := isFrozen_of_get? found₁
  have p : Preserves r₁ (r₁.complete id flat) := preserves_complete fresh
  have superTypes : ∀ s ∈ flat.superTypes, r₁.isFrozen s = true := fun s hs =>
    supers s (mem_superTypes_flatten (by rwa [shape]))
  have notOwn : id ∉ flat.superTypes := by
    intro mem
    have frozen := superTypes id mem
    rw [fresh] at frozen
    cases frozen
  -- the freeze computes from `r₁` what the evolution reads off the finished repository
  have whole : Evolution (r₁.complete id flat) (order ++ [id]) id (.complex t) _ :=
    .flattened (r₁.finalize id flat) building (by simp)
      fun s hs => p.isFrozen (supers s (by rwa [p.keptSuperTypes]))
  have alone : (r₁.complete id flat).joined [id] id t.subTypes = t.subTypes := by
    simp [joined, complexSuperTypesOf_complete found₁, notOwn]
  have subTypes : (r₁.complete id flat).joined (order ++ [id]) id t.subTypes = t.subTypes := by
    rw [joined_append fun _ hs => p.complexSuperTypesOf (E.isFrozen_of_mem hs),
      joined_eq_self (fun _ => E.superTypes_of_mem) fresh, alone]
  have keys : flat.primaryKeyInfo = declared.primaryKeyInfo := by
    rw [← shape, primaryKeyInfo_flatten]
  have lookups : flat.lookupFields = declared.lookupFields := by
    rw [← shape, lookupFields_flatten]
  rw [Repository.flattened, ← p.flatten supers, shape, ← p.usagesOf superTypes, subTypes] at whole
  rw [found, get?_complete, found₁]
  simpa [notOwn, keys, lookups] using Option.Rel.some whole

/-- The freeze of `id` succeeds: the type is flattened and comes last in the order. -/
theorem complete (E : (r.setLifecycle id .freezing).Evolves order r₁)
    (found : r.get? id = some (.complex t)) (building : t.lifecycle = .building declared)
    (supers : ∀ s ∈ r.keptSuperTypes t.instantiable declared.superTypes,
      r₁.isFrozen s = true) :
    r.Evolves (order ++ [id]) (r₁.complete id (r₁.flatten id t.instantiable declared)) := by
  obtain ⟨found₁, out⟩ := E.get?_freezing (get?_setLifecycle_self _ found) rfl
  have fresh : r₁.isFrozen id = false := isFrozen_of_get? found₁
  have kept := E.keptSuperTypes_begin t.instantiable declared.superTypes
  rw [kept] at supers
  generalize shape : r₁.flatten id t.instantiable declared = flat
  have superTypes : ∀ s ∈ flat.superTypes, r₁.isFrozen s = true := fun s hs =>
    supers s (mem_superTypes_flatten (by rwa [shape]))
  have p : Preserves r₁ (r₁.complete id flat) := preserves_complete fresh
  exact
    { -- the type itself is flattened, others change as before and perhaps get a subtype
      types := fun u => by
        by_cases same : u = id
        · subst same
          exact E.rel_complete_self found building supers shape
        · have related := E.types u
          rw [get?_setLifecycle_of_ne _ same] at related
          exact Evolution.rel_trans related (rel_complete found₁ superTypes same) p
            (fun _ => E.isFrozen_of_mem) fun _ => E.superTypes_of_mem
      names := by
        rw [(index_complete flat).1, E.names, Repository.setLifecycle, names_adjust]
      builtinNamespace := by
        rw [(index_complete flat).2, E.builtinNamespace, Repository.setLifecycle,
          builtinNamespace_adjust]
      fresh := fun u mem => by
        rcases List.mem_append.1 mem with mem | mem
        · exact (E.fresh_of_begin found mem).2.2
        · obtain rfl : u = id := by simpa using mem
          exact ⟨t, declared, found, building⟩
      nodup := by
        refine List.nodup_append.2 ⟨E.nodup, by simp, fun u mem v mem' => ?_⟩
        obtain rfl : v = id := by simpa using mem'
        exact (E.fresh_of_begin found mem).1
      -- no earlier type keeps `id`: the types that it keeps are frozen, and `id` was not
      sorted := by
        refine List.pairwise_append.2 ⟨?_, by simp, fun u mem v mem' keeps => ?_⟩
        · refine E.sorted.imp_of_mem fun mem _ h => ?_
          rwa [(E.fresh_of_begin found mem).2.1]
        · obtain rfl : v = id := by simpa using mem'
          rw [(E.fresh_of_begin found mem).2.1] at keeps
          have frozen := E.keptBy_of_mem mem v keeps
          rw [fresh] at frozen
          cases frozen
      irreflexive := fun u mem => by
        rcases List.mem_append.1 mem with mem | mem
        · rw [(E.fresh_of_begin found mem).2.1]
          exact E.irreflexive u mem
        · obtain rfl : u = id := by simpa using mem
          intro keeps
          have keeps : u ∈ r₁.keptSuperTypes t.instantiable declared.superTypes := by
            rw [← kept]
            simpa [Repository.keptBy, found, building] using keeps
          have frozen := supers u keeps
          rw [fresh] at frozen
          cases frozen }

end UnderWay

end Evolves

end Repository

open Repository

/-- Every run of the freeze is an evolution; if it succeeds, the types are frozen. -/
theorem FreezeRun.evolves {ids order : List TypeId} {r r' : Repository}
    {out : Except ModelError Unit} (run : FreezeRun ids r order out r') :
    r.Evolves order r' ∧ (out = .ok () → ∀ id ∈ ids, r'.isFrozen id = true) := by
  -- a rule's premises are runs, and their evolutions are put together in the order of the rule
  induction run with
  | nil => exact ⟨.refl _, by simp⟩
  | unknown => exact ⟨.refl _, nofun⟩
  | frozen done _ ih =>
    refine ⟨ih.1, fun ok => ?_⟩
    simpa using ⟨ih.1.preserves.isFrozen done, ih.2 ok⟩
  | simpleError found _ _ ih => exact ⟨(Evolves.markFrozen found).trans ih.1, nofun⟩
  | simple found _ _ _ ih ih' =>
    have whole := ((Evolves.markFrozen found).trans ih.1).trans ih'.1
    refine ⟨whole, fun ok => ?_⟩
    have done := (ih.1.trans ih'.1).preserves.isFrozen (isFrozen_markFrozen found)
    simpa using ⟨done, ih'.2 ok⟩
  | cyclic => exact ⟨.refl _, nofun⟩
  | missing => exact ⟨.refl _, nofun⟩
  | complexError found building _ _ ih =>
    -- what was frozen before the failure stays frozen
    exact ⟨ih.1.abort found building, nofun⟩
  | complex found building _ _ _ ih ih' =>
    have whole := ih.1.complete found building (ih.2 rfl)
    refine ⟨by simpa using whole.trans ih'.1, fun ok => ?_⟩
    have done := ih'.1.preserves.isFrozen
      (whole.isFrozen_of_mem (List.mem_append_right _ List.mem_cons_self))
    simpa using ⟨done, ih'.2 ok⟩

namespace Repository

/-- The types that the freeze of a type freezes first. -/
def pulls (r : Repository) (id : TypeId) : List TypeId :=
  match r.get? id with
  | some (.simple t) => if t.isFrozen then [] else t.superTypes
  | _ => r.keptBy id

variable {r r' : Repository} {order : List TypeId} {id u v : TypeId}

theorem pulls_of_isFrozen (frozen : r.isFrozen u = true) : r.pulls u = [] := by
  obtain ⟨n, found, done⟩ := exists_get?_of_isFrozen frozen
  rw [pulls, found]
  cases n with
  | simple t => exact if_pos done
  | complex t =>
    simp only [keptBy, found]
    split
    · next declared building =>
      exact absurd building (ComplexType.not_building_of_isFrozen done declared)
    · rfl

theorem Evolves.pulls_subset (E : r.Evolves order r') (h : v ∈ r'.pulls u) : v ∈ r.pulls u := by
  cases frozen : r'.isFrozen u with
  | true =>
    rw [pulls_of_isFrozen frozen] at h
    cases h
  | false =>
    cases found : r.get? u with
    | none =>
      rw [pulls, E.get?_none.2 found, Repository.keptBy, E.get?_none.2 found] at h
      cases h
    | some n =>
      obtain ⟨n', found', evolution⟩ := E.get? found
      rw [isFrozen_of_get? found'] at frozen
      rw [pulls, found'] at h
      rw [pulls, found]
      -- what is not frozen after the run has not changed in what it pulls
      cases evolution with
      | @simple t isFrozen kept =>
        obtain rfl : isFrozen = false := frozen
        cases marked : t.isFrozen with
        | true => cases kept marked
        | false => simpa [marked] using h
      | extended done => cases done.symm.trans frozen
      | flattened => cases frozen
      | @untouched t =>
        simp only [Repository.keptBy, found, found'] at h ⊢
        cases lifecycle : t.lifecycle with
        | building declared =>
          simp only [lifecycle] at h ⊢
          rwa [E.preserves.keptSuperTypes]
        | freezing | frozen => simp [lifecycle] at h

theorem pulls_setLifecycle {t : ComplexType} (found : r.get? id = some (.complex t))
    (h : v ∈ (r.setLifecycle id .freezing).pulls u) : v ∈ r.pulls u := by
  by_cases same : u = id
  · subst same
    simp [pulls, keptBy, get?_setLifecycle_self _ found] at h
  · have kept : (r.setLifecycle id .freezing).pulls u = r.pulls u := by
      rw [pulls, pulls, keptBy, keptBy, get?_setLifecycle_of_ne _ same]
      have supers : ∀ (b : Bool) (l : List TypeId),
          (r.setLifecycle id .freezing).keptSuperTypes b l = r.keptSuperTypes b l :=
        fun b l => keptSuperTypes_congr fun s _ => Evolves.instantiable_setLifecycle .freezing s
      simp only [supers]
    rwa [kept] at h

end Repository

/-- What is flattened belongs to every set of types that contains what is asked for and with
a type what its freeze pulls in. -/
theorem FreezeRun.forall_mem_order {C : TypeId → Prop} {ids order : List TypeId}
    {r r' : Repository} {out : Except ModelError Unit} (run : FreezeRun ids r order out r')
    (closed : ∀ u, C u → ∀ v ∈ r.pulls u, C v) (start : ∀ id ∈ ids, C id) :
    ∀ u ∈ order, C u := by
  -- types pull no more later in the run than at its start, so the set stays closed
  induction run with
  | nil | unknown | cyclic | missing => exact fun _ mem => nomatch mem
  | frozen _ _ ih => exact ih closed fun id mem => start id (List.mem_cons_of_mem _ mem)
  | simpleError found fresh supers ih =>
    have E := Evolves.markFrozen found
    refine ih (fun u hu v hv => closed u hu v (E.pulls_subset hv)) fun v hv => ?_
    exact closed _ (start _ List.mem_cons_self) v (by simpa [pulls, found, fresh] using hv)
  | simple found fresh supers _ ih ih' =>
    have E := Evolves.markFrozen found
    have E' := E.trans supers.evolves.1
    refine List.forall_mem_append.2 ⟨ih (fun u hu v hv => closed u hu v (E.pulls_subset hv))
      fun v hv => ?_, ih' (fun u hu v hv => closed u hu v (E'.pulls_subset hv))
        fun id mem => start id (List.mem_cons_of_mem _ mem)⟩
    exact closed _ (start _ List.mem_cons_self) v (by simpa [pulls, found, fresh] using hv)
  | complexError found building known supers ih =>
    refine ih (fun u hu v hv => closed u hu v (pulls_setLifecycle found hv)) fun v hv => ?_
    exact closed _ (start _ List.mem_cons_self) v
      (by simpa [pulls, keptBy, found, building] using hv)
  | complex found building known supers _ ih ih' =>
    have here := start _ List.mem_cons_self
    obtain ⟨E, done⟩ := supers.evolves
    have E' := E.complete found building (done rfl)
    refine List.forall_mem_append.2 ⟨ih (fun u hu v hv =>
      closed u hu v (pulls_setLifecycle found hv)) fun v hv => ?_,
      List.forall_mem_cons.2 ⟨here, ih' (fun u hu v hv => closed u hu v (E'.pulls_subset hv))
        fun id mem => start id (List.mem_cons_of_mem _ mem)⟩⟩
    exact closed _ here v (by simpa [pulls, keptBy, found, building] using hv)

end EntityModel
