/-
Entities.

The entity of a type is where the way ends that leads from it to the type that contains it, and so
on.  The way is told step by step (`Repository.Climbs`):

* `entity_eq_iff_climbs` — it ends, on cycles too, and the entity is where it ends;
* `Climbs.exists_outermost` — without a cycle, that is a type without container;
* `Climbs.congr` — nothing counts but the types on the way.
-/
import EntityModel.Proofs.DepthFirst
import EntityModel.Proofs.Views

namespace EntityModel

namespace Repository

/-- A field of the type `v` embeds the complex type `u`. -/
def IsContainedIn (r : Repository) (u v : TypeId) : Prop :=
  ∃ t c, r.complex? u = some t ∧ t.container = some c ∧ c.containingType = v

/-- The type, the type that contains it, and so on. -/
def containerChain (r : Repository) (id : TypeId) : Set TypeId :=
  {x | Relation.ReflTransGen r.IsContainedIn id x}

/-- From `x`, where the types in `seen` were passed, the way leads to `a`: it goes on to the type
that contains `x`, unless there is none or that was passed before. -/
inductive Climbs (r : Repository) : (seen : List TypeId) → (x : TypeId) →
    (a : Except ModelError TypeId) → Prop
  | lost {seen x e} (unfit : r.complex x = .error e) : Climbs r seen x (.error e)
  | outermost {seen x t} (found : r.complex x = .ok t) (free : t.container = none) :
      Climbs r seen x (.ok x)
  | again {seen x t c} (found : r.complex x = .ok t) (inside : t.container = some c)
      (passed : c.containingType ∈ seen) : Climbs r seen x (.ok x)
  | up {seen x t c a} (found : r.complex x = .ok t) (inside : t.container = some c)
      (fresh : c.containingType ∉ seen)
      (rest : Climbs r (c.containingType :: seen) c.containingType a) : Climbs r seen x a

variable {r r' : Repository} {id x y : TypeId} {seen seen' : List TypeId} {t : ComplexType}
variable {a : Except ModelError TypeId}

theorem complex?_congr (same : r'.get? x = r.get? x) : r'.complex? x = r.complex? x := by
  rw [complex?, complex?, same]

theorem complex_congr (same : r'.get? x = r.get? x) : r'.complex x = r.complex x := by
  rw [complex, complex, same]

/-- There is no more than one way. -/
theorem Climbs.unique {a' : Except ModelError TypeId} (h : r.Climbs seen x a)
    (h' : r.Climbs seen x a') : a' = a := by
  induction h with
  | lost unfit =>
    cases h' with
    | lost unfit' => exact congrArg _ (Except.error.inj (unfit'.symm.trans unfit))
    | outermost found _ | again found _ _ | up found _ _ _ => cases unfit.symm.trans found
  | outermost found free =>
    cases h' with
    | lost unfit => cases unfit.symm.trans found
    | outermost _ _ => rfl
    | again found' inside _ | up found' inside _ _ =>
      obtain rfl := Except.ok.inj (found.symm.trans found')
      cases free.symm.trans inside
  | again found inside passed =>
    cases h' with
    | lost unfit => cases unfit.symm.trans found
    | outermost _ _ | again _ _ _ => rfl
    | up found' inside' fresh _ =>
      obtain rfl := Except.ok.inj (found.symm.trans found')
      obtain rfl := Option.some.inj (inside.symm.trans inside')
      exact absurd passed fresh
  | up found inside fresh _ ih =>
    cases h' with
    | lost unfit => cases unfit.symm.trans found
    | outermost found' free =>
      obtain rfl := Except.ok.inj (found.symm.trans found')
      cases free.symm.trans inside
    | again found' inside' passed =>
      obtain rfl := Except.ok.inj (found.symm.trans found')
      obtain rfl := Option.some.inj (inside.symm.trans inside')
      exact absurd passed fresh
    | up found' inside' _ rest =>
      obtain rfl := Except.ok.inj (found.symm.trans found')
      obtain rfl := Option.some.inj (inside.symm.trans inside')
      exact ih rest

theorem containingTypesOf_eq (found : r.complex? x = some t) :
    r.containingTypesOf x = (t.container.map (·.containingType)).toList := by
  rw [containingTypesOf, found, Option.bind_some]
  cases t.container <;> rfl

theorem mem_containingTypesOf_iff : y ∈ r.containingTypesOf x ↔ r.IsContainedIn x y := by
  rw [IsContainedIn]
  cases found : r.complex? x with
  | none => simp [containingTypesOf, found]
  | some t =>
    rw [containingTypesOf_eq found]
    cases inside : t.container <;> simp [inside, eq_comm]

theorem mem_ids_of_mem_containingTypesOf (h : y ∈ r.containingTypesOf x) : x ∈ r.ids := by
  obtain ⟨t, -, found, -⟩ := mem_containingTypesOf_iff.1 h
  exact mem_ids_of_complex? found

/-- The list of the containing types is gone through as the way goes, to where it ends. -/
theorem climbs_foldlM {seen : List TypeId} {x : TypeId} (fresh : x ∉ seen) (start : TypeId) :
    r.Climbs (x :: seen) x ((visit r.ids r.containingTypesOf seen [x]).foldlM
      (fun _ container => do
        let _ ← r.complex container
        return container) start) := by
  have edges : ∀ u v, v ∈ r.containingTypesOf u → u ∈ r.ids :=
    fun _ _ => mem_ids_of_mem_containingTypesOf
  rw [visit_cons edges fresh, visit.eq_1 _ _ (_ ++ _), List.append_nil, List.foldlM_cons]
  cases found : r.complex x with
  | error e => exact .lost found
  | ok t =>
    rw [containingTypesOf_eq (complex_eq_ok_iff.1 found)]
    cases inside : t.container with
    | none =>
      rw [Option.map_none, Option.toList_none, visit]
      exact .outermost found inside
    | some c =>
      rw [Option.map_some, Option.toList_some]
      by_cases passed : c.containingType ∈ x :: seen
      · rw [visit, if_pos passed, visit]
        exact .again found inside passed
      · exact .up found inside passed (climbs_foldlM passed x)
termination_by (unseen r.ids seen).length
decreasing_by
  exact length_unseen_cons_lt (mem_ids_of_complex? (complex_eq_ok_iff.1 found)) fresh

/-- The entity of a type is where its way ends. -/
theorem entity_eq_iff_climbs : r.entity id = a ↔ r.Climbs [id] id a := by
  have climbs : r.Climbs [id] id (r.entity id) := climbs_foldlM List.not_mem_nil id
  constructor
  · rintro rfl
    exact climbs
  · exact fun h => h.unique climbs

/-- A way depends only on the types to which it leads, and on which of them were passed. -/
theorem Climbs.congr (h : r.Climbs seen x a)
    (same : ∀ u ∈ r.containerChain x, r'.get? u = r.get? u)
    (passed : ∀ u ∈ r.containerChain x, u ∈ seen' ↔ u ∈ seen) : r'.Climbs seen' x a := by
  induction h generalizing seen' with
  | lost unfit => exact .lost ((complex_congr (same _ .refl)).trans unfit)
  | outermost found free => exact .outermost ((complex_congr (same _ .refl)).trans found) free
  | again found inside here =>
    refine .again ((complex_congr (same _ .refl)).trans found) inside ((passed _ ?_).2 here)
    exact .single ⟨_, _, complex_eq_ok_iff.1 found, inside, rfl⟩
  | @up seen x t c a found inside fresh _ ih =>
    have edge : r.IsContainedIn x c.containingType :=
      ⟨t, c, complex_eq_ok_iff.1 found, inside, rfl⟩
    refine .up ((complex_congr (same _ .refl)).trans found) inside
      (fun mem => fresh ((passed _ (.single edge)).1 mem)) (ih ?_ ?_)
    · exact fun u path => same u (.head edge path)
    · intro u path
      rw [List.mem_cons, List.mem_cons, passed u (.head edge path)]

/-- Along complex types that do not contain themselves, the way ends at a type without
container. -/
theorem Climbs.exists_outermost (h : r.Climbs seen x a)
    (complete : ∀ u ∈ r.containerChain x, (r.complex? u).isSome)
    (acyclic : ∀ u ∈ r.containerChain x, ¬ Relation.TransGen r.IsContainedIn u u)
    (passed : ∀ u ∈ seen, Relation.ReflTransGen r.IsContainedIn u x) :
    ∃ top t, a = .ok top ∧ top ∈ r.containerChain x ∧ r.complex? top = some t ∧
      t.container = none := by
  induction h with
  | lost unfit =>
    obtain ⟨t, found⟩ := Option.isSome_iff_exists.1 (complete _ .refl)
    cases unfit.symm.trans (complex_eq_ok_iff.2 found)
  | @outermost _ x t found free => exact ⟨x, t, rfl, .refl, complex_eq_ok_iff.1 found, free⟩
  | @again _ x t c found inside here =>
    have edge : r.IsContainedIn x c.containingType :=
      ⟨t, c, complex_eq_ok_iff.1 found, inside, rfl⟩
    exact absurd (.head' edge (passed _ here)) (acyclic x .refl)
  | @up seen x t c a found inside _ _ ih =>
    have edge : r.IsContainedIn x c.containingType :=
      ⟨t, c, complex_eq_ok_iff.1 found, inside, rfl⟩
    -- what was passed leads to `x`, and on to what contains it
    have passed' : ∀ u ∈ c.containingType :: seen,
        Relation.ReflTransGen r.IsContainedIn u c.containingType := by
      intro u mem
      rcases List.mem_cons.1 mem with rfl | mem
      · exact .refl
      · exact (passed u mem).tail edge
    have complete' : ∀ u ∈ r.containerChain c.containingType, (r.complex? u).isSome :=
      fun u path => complete u (.head edge path)
    have acyclic' : ∀ u ∈ r.containerChain c.containingType,
        ¬ Relation.TransGen r.IsContainedIn u u :=
      fun u path => acyclic u (.head edge path)
    obtain ⟨top, t', leads, mem, outermost⟩ := ih complete' acyclic' passed'
    exact ⟨top, t', leads, .head edge mem, outermost⟩

/-- What contains the type is complex, as the type is, and none of it contains itself. -/
structure IsRooted (r : Repository) (id : TypeId) : Prop where
  complete : ∀ u ∈ r.containerChain id, (r.complex? u).isSome
  acyclic : ∀ u ∈ r.containerChain id, ¬ Relation.TransGen r.IsContainedIn u u

theorem containerChain_of_nil (free : r.containingTypesOf x = []) : r.containerChain x = {x} := by
  ext u
  constructor
  · intro path
    rcases Relation.ReflTransGen.cases_head path with rfl | ⟨v, edge, -⟩
    · rfl
    · rw [← mem_containingTypesOf_iff, free] at edge
      cases edge
  · rintro rfl
    exact .refl

theorem containerChain_of_singleton (inside : r.containingTypesOf x = [y]) :
    r.containerChain x = insert x (r.containerChain y) := by
  have edge : r.IsContainedIn x y := by
    rw [← mem_containingTypesOf_iff, inside]
    exact List.mem_singleton_self y
  ext u
  constructor
  · intro path
    rcases Relation.ReflTransGen.cases_head path with rfl | ⟨v, first, rest⟩
    · exact .inl rfl
    · rw [← mem_containingTypesOf_iff, inside, List.mem_singleton] at first
      exact .inr (first ▸ rest)
  · rintro (rfl | path)
    · exact .refl
    · exact .head edge path

namespace IsRooted

theorem of_nil (complete : (r.complex? x).isSome) (free : r.containingTypesOf x = []) :
    r.IsRooted x := by
  have chain := containerChain_of_nil free
  constructor
  · intro u path
    rw [chain] at path
    exact path ▸ complete
  · intro u path cycle
    rw [chain] at path
    obtain rfl : u = x := path
    obtain ⟨v, edge, -⟩ := Relation.TransGen.head'_iff.1 cycle
    rw [← mem_containingTypesOf_iff, free] at edge
    cases edge

/-- A type is as its container is, unless that leads back to it. -/
theorem of_singleton (complete : (r.complex? x).isSome) (inside : r.containingTypesOf x = [y])
    (rooted : r.IsRooted y) (fresh : x ∉ r.containerChain y) : r.IsRooted x := by
  have chain := containerChain_of_singleton inside
  constructor
  · intro u path
    rw [chain] at path
    rcases path with rfl | path
    · exact complete
    · exact rooted.complete u path
  · intro u path cycle
    rw [chain] at path
    rcases path with rfl | path
    · obtain ⟨v, edge, back⟩ := Relation.TransGen.head'_iff.1 cycle
      rw [← mem_containingTypesOf_iff, inside, List.mem_singleton] at edge
      exact fresh (edge ▸ back)
    · exact rooted.acyclic u path cycle

end IsRooted

end Repository

end EntityModel
