/-
The moment at which field references are bound.

The references of a type are bound when its freeze ends, while the freeze of other types
may be under way or yet to come.  `BindsIn r order r' id moment` describes this moment in a
run from `r` to `r'`:

* `Underway` — compared with the start, the types that come first in the order are frozen,
  some are under way and read as empty, and the others are as they were;
* `Retains` — compared with the end, what is frozen is what it will stay but for
  references and for subtypes that come later in the order.

`FreezeRun.bindsIn` finds the moment for every type of the order.
-/
import EntityModel.Proofs.FreezeOrder
import EntityModel.Proofs.Resolving

namespace EntityModel

namespace Repository

variable {r r₁ r₂ r' s : Repository} {order order' : List TypeId} {id u : TypeId}

/-! ### From the start to the moment -/

/-- What the type at `id` reads as while types are frozen, after those of `order`. -/
inductive Progress (order : List TypeId) (id : TypeId) : TypeNode → TypeNode → Prop
  | simple {t : SimpleType} {isFrozen : Bool} :
      Progress order id (.simple t) (.simple { t with isFrozen })
  | untouched {t : ComplexType} (fresh : t.isFrozen = false) (out : id ∉ order) :
      Progress order id (.complex t) (.complex t)
  | underWay {t : ComplexType} {declared : TypeShape} (building : t.lifecycle = .building declared)
      (out : id ∉ order) : Progress order id (.complex t) (.complex { t with lifecycle := .freezing })
  | frozen {t t' : ComplexType} (done : t'.isFrozen = true) (mem : t.isFrozen = true ∨ id ∈ order)
      (subTypes : ∀ v ∈ t'.subTypes, v ∈ t.subTypes ∨ v ∈ order) :
      Progress order id (.complex t) (.complex t')

/-- The types of `order` have been frozen, and the freeze of others may be under way. -/
def Underway (r : Repository) (order : List TypeId) (s : Repository) : Prop :=
  ∀ u, Option.Rel (Progress order u) (r.get? u) (s.get? u)

namespace Underway

theorem get? (U : r.Underway order s) {n : TypeNode} (found : r.get? u = some n) :
    ∃ n', s.get? u = some n' ∧ Progress order u n n' := by
  have related := U u
  rw [found] at related
  generalize s.get? u = after at related ⊢
  cases related with
  | some h => exact ⟨_, rfl, h⟩

theorem of_evolves (E : r.Evolves order s) : r.Underway order s := by
  intro u
  have related := E.types u
  generalize r.get? u = before at related ⊢
  generalize s.get? u = after at related ⊢
  cases related with
  | none => exact .none
  | some h =>
    refine .some ?_
    cases h with
    | simple => exact .simple
    | untouched fresh out => exact .untouched fresh out
    | extended done =>
      exact .frozen done (.inl done) fun v hv => (Evolves.mem_joined _).1 hv |>.imp_right And.left
    | flattened _ _ mem =>
      exact .frozen rfl (.inr mem) fun v hv => (Evolves.mem_joined _).1 hv |>.imp_right And.left

protected theorem trans (first : r.Underway order r₁) (second : r₁.Underway order' r₂) :
    r.Underway (order ++ order') r₂ := by
  intro u
  have one := first u
  have two := second u
  generalize r.get? u = before at one ⊢
  generalize r₁.get? u = middle at one two
  generalize r₂.get? u = after at two ⊢
  cases one with
  | none =>
    cases two
    exact .none
  | some one =>
    cases two with
    | some two =>
      refine .some ?_
      cases one with
      | simple =>
        cases two with
        | simple => exact .simple
      | untouched fresh out =>
        cases two with
        | untouched _ out' => exact .untouched fresh (by simp [out, out'])
        | underWay building out' => exact .underWay building (by simp [out, out'])
        | frozen done mem subTypes =>
          exact .frozen done (mem.imp_right (List.mem_append_right order))
            fun v hv => (subTypes v hv).imp_right (List.mem_append_right order)
      | underWay building out =>
        cases two with
        | untouched _ out' => exact .underWay building (by simp [out, out'])
        | underWay building' => cases building'
        | frozen done mem subTypes =>
          refine .frozen done (.inr (List.mem_append_right order (mem.resolve_left ?_)))
            fun v hv => (subTypes v hv).imp_right (List.mem_append_right order)
          exact Bool.false_ne_true
      | frozen done mem subTypes =>
        have mem' := mem.imp_right (List.mem_append_left order')
        cases two with
        | untouched fresh => cases done.symm.trans fresh
        | underWay building =>
          exact absurd building (ComplexType.not_building_of_isFrozen done _)
        | frozen done' _ subTypes' =>
          refine .frozen done' mem' fun v hv => ?_
          rcases subTypes' v hv with hv | hv
          · exact (subTypes v hv).imp_right (List.mem_append_left order')
          · exact .inr (List.mem_append_right order hv)

theorem of_begin {t : ComplexType} {declared : TypeShape} (found : r.get? id = some (.complex t))
    (building : t.lifecycle = .building declared) :
    r.Underway [] (r.setLifecycle id .freezing) := by
  intro u
  by_cases same : u = id
  · subst same
    rw [get?_setLifecycle_self _ found, found]
    exact .some (.underWay building (by simp))
  · rw [get?_setLifecycle_of_ne _ same]
    exact of_evolves (.refl r) u

/-- The type gets its final shape, and its super types get it as a subtype. -/
theorem of_finalize {t : ComplexType} {flat : TypeShape} (found : r.get? id = some (.complex t))
    (supers : ∀ s ∈ flat.superTypes, r.isFrozen s = true) :
    r.Underway [id] (r.finalize id flat) := by
  intro u
  rw [get?_finalize]
  cases found' : r.get? u with
  | none => exact .none
  | some n =>
    refine .some ?_
    cases n with
    | simple t => exact .simple
    | complex t' =>
      have extended : ∀ v ∈ if u ∈ flat.superTypes then appendNew t'.subTypes id else t'.subTypes,
          v ∈ t'.subTypes ∨ v ∈ [id] := by
        intro v hv
        split at hv
        · exact (mem_foldl_appendNew [id] t'.subTypes).1 hv
        · exact .inl hv
      -- the type itself, one of its super types, or another that is not frozen
      by_cases same : u = id
      · subst same
        refine .frozen ?_ (.inr List.mem_cons_self) extended
        simp [ComplexType.isFrozen, Lifecycle.isFrozen]
      · cases frozen : t'.isFrozen with
        | true =>
          refine .frozen ?_ (.inl frozen) extended
          simpa [same, ComplexType.isFrozen] using frozen
        | false =>
          have out : u ∉ flat.superTypes := by
            intro mem
            have done := supers u mem
            rw [isFrozen_of_get? found'] at done
            exact absurd (done.symm.trans frozen) (by simp)
          simp only [TypeNode.mapComplex_complex, same, out, if_false]
          exact .untouched frozen (by simpa using same)

end Underway

/-! ### From the moment to the end -/

/-- What is frozen in `s` is the same in `r'` but for field references and the subtypes that
the types of `order` are. -/
structure Retains (s : Repository) (order : List TypeId) (r' : Repository) : Prop where
  sorts : SameSorts s r'
  skeleton : ∀ u, s.isFrozen u = true →
    (s.get? u).map (·.skeleton) = (r'.get? u).map (·.skeleton)
  subTypes : ∀ u t t', s.complex? u = some t → t.isFrozen = true → r'.complex? u = some t' →
    t'.subTypes = r'.joined order u t.subTypes
  mem : ∀ u ∈ order, r'.isFrozen u = true

namespace Retains

theorem isFrozen (R : s.Retains order r') (frozen : s.isFrozen u = true) :
    r'.isFrozen u = true := by
  have blind : ∀ n : TypeNode, n.skeleton.isFrozen = n.isFrozen := by
    intro n
    cases n with
    | simple => rfl
    | complex t => cases h : t.lifecycle <;>
        simp [TypeNode.skeleton, TypeNode.isFrozen, ComplexType.isFrozen, h,
          Lifecycle.withoutRefs, Lifecycle.isFrozen]
  have same := TypeNode.map_skeleton blind (R.skeleton u frozen)
  have any := congrArg (Option.any fun b => b) same
  simp only [Option.any_map] at any
  exact any.symm.trans frozen

theorem complexSuperTypesOf (R : s.Retains order r') (frozen : s.isFrozen u = true) :
    s.complexSuperTypesOf u = r'.complexSuperTypesOf u := by
  rw [complexSuperTypesOf_eq_getD, complexSuperTypesOf_eq_getD, map_complex?, map_complex?,
    TypeNode.map_skeleton TypeNode.superTypes_skeleton (R.skeleton u frozen)]

theorem ownField? (R : s.Retains order r') (frozen : s.isFrozen u = true) (name : String) :
    s.ownField? u name = r'.ownField? u name := by
  have blind : ∀ n : TypeNode, n.skeleton.complex?.bind (·.ownField? name) =
      n.complex?.bind (·.ownField? name) := by
    intro n
    cases n with
    | simple => rfl
    | complex t =>
      exact Lifecycle.shape_withoutRefs (f := fun s => s.fields.find? name) (fun _ => rfl) _
  rw [ownField?_eq_join, ownField?_eq_join, TypeNode.map_skeleton blind (R.skeleton u frozen)]

protected theorem trans (first : s.Retains order r₁) (second : r₁.Retains order' r') :
    s.Retains (order ++ order') r' where
  sorts u := (first.sorts u).trans (second.sorts u)
  skeleton u frozen := (first.skeleton u frozen).trans (second.skeleton u (first.isFrozen frozen))
  subTypes u t t' found done found' := by
    have frozen : s.isFrozen u = true := (isFrozen_of_get? (complex?_eq_some.1 found)).trans done
    have frozen₁ := first.isFrozen frozen
    obtain ⟨t₁, found₁⟩ : ∃ t₁, r₁.complex? u = some t₁ := by
      have named := first.sorts.map_name u
      rw [found, Option.map_some, eq_comm, Option.map_eq_some_iff] at named
      exact ⟨_, named.choose_spec.1⟩
    have done₁ : t₁.isFrozen = true :=
      (isFrozen_of_get? (complex?_eq_some.1 found₁)).symm.trans frozen₁
    rw [second.subTypes u t₁ t' found₁ done₁ found', first.subTypes u t t₁ found done found₁]
    exact (joined_append (fun v hv => second.complexSuperTypesOf (first.mem v hv)) _).symm
  mem := List.forall_mem_append.2 ⟨fun u hu => second.isFrozen (first.mem u hu), second.mem⟩

/-- A freeze retains what is frozen before it. -/
theorem of_evolves (E : s.Evolves order r') : s.Retains order r' where
  sorts u := by
    have related := E.types u
    generalize s.get? u = before at related ⊢
    generalize r'.get? u = after at related ⊢
    cases related with
    | none => rfl
    | some h => cases h <;> rfl
  skeleton u frozen := by
    refine E.preserves.map_eq (fun n => ?_) frozen
    cases n <;> rfl
  subTypes u t t' found done found' := by
    obtain ⟨_, same, evolution⟩ := E.exists_complex? found
    obtain rfl := Option.some.inj (found'.symm.trans same)
    cases evolution with
    | untouched fresh => cases done.symm.trans fresh
    | extended => rfl
    | flattened => rfl
  mem _ := E.isFrozen_of_mem

/-- The binding of the references of a frozen type retains what is frozen. -/
theorem of_bindFieldRefs {t : ComplexType} (found : s.get? id = some (.complex t))
    (done : t.isFrozen = true) : s.Retains [] (s.bindFieldRefs id) := by
  have view : ∀ u, (s.bindFieldRefs id).get? u = (s.get? u).map (·.mapComplex fun t =>
      if u = id then { t with lifecycle := .frozen { t.shape with
        primaryKeyInfo := (s.bindRefs id t.shape.primaryKeyInfo).1
        lookupFields := (s.bindRefs id t.shape.lookupFields).1 } } else t) :=
    fun u => get?_bindFieldRefs
  exact
    { sorts := fun u => by
        rw [view, Option.map_map]
        congr 1
        funext n
        cases n with
        | simple => rfl
        | complex t =>
          by_cases same : u = id <;> simp [same, TypeNode.name, TypeNode.qualifiedName]
      -- the skeleton leaves out the references, which are all that changes
      skeleton := fun u frozen => by
        rw [view]
        by_cases same : u = id
        · subst same
          rw [found]
          cases lifecycle : t.lifecycle with
          | building | freezing =>
            simp [ComplexType.isFrozen, lifecycle, Lifecycle.isFrozen] at done
          | frozen flat =>
            simp [TypeNode.skeleton, ComplexType.shape, lifecycle, Lifecycle.shape,
              Lifecycle.withoutRefs]
        · cases s.get? u <;> simp [same]
      subTypes := fun u t₁ t' found₁ _ found' => by
        rw [complex?_eq_map (view u), found₁] at found'
        by_cases same : u = id
        · simp only [same, if_true, Option.map_some, Option.some.injEq] at found'
          rw [← found']
          rfl
        · simp only [same, if_false, Option.map_some, Option.some.injEq] at found'
          rw [found']
          rfl
      mem := by simp }

/-- The end of a freeze retains what was frozen before. -/
theorem of_complete {t : ComplexType} {flat : TypeShape} (found : s.get? id = some (.complex t))
    (fresh : s.isFrozen id = false) : s.Retains [id] (s.complete id flat) := by
  have p : Preserves s (s.complete id flat) := Evolves.preserves_complete fresh
  exact
    { sorts := fun u => by
        rw [get?_complete, Option.map_map]
        congr 1
        funext n
        cases n <;> rfl
      skeleton := fun u frozen => by
        refine p.map_eq (fun n => ?_) frozen
        cases n <;> rfl
      subTypes := fun u t₁ t' found₁ done found' => by
        have own : (s.complete id flat).complexSuperTypesOf id = flat.superTypes :=
          Evolves.complexSuperTypesOf_complete found
        rw [complex?_eq_map (get?_complete flat), found₁] at found'
        simp only [Option.map_some, Option.some.injEq] at found'
        rw [← found']
        by_cases mem : u ∈ flat.superTypes <;> simp [joined, own, mem]
      mem := by
        refine List.forall_mem_singleton.2 ?_
        rw [Repository.isFrozen, get?_complete, found]
        simp [TypeNode.isFrozen, ComplexType.isFrozen, Lifecycle.isFrozen] }

end Retains

/-! ### The moment in a run -/

/-- In a run from `r` to `r'` that freezes the types of `order`, the references of `id` are
bound when the repository is `moment`. -/
structure BindsIn (r : Repository) (order : List TypeId) (r' : Repository) (id : TypeId)
    (moment : Repository) : Prop where
  /-- The moment comes right after the type in the order. -/
  place : ∃ before after, order = before ++ id :: after ∧
    r.Underway (before ++ [id]) moment ∧ moment.Retains after r'
  refs : ∃ t declared t', r.get? id = some (.complex t) ∧ t.lifecycle = .building declared ∧
    r'.get? id = some (.complex t') ∧ t'.isFrozen = true ∧
      t'.shape.primaryKeyInfo = (moment.bindRefs id declared.primaryKeyInfo).1 ∧
      t'.shape.lookupFields = (moment.bindRefs id declared.lookupFields).1

namespace BindsIn

variable {moment : Repository}

/-- A run that something precedes. -/
theorem after (h : r₁.BindsIn order' r' id moment) (U : r.Underway order r₁) :
    r.BindsIn (order ++ order') r' id moment := by
  obtain ⟨⟨before, after, rfl, U', R⟩, t, declared, t', found, building, rest⟩ := h
  refine ⟨⟨order ++ before, after, by simp, by simpa using U.trans U', R⟩, ?_⟩
  have related := U id
  rw [found] at related
  generalize r.get? id = n at related ⊢
  cases related with
  | some h =>
    cases h with
    | untouched => exact ⟨t, declared, t', rfl, building, rest⟩
    | underWay => cases building
    | frozen done => cases done.symm.trans (ComplexType.isFrozen_of_building building)

/-- A run that something follows. -/
theorem followed (h : r.BindsIn order r₁ id moment) (p : Preserves r₁ r')
    (R : r₁.Retains order' r') : r.BindsIn (order ++ order') r' id moment := by
  obtain ⟨⟨before, after, rfl, U, R'⟩, t, declared, t₁, found, building, found₁, done, refs⟩ := h
  refine ⟨⟨before, after ++ order', by simp, U, R'.trans R⟩, ?_⟩
  -- the references are bound already, and a frozen type keeps its lifecycle
  have frozen : r₁.isFrozen id = true := (isFrozen_of_get? found₁).trans done
  have same := p.frozen id frozen
  rw [found₁, Option.map_some, eq_comm, Option.map_eq_some_iff] at same
  obtain ⟨n', found', same⟩ := same
  cases n' with
  | simple t' => cases same
  | complex t' =>
    have shape : t'.lifecycle = t₁.lifecycle :=
      (congrArg ComplexType.lifecycle (TypeNode.complex.inj same) :)
    rw [ComplexType.isFrozen, ← shape] at done
    rw [ComplexType.shape, ← shape] at refs
    exact ⟨t, declared, t', found, building, found', done, refs⟩

/-- The moment of the type that is completed. -/
theorem here {t : ComplexType} {declared flat : TypeShape} (found : r.get? id = some (.complex t))
    (building : t.lifecycle = .building declared)
    (E : (r.setLifecycle id .freezing).Evolves order r₁)
    (superTypes : ∀ s ∈ flat.superTypes, r₁.isFrozen s = true)
    (refs : flat.primaryKeyInfo = declared.primaryKeyInfo ∧
      flat.lookupFields = declared.lookupFields) :
    r.BindsIn (order ++ [id]) (r₁.complete id flat) id (r₁.finalize id flat) := by
  obtain ⟨found₁, -⟩ := E.get?_freezing (get?_setLifecycle_self _ found) rfl
  have final : ∃ t₁, (r₁.finalize id flat).get? id = some (.complex t₁) ∧
      t₁.lifecycle = .frozen flat := by
    rw [get?_finalize, found₁]
    exact ⟨_, rfl, by simp⟩
  obtain ⟨t₁, found₂, lifecycle⟩ := final
  have done : t₁.isFrozen = true := by
    rw [ComplexType.isFrozen, lifecycle]
    rfl
  refine ⟨⟨order, [], by simp, ?_, .of_bindFieldRefs found₂ done⟩, ?_⟩
  · have begun := (Underway.of_begin found building).trans (.of_evolves E)
    simpa using begun.trans (.of_finalize found₁ superTypes)
  · have after := @get?_complete r₁ id id flat
    rw [found₁] at after
    refine ⟨t, declared, _, found, building, after, ?_, ?_, ?_⟩
    · simp [ComplexType.isFrozen, Lifecycle.isFrozen]
    · simp [ComplexType.shape, Lifecycle.shape, refs.1]
    · simp [ComplexType.shape, Lifecycle.shape, refs.2]

end BindsIn

end Repository

open Repository

/-- The references of every type that is frozen are bound at some moment of the run. -/
theorem FreezeRun.bindsIn {ids order : List TypeId} {r r' : Repository}
    {out : Except ModelError Unit} (run : FreezeRun ids r order out r') (ok : out = .ok ())
    {id : TypeId} (mem : id ∈ order) : ∃ moment, r.BindsIn order r' id moment := by
  induction run with
  | nil | unknown | cyclic | missing => cases mem
  | frozen _ _ ih => exact ih ok mem
  | simpleError => cases ok
  | complexError => cases ok
  | simple found fresh supers tail ih ih' =>
    have marked := Evolves.markFrozen found
    have first := supers.evolves.1
    have second := tail.evolves.1
    rcases List.mem_append.1 mem with mem | mem
    · obtain ⟨moment, h⟩ := ih rfl mem
      exact ⟨moment, ((h.after (.of_evolves marked)).followed second.preserves
        (.of_evolves second) :)⟩
    · obtain ⟨moment, h⟩ := ih' ok mem
      exact ⟨moment, h.after (.of_evolves (marked.trans first))⟩
  | @complex id' _ r t declared order r₁ order' _ r' found building known supers tail ih ih' =>
    obtain ⟨E, done⟩ := supers.evolves
    have E' := E.complete found building (done rfl)
    have second := tail.evolves.1
    have begun := Underway.of_begin found building
    obtain ⟨found₁, -⟩ := E.get?_freezing (get?_setLifecycle_self _ found) rfl
    have fresh : r₁.isFrozen id' = false := isFrozen_of_get? found₁
    generalize shape : r₁.flatten id' t.instantiable declared = flat at E' tail second ih'
    have ended : r₁.Retains [id'] (r₁.complete id' flat) := .of_complete found₁ fresh
    have kept : Preserves r₁ (r₁.complete id' flat) := Evolves.preserves_complete fresh
    have superTypes : ∀ s ∈ flat.superTypes, r₁.isFrozen s = true := by
      intro s hs
      rw [← shape] at hs
      refine done rfl s ?_
      rw [E.keptSuperTypes_begin]
      exact mem_superTypes_flatten hs
    -- the moment is in the freeze of the super types, at the end of this one, or later
    rcases List.mem_append.1 mem with mem | mem
    · obtain ⟨moment, h⟩ := ih rfl mem
      have whole := ((h.after begun).followed kept ended).followed second.preserves
        (.of_evolves second)
      exact ⟨moment, by simpa using whole⟩
    · rcases List.mem_cons.1 mem with rfl | mem
      · have refs : flat.primaryKeyInfo = declared.primaryKeyInfo ∧
            flat.lookupFields = declared.lookupFields := by
          rw [← shape]
          exact ⟨primaryKeyInfo_flatten, lookupFields_flatten⟩
        have whole := (BindsIn.here found building E superTypes refs).followed second.preserves
          (.of_evolves second)
        exact ⟨_, by simpa using whole⟩
      · obtain ⟨moment, h⟩ := ih' ok mem
        have whole := h.after (.of_evolves E')
        exact ⟨moment, by simpa using whole⟩

end EntityModel
