/-
The freeze follows its rules.

The freeze of a type, as it is carried out, is a run in the sense of `FreezeRun`:

* `freezeWithin_run` — it is one if the depth allowed exceeds the number of types that
  are not frozen and not under way, which falls with each type that is entered;
* `freeze_run`, `forM_freeze_run` — so it is one always, for the depth that the freeze
  starts with is enough.

The proof of the first is an induction on the depth.  What makes it go through is that
the super types are frozen one by one and read one by one, and that reading them all at
the end gives the same shape, since what is frozen no longer changes.
-/
import EntityModel.Proofs.FreezeEvolution
import EntityModel.Proofs.Outcomes

namespace EntityModel

namespace Repository

/-- The type is neither frozen nor under way. -/
def isPending (r : Repository) (id : TypeId) : Bool :=
  (r.get? id).any fun
    | .simple t => !t.isFrozen
    | .complex t => match t.lifecycle with
      | .building _ => true
      | _ => false

/-- The types that are neither frozen nor under way. -/
def pending (r : Repository) : List TypeId := r.ids.filter r.isPending

section Pending

variable {r r' : Repository} {order : List TypeId} {id : TypeId}

theorem length_pending_le_size : r.pending.length ≤ r.types.size := by
  refine Nat.le_trans (List.length_filter_le _ _) ?_
  simp [ids]

theorem length_pending_le (size : r'.types.size = r.types.size)
    (h : ∀ u, r'.isPending u = true → r.isPending u = true) :
    r'.pending.length ≤ r.pending.length := by
  rw [pending]
  rw [ids_congr size]
  exact (List.monotone_filter_right _ h).length_le

theorem length_pending_lt (id : TypeId) (size : r'.types.size = r.types.size)
    (h : ∀ u, r'.isPending u = true → r.isPending u = true) (before : r.isPending id = true)
    (after : r'.isPending id = false) : r'.pending.length < r.pending.length := by
  rw [pending]
  rw [ids_congr size]
  have sub : (r.ids.filter r'.isPending).Sublist (r.ids.filter r.isPending) :=
    List.monotone_filter_right _ h
  refine Nat.lt_of_le_of_ne sub.length_le fun same => ?_
  have mem : id ∈ r.ids.filter r.isPending := by
    refine List.mem_filter.2 ⟨mem_ids_iff_get?.2 ?_, before⟩
    rw [isPending] at before
    cases found : r.get? id with
    | none => simp [found] at before
    | some n => rfl
  rw [← sub.eq_of_length same] at mem
  have pending := (List.mem_filter.1 mem).2
  rw [after] at pending
  cases pending

theorem Evolves.size (E : r.Evolves order r') : r'.types.size = r.types.size :=
  size_congr fun _ => E.get?_none

/-- An evolution makes no type pending. -/
theorem Evolves.isPending (E : r.Evolves order r') {u : TypeId} (h : r'.isPending u = true) :
    r.isPending u = true := by
  have related := E.types u
  unfold Repository.isPending at h ⊢
  generalize r.get? u = before at related ⊢
  generalize r'.get? u = after at related h
  cases related with
  | none => exact h
  | some evolution =>
    cases evolution with
    | @simple t isFrozen kept =>
      cases marked : t.isFrozen with
      | false => simp [marked]
      | true => simp [kept marked] at h
    | untouched => exact h
    | extended => exact h
    | flattened => simp [Repository.flattened] at h

theorem Evolves.length_pending (E : r.Evolves order r') :
    r'.pending.length ≤ r.pending.length :=
  length_pending_le E.size fun _ => E.isPending

theorem length_pending_markFrozen {t : SimpleType} (found : r.get? id = some (.simple t))
    (fresh : t.isFrozen = false) : (r.markFrozen id t).pending.length < r.pending.length := by
  refine length_pending_lt id (size_set _) (fun u h => (Evolves.markFrozen found).isPending h) ?_ ?_
  · simp [isPending, found, fresh]
  · simp [isPending, get?_markFrozen_self found]

theorem length_pending_begin {t : ComplexType} {declared : TypeShape}
    (found : r.get? id = some (.complex t)) (building : t.lifecycle = .building declared) :
    (r.setLifecycle id .freezing).pending.length < r.pending.length := by
  refine length_pending_lt id (size_adjust _) (fun u h => ?_) ?_ ?_
  · by_cases same : u = id
    · subst same
      simp [isPending, found, building]
    · rwa [isPending, get?_setLifecycle_of_ne _ same] at h
  · simp [isPending, found, building]
  · simp [isPending, get?_setLifecycle_self _ found]

/-- Which super type is missing depends only on which types exist. -/
theorem missingSuperType?_congr (same : ∀ s, r'.get? s = none ↔ r.get? s = none)
    (superTypes : List TypeId) :
    r'.missingSuperType? superTypes = r.missingSuperType? superTypes := by
  have absent : ∀ s, (r'.get? s).isNone = (r.get? s).isNone := by
    intro s
    rw [Bool.eq_iff_iff, Option.isNone_iff_eq_none, Option.isNone_iff_eq_none, same]
  rw [missingSuperType?, missingSuperType?]
  simp only [absent]

theorem missingSuperType?_setLifecycle (lifecycle : Lifecycle) (superTypes : List TypeId) :
    (r.setLifecycle id lifecycle).missingSuperType? superTypes =
      r.missingSuperType? superTypes :=
  missingSuperType?_congr (fun _ => get?_setLifecycle_eq_none lifecycle) superTypes

/-- A type that gets back the lifecycle that was taken from it is what it was. -/
theorem setLifecycle_restore {t : ComplexType} {before : Lifecycle}
    (found : r.get? id = some (.complex t)) (lifecycle : t.lifecycle = before)
    (between : Lifecycle) : (r.setLifecycle id between).setLifecycle id before = r := by
  refine ext_get? (fun u => ?_) ?_ ?_
  · by_cases same : u = id
    · subst same
      rw [get?_setLifecycle_self _ (get?_setLifecycle_self _ found), found, ← lifecycle]
    · rw [get?_setLifecycle_of_ne _ same, get?_setLifecycle_of_ne _ same]
  · rw [setLifecycle, names_adjust, setLifecycle, names_adjust]
  · rw [setLifecycle, builtinNamespace_adjust, setLifecycle, builtinNamespace_adjust]

end Pending

end Repository

namespace Edit

open Repository

/-! ### The parts of a freeze -/

section Parts

variable {freezeSuper : TypeId → Edit Unit} {limit : Nat}

/-- The freeze of a type is a run wherever less than `limit` types are pending. -/
def RunsBelow (limit : Nat) (freezeSuper : TypeId → Edit Unit) : Prop :=
  ∀ id m, m.repository.pending.length < limit → (freezeSuper id).Yields m fun out m' =>
    ∃ order, FreezeRun [id] m.repository order out m'.repository

theorem RunsBelow.forM (runs : RunsBelow limit freezeSuper) (ids : List TypeId) (m : Model)
    (bound : m.repository.pending.length < limit) :
    (ids.forM freezeSuper).Yields m fun out m' =>
      ∃ order, FreezeRun ids m.repository order out m'.repository := by
  induction ids generalizing m with
  | nil => exact ⟨[], .nil⟩
  | cons id rest ih =>
    show (freezeSuper id >>= fun _ => rest.forM freezeSuper).Yields m _
    rw [yields_bind]
    refine (runs id m bound).mono fun out m₁ => ?_
    rintro ⟨order, run⟩
    cases out with
    | error e => exact ⟨order, run.append_error rest⟩
    | ok _ =>
      -- the freeze of `id` leaves no more types pending than there were
      refine (ih m₁ (Nat.lt_of_le_of_lt run.evolves.1.length_pending bound)).mono
        fun out m' => ?_
      rintro ⟨order', run'⟩
      exact ⟨order ++ order', run.append run'⟩

/-- A super type is frozen, and read as it is then. -/
theorem RunsBelow.inheritFrom (runs : RunsBelow limit freezeSuper) (heir : TypeId)
    (instantiable : Bool) (s : TypeShape) (id : TypeId) (m : Model)
    (bound : m.repository.pending.length < limit) :
    (Edit.inheritFrom freezeSuper heir instantiable s id).Yields m fun out m' =>
      ∃ order, match out with
        | .ok s' => FreezeRun [id] m.repository order (.ok ()) m'.repository ∧
            s' = m'.repository.inheritFrom heir instantiable s id
        | .error e => FreezeRun [id] m.repository order (.error e) m'.repository := by
  rw [Edit.inheritFrom, yields_bind]
  refine (runs id m bound).mono fun out m₁ => ?_
  rintro ⟨order, run⟩
  cases out with
  | error e => exact ⟨order, run⟩
  | ok _ =>
    -- what has been frozen exists, so the lookup that follows cannot fail
    have frozen := run.evolves.2 rfl id List.mem_cons_self
    cases found : m₁.repository.get? id with
    | none => simp [isFrozen, found] at frozen
    | some n =>
      rw [yields_bind, yields_ask, get_eq_ok found]
      cases n with
      | simple t =>
        refine ⟨order, run, ?_⟩
        by_cases same : TypeNode.instantiable (.simple t) = instantiable <;>
          simp [Repository.inheritFrom, found, same, TypeNode.ownFields, TypeShape.inherit]
      | complex t =>
        refine ⟨order, run, ?_⟩
        by_cases same : TypeNode.instantiable (.complex t) = instantiable <;>
          simp [Repository.inheritFrom, found, same, TypeNode.ownFields]

/-- Freezing super types and reading each at once is the same as reading all at the end,
for what is frozen does not change. -/
theorem RunsBelow.foldlM_inheritFrom (runs : RunsBelow limit freezeSuper) (heir : TypeId)
    (instantiable : Bool) (ids : List TypeId) (s : TypeShape) (m : Model)
    (bound : m.repository.pending.length < limit) :
    (ids.foldlM (Edit.inheritFrom freezeSuper heir instantiable) s).Yields m fun out m' =>
      ∃ order, match out with
        | .ok s' => FreezeRun ids m.repository order (.ok ()) m'.repository ∧
            s' = ids.foldl (m'.repository.inheritFrom heir instantiable) s
        | .error e => FreezeRun ids m.repository order (.error e) m'.repository := by
  induction ids generalizing m s with
  | nil => exact ⟨[], .nil, rfl⟩
  | cons id rest ih =>
    rw [List.foldlM_cons, yields_bind]
    refine (runs.inheritFrom heir instantiable s id m bound).mono fun out m₁ => ?_
    rintro ⟨order, run⟩
    cases out with
    | error e => exact ⟨order, run.append_error rest⟩
    | ok s₁ =>
      obtain ⟨run, rfl⟩ := run
      refine (ih _ m₁ (Nat.lt_of_le_of_lt run.evolves.1.length_pending bound)).mono
        fun out m' => ?_
      rintro ⟨order', run'⟩
      cases out with
      | error e => exact ⟨order ++ order', run.append run'⟩
      | ok s' =>
        obtain ⟨run', rfl⟩ := run'
        refine ⟨order ++ order', run.append run', ?_⟩
        -- what was read of `id` before the others were frozen is still so at the end
        have p := run'.evolves.1.preserves
        have frozen := run.evolves.2 rfl id List.mem_cons_self
        rw [List.foldl_cons, inheritFrom_congr (p.instantiable id)
          (p.map_eq (fun n => by cases n <;> rfl) frozen)]

theorem yields_filterAuxM {p : TypeId → Edit Bool} (keep : Repository → TypeId → Bool)
    (test : ∀ s m, (p s).Yields m fun out m' => m'.repository = m.repository ∧
      out = if (m.repository.get? s).isNone then .error (.unknownType s)
        else .ok (keep m.repository s)) (l acc : List TypeId) (m : Model) :
    (l.filterAuxM p acc).Yields m fun out m' => m'.repository = m.repository ∧
      out = match l.find? fun s => (m.repository.get? s).isNone with
        | some s => .error (.unknownType s)
        | none => .ok ((l.filter (keep m.repository)).reverse ++ acc) := by
  induction l generalizing acc m with
  | nil => exact ⟨rfl, rfl⟩
  | cons s rest ih =>
    rw [List.filterAuxM, yields_bind]
    refine (test s m).mono fun out m₁ => ?_
    rintro ⟨same, rfl⟩
    cases absent : (m.repository.get? s).isNone with
    | true => simp [absent, same]
    | false =>
      refine (ih _ m₁).mono fun out m' => ?_
      rintro ⟨same', rfl⟩
      rw [same] at same' ⊢
      refine ⟨same', ?_⟩
      rw [List.find?_cons, absent]
      cases kept : keep m.repository s <;> simp [kept]

/-- Which super types are kept is found out without changing anything. -/
theorem yields_keepSuperTypes (type : TypeNode) (superTypes : List TypeId) (m : Model) :
    (keepSuperTypes type superTypes).Yields m fun out m' => m'.repository = m.repository ∧
      out = match m.repository.missingSuperType? superTypes with
        | some s => .error (.unknownType s)
        | none => .ok (m.repository.keptSuperTypes type.instantiable superTypes) := by
  rw [keepSuperTypes, missingSuperType?, Repository.keptSuperTypes]
  split
  · exact ⟨rfl, rfl⟩
  · rw [List.filterM, yields_bind]
    refine (yields_filterAuxM (fun r s => (r.get? s).any fun n =>
      n.instantiable = type.instantiable) (fun s m => ?_) superTypes [] m).mono fun out m' => ?_
    · rw [yields_bind, yields_ask, Repository.get]
      cases found : m.repository.get? s with
      | none => exact ⟨rfl, rfl⟩
      | some n =>
        by_cases same : n.instantiable = type.instantiable
        · simp [same]
        · simp [same]
    · rintro ⟨same, rfl⟩
      cases superTypes.find? fun s => (m.repository.get? s).isNone with
      | some s => exact ⟨same, rfl⟩
      | none => simpa using same

/-- The shape of a type is computed while its super types are frozen. -/
theorem RunsBelow.flatten (runs : RunsBelow limit freezeSuper) (id : TypeId)
    (declared : TypeShape) (m : Model) (bound : m.repository.pending.length < limit) {n : TypeNode}
    (found : m.repository.get? id = some n) :
    (Edit.flatten freezeSuper id declared).Yields m fun out m' =>
      match m.repository.missingSuperType? declared.superTypes with
      | some s => out = .error (.unknownType s) ∧ m'.repository = m.repository
      | none => ∃ order, match out with
        | .ok flat => FreezeRun (m.repository.keptSuperTypes n.instantiable declared.superTypes)
              m.repository order (.ok ()) m'.repository ∧
            flat = m'.repository.flatten id n.instantiable declared
        | .error e => FreezeRun (m.repository.keptSuperTypes n.instantiable declared.superTypes)
              m.repository order (.error e) m'.repository := by
  rw [Edit.flatten, yields_bind, yields_ask, get_eq_ok found]
  cases none : declared.superTypes.isEmpty with
  | true =>
    -- without super types the declared shape is only made final
    have empty : declared.superTypes = [] := List.isEmpty_iff.1 none
    simp only [empty, missingSuperType?, Repository.keptSuperTypes, List.length_nil, Nat.zero_le,
      if_true, yields_pure]
    exact ⟨[], .nil, by simp [Repository.flatten, none]⟩
  | false =>
    simp only [Bool.false_eq_true, if_false]
    rw [yields_bind]
    refine (yields_keepSuperTypes n declared.superTypes m).mono fun out m₁ => ?_
    rintro ⟨same, rfl⟩
    cases m.repository.missingSuperType? declared.superTypes with
    | some s => exact ⟨rfl, same⟩
    | none =>
      simp only []
      rw [yields_bind, ← same]
      refine (runs.foldlM_inheritFrom id n.instantiable _ _ m₁ (by rwa [same])).mono
        fun out m' => ?_
      rintro ⟨order, run⟩
      cases out with
      | error e => exact ⟨order, run⟩
      | ok s =>
        obtain ⟨run, rfl⟩ := run
        refine ⟨order, run, ?_⟩
        -- the super types that are kept are the same when they have been frozen
        rw [Repository.flatten, none, if_neg Bool.false_ne_true,
          ← run.evolves.1.preserves.keptSuperTypes]

/-- The references of a frozen type are bound. -/
theorem yields_bindFieldRefs {id : TypeId} {m : Model} {t : ComplexType}
    (found : m.repository.get? id = some (.complex t)) :
    (Edit.bindFieldRefs id).Yields m fun out m' =>
      out = .ok () ∧ m'.repository = m.repository.bindFieldRefs id := by
  rw [Edit.bindFieldRefs, yields_bind, yields_get]
  simp only []
  rw [yields_bind, yields_ask, complex_eq_ok found]
  refine ⟨rfl, ?_⟩
  rw [Repository.bindFieldRefs, complex?_eq_some.2 found]
  rfl

theorem beginFreeze_eq_ok {id : TypeId} {m : Model} {t : ComplexType} {declared : TypeShape}
    (found : m.repository.get? id = some (.complex t))
    (building : t.lifecycle = .building declared) :
    beginFreeze id m =
      .ok declared { m with repository := m.repository.setLifecycle id .freezing } := by
  rw [beginFreeze, bind_eq_of_ok (ask_eq_ok (complex_eq_ok found))]
  simp only [building]
  rfl

theorem yields_setLifecycle {U : Except ModelError Unit → Model → Prop} (id : TypeId)
    (lifecycle : Lifecycle) (m : Model) :
    (Edit.setLifecycle id lifecycle).Yields m U ↔
      U (.ok ()) { m with repository := m.repository.setLifecycle id lifecycle } :=
  Iff.rfl

/-- The end of the freeze of a complex type. -/
theorem yields_complete {id : TypeId} {m : Model} {t : ComplexType} (flat : TypeShape)
    (found : m.repository.get? id = some (.complex t)) :
    (do
      setLifecycle id (.frozen flat)
      update (·.linkSuperTypes id flat.superTypes)
      bindFieldRefs id
      let type ← ask (·.complex id)
      report [.froze type.qualifiedName type.shape.fields.size type.shape.keyFields.size
        type.shape.superTypes.length] : Edit Unit).Yields m fun out m' =>
      out = .ok () ∧ m'.repository = m.repository.complete id flat := by
  have finalized : ∃ t', (m.repository.finalize id flat).get? id = some (.complex t') := by
    rw [get?_finalize, found]
    exact ⟨_, rfl⟩
  have completed : ∃ t', (m.repository.complete id flat).get? id = some (.complex t') := by
    rw [get?_complete, found]
    exact ⟨_, rfl⟩
  obtain ⟨t₁, found₁⟩ := finalized
  obtain ⟨t₂, found₂⟩ := completed
  -- one action after the other; the type is looked up twice, and found both times
  rw [yields_bind, yields_setLifecycle]
  dsimp only
  rw [yields_bind, yields_update]
  dsimp only
  rw [yields_bind]
  refine (yields_bindFieldRefs
    (m := { m with repository := m.repository.finalize id flat }) found₁).mono fun out m' => ?_
  rintro ⟨rfl, same⟩
  change m'.repository = m.repository.complete id flat at same
  rw [← same] at found₂
  dsimp only
  rw [yields_bind, yields_ask, complex_eq_ok found₂]
  exact ⟨rfl, same⟩

/-- The freeze of a complex type that is being built. -/
theorem RunsBelow.freezeComplex (runs : RunsBelow limit freezeSuper) (id : TypeId) (m : Model)
    (bound : m.repository.pending.length < limit + 1) {t : ComplexType} {declared : TypeShape}
    (found : m.repository.get? id = some (.complex t))
    (building : t.lifecycle = .building declared) :
    (Edit.freezeComplex freezeSuper id).Yields m fun out m' =>
      ∃ order, FreezeRun [id] m.repository order out m'.repository := by
  -- the type under way is no longer pending, which leaves room for its super types
  have begun : (m.repository.setLifecycle id .freezing).pending.length < limit :=
    Nat.lt_of_lt_of_le (length_pending_begin found building) (Nat.le_of_lt_succ bound)
  have found₀ := get?_setLifecycle_self .freezing found
  have kept : (m.repository.setLifecycle id .freezing).keptSuperTypes t.instantiable
      declared.superTypes = m.repository.keptSuperTypes t.instantiable declared.superTypes :=
    keptSuperTypes_congr fun s _ => Evolves.instantiable_setLifecycle .freezing s
  rw [Edit.freezeComplex, yields_bind_of_ok (beginFreeze_eq_ok found building), yields_bind,
    yields_tryCatch]
  refine (runs.flatten id declared { m with repository := m.repository.setLifecycle id .freezing }
    begun found₀).mono fun out m₁ => ?_
  dsimp only
  rw [missingSuperType?_setLifecycle]
  cases missing : m.repository.missingSuperType? declared.superTypes with
  | some s =>
    rintro ⟨rfl, same⟩
    refine ⟨[], ?_⟩
    -- nothing was frozen, and the type gets its declared shape back
    show FreezeRun [id] _ _ _ (m₁.repository.setLifecycle id (.building declared))
    rw [same, setLifecycle_restore found building .freezing]
    exact .missing found building missing
  | none =>
    rintro ⟨order, run⟩
    cases out with
    | error e => exact ⟨order, .complexError found building missing (kept ▸ run)⟩
    | ok flat =>
      obtain ⟨run, shape⟩ := run
      have found₁ := (run.evolves.1.get?_freezing found₀ rfl).1
      refine (yields_complete flat found₁).mono fun out m' => ?_
      rintro ⟨rfl, same⟩
      refine ⟨order ++ [id], ?_⟩
      rw [same, shape]
      exact .complex found building missing (kept ▸ run) .nil

end Parts

/-! ### The freeze -/

theorem freezeWithin_run (depth : Nat) : RunsBelow depth (freezeWithin depth) := by
  -- every nested freeze has one type less pending, so the depth never runs out
  induction depth with
  | zero => exact fun _ _ bound => absurd bound (Nat.not_lt_zero _)
  | succ depth ih =>
    intro id m bound
    rw [freezeWithin, yields_bind, yields_ask]
    cases found : m.repository.get? id with
    | none =>
      rw [get_eq_error found]
      exact ⟨[], .unknown found⟩
    | some n =>
      rw [get_eq_ok found]
      cases n with
      | simple t =>
        cases done : t.isFrozen with
        | true => simpa [done] using ⟨[], .frozen ((isFrozen_of_get? found).trans done) .nil⟩
        | false =>
          -- the type is marked before its super types are visited, so fewer are pending then
          have marked : (m.repository.markFrozen id t).pending.length < depth :=
            Nat.lt_of_lt_of_le (length_pending_markFrozen found done) (Nat.le_of_lt_succ bound)
          simp only [done, Bool.false_eq_true, if_false]
          rw [yields_bind, yields_update]
          dsimp only
          refine (ih.forM t.superTypes { m with repository := m.repository.markFrozen id t }
            marked).mono fun out m' => ?_
          rintro ⟨order, run⟩
          cases out with
          | error e => exact ⟨order, .simpleError found done run⟩
          | ok _ => exact ⟨order ++ [], .simple found done run .nil⟩
      | complex t =>
        cases lifecycle : t.lifecycle with
        | building declared =>
          have fresh := ComplexType.isFrozen_of_building lifecycle
          simp only [fresh, Bool.false_eq_true, if_false]
          exact ih.freezeComplex id m bound found lifecycle
        | freezing =>
          have fresh := ComplexType.isFrozen_of_freezing lifecycle
          simp only [fresh, Bool.false_eq_true, if_false]
          rw [freezeComplex, yields_bind, beginFreeze, yields_bind, yields_ask, complex_eq_ok found]
          simp only [lifecycle]
          exact ⟨[], .cyclic found lifecycle⟩
        | frozen flat =>
          have done : t.isFrozen = true := by rw [ComplexType.isFrozen, lifecycle]; rfl
          simpa [done] using ⟨[], .frozen ((isFrozen_of_get? found).trans done) .nil⟩

/-- The freeze of a type follows the rules. -/
theorem freeze_run (id : TypeId) (m : Model) :
    (freeze id).Yields m fun out m' =>
      ∃ order, FreezeRun [id] m.repository order out m'.repository := by
  rw [freeze, yields_bind, yields_get]
  exact freezeWithin_run _ id m (Nat.lt_succ_of_le length_pending_le_size)

/-- The freeze of several types, one after the other, follows the rules. -/
theorem forM_freeze_run (ids : List TypeId) (m : Model) :
    (ids.forM freeze).Yields m fun out m' =>
      ∃ order, FreezeRun ids m.repository order out m'.repository :=
  RunsBelow.forM (fun id m _ => freeze_run id m) ids m (Nat.lt_succ_self _)

theorem freezeAll_run (m : Model) :
    freezeAll.Yields m fun out m' =>
      ∃ order, FreezeRun m.repository.ids m.repository order out m'.repository := by
  rw [freezeAll, yields_bind, yields_get]
  exact forM_freeze_run m.repository.ids m

end Edit

end EntityModel
