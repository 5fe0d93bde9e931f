/-
Copies are not seen by paths.

A path that starts from a type of a complete model leads to the same field, or to the same error,
however often types have been copied:

* `ShadowedBy.stepField?_eq` — a copy lends no field that its source does not lend;
* `ShadowedBy.isShadowed` — among subtypes, copies are shadows, so that a search for a name finds
  the type that it found before (`ShadowedBy.subTypeNamed?_eq`);
* `ShadowedBy.resolve_eq` — step by step, so does a path;
* `Run.field_foldl_copies` — a model that was built, and any sequence of copies.
-/
import EntityModel.Proofs.ShadowSearch
import EntityModel.Proofs.Shadows

namespace EntityModel

namespace Repository

variable {r s : Repository} {source : TypeId → TypeId} {u x y : TypeId} {t t' : ComplexType}
variable {name : String}

/-- The types of a complete model list only complex types. -/
theorem IsComplete.complexSubTypesOf_eq_getD (h : r.IsComplete) (u : TypeId) :
    r.complexSubTypesOf u = ((r.complex? u).map (·.subTypes)).getD [] := by
  rw [complexSubTypesOf]
  cases found : r.complex? u with
  | none => rfl
  | some t =>
    refine List.filter_eq_self.2 fun v listed => ?_
    obtain ⟨t', here, -⟩ := h.listsHeirs u t found v listed
    rw [here]
    rfl

/-- What a complex type inherits has a type that is there. -/
theorem IsComplete.valueType_of_inheritedField? (h : r.IsComplete) (found : r.complex? u = some t)
    {f : Field} (inherited : r.inheritedField? u name = some f) : f.valueType ∈ r.ids := by
  rw [h.closed.inheritedField?_eq found (h.frozen u t found)] at inherited
  exact (h.typed.fields u t found).1 f (FieldTable.mem_of_find? inherited)

theorem IsComplete.valueType_of_stepField? (h : r.IsComplete) (found : r.complex? u = some t)
    {f : Field} (stepped : r.stepField? u name = some f) : f.valueType ∈ r.ids := by
  rcases Option.or_eq_some_iff.1 stepped with inherited | ⟨-, lent⟩
  · exact h.valueType_of_inheritedField? found inherited
  · obtain ⟨v, listed, inherited⟩ := List.exists_of_findSome?_eq_some lent
    obtain ⟨t', here⟩ := complex?_of_mem_complexSubTypesOf listed
    exact h.valueType_of_inheritedField? here inherited

/-- A step leads to a field whose type is there. -/
theorem IsComplete.valueType_of_step (h : r.IsComplete) (found : r.complex? u = some t)
    {origin path text : String} {f : Field} {typeOverride : Option String}
    (ok : r.step origin path u text = .ok (f, typeOverride)) : f.valueType ∈ r.ids := by
  obtain ⟨step, -, ok⟩ := except_bind_eq_ok.1 ok
  split at ok
  · next f' stepped =>
    cases ok
    exact h.valueType_of_stepField? found stepped
  · cases ok

namespace ShadowedBy

variable (S : r.ShadowedBy source s) (h : r.IsComplete)

include S h

/-! ### Fields -/

/-- Along the lineage of a copy, no source has a field that the first one does not have. -/
theorem names_subset_of_mem_lineage (before : r.complex? (source x) = some t) :
    ∀ v ∈ s.lineage x, ∀ w, r.complex? (source v) = some w →
      w.shape.fields.names ⊆ t.shape.fields.names := by
  refine forall_mem_visit ?_ ?_
  · intro v mem w here
    obtain rfl := List.mem_singleton.1 mem
    obtain rfl := Option.some.inj (before.symm.trans here)
    exact List.Subset.refl _
  · intro v _ below v' super w' there
    rw [complexSuperTypesOf_eq_getD] at super
    cases heir : s.complex? v with
    | none => simp [heir] at super
    | some t' =>
      rw [heir] at super
      obtain ⟨w, here, shadow⟩ := S.shadows v t' heir
      have supports := h.closed.supports here (h.frozen _ w here)
        (shadow.superTypes v' super).2 there
      exact List.Subset.trans (supports.fields w' rfl) (below w here)

/-- What a copy inherits, its source inherits or declares. -/
theorem isSome_inheritedField? (found : s.complex? x = some t')
    (lent : (s.inheritedField? x name).isSome) : (r.inheritedField? (source x) name).isSome := by
  obtain ⟨t, before, -⟩ := S.shadows x t' found
  rw [inheritedField?_eq_findSome?, List.findSome?_isSome_iff] at lent
  obtain ⟨v, mem, own⟩ := lent
  obtain ⟨f, own⟩ := Option.isSome_iff_exists.1 own
  obtain ⟨t₁, here, field⟩ := Option.bind_eq_some_iff.1 own
  obtain ⟨w, there, shadow⟩ := S.shadows v t₁ here
  have named : name ∈ t₁.shape.fields.names :=
    FieldTable.mem_names_iff.2 (by rw [show t₁.shape.fields.find? name = some f from field]; rfl)
  rw [h.closed.inheritedField?_eq before (h.frozen _ t before)]
  exact FieldTable.mem_names_iff.1
    (S.names_subset_of_mem_lineage h before v mem w there (shadow.fields named))

/-! ### Subtypes -/

/-- Where one type lists another, its source lists the source of the other. -/
theorem source_mem_complexSubTypesOf (listed : y ∈ s.complexSubTypesOf x) :
    source y ∈ r.complexSubTypesOf (source x) := by
  obtain ⟨declared, known⟩ := mem_complexSubTypesOf.1 listed
  cases found : s.complex? x with
  | none => simp [declaredSubTypesOf, found] at declared
  | some t' =>
    obtain ⟨t, before, shadow⟩ := S.shadows x t' found
    rw [h.complexSubTypesOf_eq_getD, before]
    exact (shadow.subTypes y ((mem_declaredSubTypesOf found).1 declared)).2

/-- A type lists what it listed, and then copies. -/
theorem complexSubTypesOf_eq_append (x : TypeId) : ∃ copies,
    s.complexSubTypesOf x = r.complexSubTypesOf x ++ copies ∧ ∀ c ∈ copies, c ∉ r.ids := by
  have before : ∀ v ∈ r.complexSubTypesOf x, (s.complex? v).isSome = true := by
    intro v listed
    obtain ⟨t, found⟩ := complex?_of_mem_complexSubTypesOf listed
    obtain ⟨t', found', -⟩ := S.grows.complex? found
    rw [found']
    rfl
  cases found : s.complex? x with
  | none =>
    have absent : r.complex? x = none := by
      refine Option.eq_none_iff_forall_ne_some.2 fun t here => ?_
      obtain ⟨t', found', -⟩ := S.grows.complex? here
      rw [found] at found'
      cases found'
    refine ⟨[], ?_, nofun⟩
    rw [complexSubTypesOf, found, complexSubTypesOf, absent]
    rfl
  | some t' =>
    obtain ⟨copies, all, new⟩ := S.added x t' found
    rw [← h.complexSubTypesOf_eq_getD] at all
    refine ⟨copies.filter fun c => (s.complex? c).isSome, ?_, fun c mem => ?_⟩
    · rw [complexSubTypesOf, found]
      show t'.subTypes.filter _ = _
      rw [all, List.filter_append, List.filter_eq_self.2 before]
    · exact new c (List.mem_of_mem_filter mem)

/-- Among subtypes, copies are shadows of their sources. -/
theorem isShadowed : IsShadowed s.complexSubTypesOf (· ∈ r.ids) source where
  fixed := S.fixed
  isOld x y listed := by
    have edge := S.source_mem_complexSubTypesOf h listed
    obtain ⟨t, found⟩ := complex?_of_mem_complexSubTypesOf edge
    exact ⟨mem_ids_of_mem_complexSubTypesOf edge, mem_ids_of_complex? found⟩
  edges x y listed := by
    obtain ⟨copies, all, -⟩ := S.complexSubTypesOf_eq_append h (source x)
    rw [all]
    exact List.mem_append_left _ (S.source_mem_complexSubTypesOf h listed)
  lists x old := by
    obtain ⟨copies, all, -⟩ := S.complexSubTypesOf_eq_append h x
    have sources : ∀ y ∈ s.complexSubTypesOf x, source y ∈ r.complexSubTypesOf x := by
      intro y listed
      have edge := S.source_mem_complexSubTypesOf h listed
      rwa [S.fixed x old] at edge
    rw [all] at sources ⊢
    refine .append (sourcesFirst_of_forall fun y mem => .inl ?_) (sourcesFirst_of_forall ?_)
    · obtain ⟨t, found⟩ := complex?_of_mem_complexSubTypesOf mem
      exact mem_ids_of_complex? found
    · intro y mem
      rw [List.append_nil]
      exact .inr (sources y (List.mem_append_right _ mem))
  acyclic x old round := by
    -- the sources of the types on a cycle would inherit from each other
    have edge : ∀ y z, z ∈ s.complexSubTypesOf y →
        Function.swap r.Inherits (source y) (source z) := fun y z listed =>
      (h.listsHeirs.inherits (S.source_mem_complexSubTypesOf h listed)).2
    have path : Relation.TransGen (Function.swap r.Inherits) (source x) (source x) :=
      round.lift source edge
    rw [S.fixed x old] at path
    obtain ⟨y, first, -⟩ := Relation.TransGen.head'_iff.1 path
    obtain ⟨-, t, -, found, -⟩ := first.exists_superType
    exact (h.grounded x t found (h.frozen x t found)).not_transGen (Relation.transGen_swap.1 path)

/-- A copy lists only copies. -/
theorem not_mem_ids_of_mem (copied : x ∉ r.ids) (listed : y ∈ s.complexSubTypesOf x) :
    y ∉ r.ids := by
  obtain ⟨copies, all, new⟩ := S.complexSubTypesOf_eq_append h x
  have none : r.complexSubTypesOf x = [] := by
    refine List.eq_nil_iff_forall_not_mem.2 fun v mem => ?_
    exact copied (mem_ids_of_mem_complexSubTypesOf mem)
  rw [all, none] at listed
  exact new y listed

/-- Without the copies, a search lists what it listed. -/
theorem filter_tree (old : u ∈ r.ids) :
    (s.tree u).filter (fun v => decide (v ∈ r.ids)) = r.tree u := by
  have search : (visit s.ids s.complexSubTypesOf [] [u]).filter (fun v => decide (v ∈ r.ids)) =
      visit r.ids r.complexSubTypesOf [] ([u].filter fun v => decide (v ∈ r.ids)) := by
    refine filter_visit (fun v mem => ?_) (fun v _ => ?_) (fun v copied => ?_) fun _ _ => .rfl
    · have mem := of_decide_eq_true mem
      exact iff_of_true (S.mem_ids mem) mem
    · obtain ⟨copies, all, new⟩ := S.complexSubTypesOf_eq_append h v
      rw [all, List.filter_append, List.filter_eq_self.2, List.filter_eq_nil_iff.2,
        List.append_nil]
      · exact fun c mem => by simpa using new c mem
      · intro w listed
        obtain ⟨t, found⟩ := complex?_of_mem_complexSubTypesOf listed
        exact decide_eq_true (mem_ids_of_complex? found)
    · refine List.filter_eq_nil_iff.2 fun w listed => ?_
      simpa using S.not_mem_ids_of_mem h (of_decide_eq_false copied) listed
  rw [List.filter_cons_of_pos (by simpa using old), List.filter_nil] at search
  rwa [visit_eq_tree, visit_eq_tree] at search

/-- In the tree of a type, copies come after their sources. -/
theorem sourcesFirst_tree (old : u ∈ r.ids) :
    SourcesFirst (· ∈ r.ids) source [] (s.tree u) := by
  rw [← visit_eq_tree]
  refine (S.isShadowed h).sourcesFirst_visit (fun v unknown => ?_) nofun ⟨.inl old, trivial⟩
  exact List.eq_nil_iff_forall_not_mem.2 fun w mem =>
    unknown (mem_ids_of_mem_complexSubTypesOf mem)

end ShadowedBy

/-! ### Names -/

theorem toOption_complex (r : Repository) (u : TypeId) :
    (r.complex u).toOption = r.complex? u := by
  rw [complex, complex?]
  cases r.get? u with
  | none => rfl
  | some n => cases n <;> rfl

namespace ShadowedBy

variable (S : r.ShadowedBy source s)

include S

/-- A type that is complex keeps its name, and any other is not complex for the same reason. -/
theorem complex_cases (old : u ∈ r.ids) :
    (∃ e, r.complex u = .error e ∧ s.complex u = .error e) ∨
      ∃ t t', r.complex u = .ok t ∧ s.complex u = .ok t' ∧ t'.name = t.name := by
  obtain ⟨n, found⟩ := Option.isSome_iff_exists.1 (mem_ids_iff_get?.1 old)
  obtain ⟨n', found', same⟩ := S.grows u n found
  cases n with
  | simple t =>
    cases n' with
    | simple t' =>
      obtain rfl := TypeNode.simple.inj same
      exact .inl ⟨.notComplex t'.name, by rw [complex, found], by rw [complex, found']⟩
    | complex t' => cases same
  | complex t =>
    cases n' with
    | simple t' => cases same
    | complex t' =>
      have named : t'.name = t.name := congrArg (·.name) (TypeNode.complex.inj same)
      exact .inr ⟨t, t', complex_eq_ok found, complex_eq_ok found', named⟩

theorem map_name_complex? (old : u ∈ r.ids) :
    (s.complex? u).map (·.name) = (r.complex? u).map (·.name) := by
  rw [← toOption_complex, ← toOption_complex]
  rcases S.complex_cases old with ⟨e, before, after⟩ | ⟨t, t', before, after, named⟩
  · rw [before, after]
  · rw [before, after]
    exact congrArg some named

variable (h : r.IsComplete)

include h

/-- The first subtype of a name is the one that it was, unless the type itself has that name. -/
theorem subTypeNamed?_eq (found : r.complex? u = some t) (other : name ≠ t.name) :
    s.subTypeNamed? u name = r.subTypeNamed? u name := by
  have old : u ∈ r.ids := mem_ids_of_complex? found
  -- the type comes first in its tree, and is not the one that is looked for
  have first : ∀ {q : Repository}, (q.complex? u).map (·.name) = some t.name →
      q.subTypeNamed? u name =
        (q.tree u).find? fun v => ((q.complex? v).map (·.name)) == some name := by
    intro q here
    rw [tree, List.find?_cons_of_neg (by simpa [here] using other.symm)]
    rfl
  have late : SourcesFirst (fun v => decide (v ∈ r.ids) = true) source [] (s.tree u) := by
    simpa only [decide_eq_true_eq] using S.sourcesFirst_tree h old
  rw [first (by rw [S.map_name_complex? old, found]; rfl), first (by rw [found]; rfl),
    late.find?_eq ?_ fun _ mem => absurd mem List.not_mem_nil, S.filter_tree h old]
  · refine List.find?_congr fun v mem => ?_
    have known : v ∈ r.ids := by
      rcases List.mem_cons.1 mem with rfl | below
      · exact old
      · obtain ⟨t', here⟩ := complex?_of_mem_subTypes below
        exact mem_ids_of_complex? here
    rw [S.map_name_complex? known]
  · -- a copy has the name of its source
    intro v _ _ bears
    obtain ⟨t', copy, named⟩ := Option.map_eq_some_iff.1 (eq_of_beq bears)
    obtain ⟨t₀, before, shadow⟩ := S.shadows v t' copy
    rw [S.map_name_complex? (mem_ids_of_complex? before), before]
    exact beq_of_eq (congrArg some (shadow.name.symm.trans named))

/-! ### Paths -/

variable (closed : s.IsClosed)

include closed

theorem inheritedField?_eq (found : r.complex? u = some t) (name : String) :
    s.inheritedField? u name = r.inheritedField? u name := by
  obtain ⟨t', found', same⟩ := S.grows.complex? found
  have frozen : t'.isFrozen = true := by
    rw [same]
    exact h.frozen u t found
  rw [h.closed.inheritedField?_eq found (h.frozen u t found),
    closed.inheritedField?_eq found' frozen, same]
  rfl

/-- A step finds the field that it found. -/
theorem stepField?_eq (found : r.complex? u = some t) (name : String) :
    s.stepField? u name = r.stepField? u name := by
  have old : u ∈ r.ids := mem_ids_of_complex? found
  obtain ⟨copies, all, -⟩ := S.complexSubTypesOf_eq_append h u
  have same : (r.complexSubTypesOf u).findSome? (s.inheritedField? · name) =
      (r.complexSubTypesOf u).findSome? (r.inheritedField? · name) := by
    refine findSome?_congr fun v listed => ?_
    obtain ⟨t', here⟩ := complex?_of_mem_complexSubTypesOf listed
    exact S.inheritedField?_eq h closed here name
  rw [stepField?, stepField?, S.inheritedField?_eq h closed found, all, List.findSome?_append, same]
  cases lent : (r.complexSubTypesOf u).findSome? (r.inheritedField? · name) with
  | some f => rfl
  | none =>
    -- a copy would lend a field that its source lends
    have none : copies.findSome? (s.inheritedField? · name) = none := by
      refine List.findSome?_eq_none_iff.2 fun c mem => ?_
      have listed : c ∈ s.complexSubTypesOf u := all ▸ List.mem_append_right _ mem
      have source := S.source_mem_complexSubTypesOf h listed
      rw [S.fixed u old] at source
      have absent := List.findSome?_eq_none_iff.1 lent _ source
      obtain ⟨t', here⟩ := complex?_of_mem_complexSubTypesOf listed
      refine Option.not_isSome_iff_eq_none.1 fun some => ?_
      have := S.isSome_inheritedField? h here some
      rw [absent] at this
      cases this
    rw [none]
    rfl

theorem step_eq (origin path : String) (found : r.complex? u = some t) (text : String) :
    s.step origin path u text = r.step origin path u text := by
  rw [step, step]
  simp only [S.stepField?_eq h closed found]

omit closed in
/-- Where a step leads from a complex type, it led before, and that is a complex type. -/
theorem narrow_eq (found : r.complex? u = some t) (typeOverride : Option String) :
    s.narrow u t.name typeOverride = r.narrow u t.name typeOverride ∧
      ∃ t', r.complex? (r.narrow u t.name typeOverride).1 = some t' := by
  cases typeOverride with
  | none => exact ⟨rfl, t, found⟩
  | some requested =>
    rw [narrow, narrow]
    by_cases same : requested = t.name
    · rw [if_pos same, if_pos same]
      exact ⟨rfl, t, found⟩
    · rw [if_neg same, if_neg same, S.subTypeNamed?_eq h found same]
      refine ⟨rfl, ?_⟩
      cases sub : r.subTypeNamed? u requested with
      | none => exact ⟨t, found⟩
      | some v => exact complex?_of_mem_subTypes (List.mem_of_find?_eq_some sub)

/-- The steps of a path lead where they led; the induction is on the steps that are left. -/
theorem follow_eq (origin path : String) {text : String} (rest : List String)
    (found : r.complex? u = some t) :
    s.follow origin path u text rest = r.follow origin path u text rest := by
  induction rest generalizing u text t with
  | nil => rw [follow, follow, S.step_eq h closed origin path found]
  | cons next others ih =>
    rw [follow, follow, S.step_eq h closed origin path found]
    cases stepped : r.step origin path u text with
    | error e => rfl
    | ok p =>
      obtain ⟨f, typeOverride⟩ := p
      have known := h.valueType_of_step found stepped
      dsimp only
      rcases S.complex_cases known with ⟨e, before, after⟩ | ⟨t₁, t₂, before, after, same⟩
      · rw [before, after]
      · obtain ⟨narrowed, t₃, target⟩ := S.narrow_eq h (complex_eq_ok_iff.1 before) typeOverride
        rw [before, after]
        dsimp only
        rw [same, narrowed, ih target]

/-- A path from a complex type leads where it led, with the same reports. -/
theorem resolve_eq (found : r.complex? u = some t) (path : String) :
    s.resolve u path = r.resolve u path := by
  obtain ⟨t', found', same⟩ := S.grows.complex? found
  have named : t'.name = t.name := by rw [same]; rfl
  rw [resolve, resolve, complex_eq_ok_iff.2 found, complex_eq_ok_iff.2 found']
  dsimp only
  rw [named, resolveFrom, resolveFrom]
  simp only [S.inheritedField?_eq h closed found, S.follow_eq h closed _ _ _ found]

end ShadowedBy

/-- In a model that was built, a path from a complex type leads to the same field, or to the same
error, however often types are copied afterwards. -/
theorem Run.field_foldl_copies {c : SchemaConfig} {ids : List TypeId}
    (run : Run c (fun r _ operation => r.Builds operation) r ids) {copies : List Operation}
    (copying : ∀ operation ∈ copies, operation.IsCopying) (found : r.complex? u = some t)
    (path : String) : (copies.foldl Repository.perform r).field u path = r.field u path := by
  have complete := run.isComplete
  obtain ⟨source, S⟩ := complete.foldl_perform copying ⟨_, complete.shadowedBy_self⟩
  -- a copy is not registered, so the copies are part of a run that registers no frozen types
  have quiet : ∀ operation ∈ copies, ∀ n, ¬ operation.Registers n := by
    intro operation mem n registers
    obtain ⟨id, rfl | rfl⟩ := copying operation mem <;> cases registers
  have given : ∀ operation ∈ copies, operation.IsGiven := by
    intro operation mem
    obtain ⟨id, rfl | rfl⟩ := copying operation mem <;> simp
  obtain ⟨ids', run'⟩ := run.isStraight.registersNoHeir.admitted.exists_foldl given
    fun operation mem _ _ t registers => absurd registers (quiet operation mem _)
  exact congrArg Resolution.outcome (S.resolve_eq complete run'.isClosed found path)

/-- The head of a household is a party, perhaps a person, who has a code. -/
def household : Manifest where
  types :=
    [{ name := "Party" },
      { name := "Person", superTypes := ["Party"], fields := [{ name := "code", type := "string" }] },
      { name := "Household", fields := [{ name := "head", type := "Party" }] }]

/-- The code of the head is that of the person, though two copies of it have codes as well. -/
theorem field_foldl_copies_household : ∃ r ids t,
    Run {} (fun r _ operation => r.Builds operation) r ids ∧ r.complex? ⟨35⟩ = some t ∧
    (r.field ⟨35⟩ "head/code").isOk = true ∧
    ([.copy ⟨33⟩, .copy ⟨34⟩, .copyShallow ⟨36⟩].foldl Repository.perform r).field ⟨35⟩
      "head/code" = r.field ⟨35⟩ "head/code" := by
  have built : (Operation.build household {}).run.succeeds
      { repository := (Session.start {}).repository } = true := by
    rw [Session.repository_start]
    cbv
  have run : Run {} (fun r _ operation => r.Builds operation)
      ((Session.start {}).repository.perform (.build household {})) _ :=
    .perform .start _ (by simp) ⟨household, {}, rfl, built⟩
  have present : (((Session.start {}).repository.perform (.build household {})).complex?
      ⟨35⟩).isSome = true := by
    rw [Session.repository_start]
    cbv
  have resolved : (((Session.start {}).repository.perform (.build household {})).field ⟨35⟩
      "head/code").isOk = true := by
    rw [Session.repository_start]
    cbv
  obtain ⟨t, found⟩ := Option.isSome_iff_exists.1 present
  have copying : ∀ operation ∈ [.copy ⟨33⟩, .copy ⟨34⟩, .copyShallow ⟨36⟩],
      Operation.IsCopying operation := by
    simp [Operation.IsCopying]
  exact ⟨_, _, t, run, found, resolved, run.field_foldl_copies copying found _⟩

end Repository

end EntityModel
