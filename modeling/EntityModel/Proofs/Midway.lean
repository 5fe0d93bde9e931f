/-
A repository in the middle of the freeze of all its types.

`Midway r r' s before after` says that all complex types of `r` are frozen in the order
`before ++ after` to give `r'`, and that `s` is the repository after those of `before`.

* `inheritedField?_of_isFrozen` — a name means in `s`, on a type that is frozen there, what
  it means in the end;
* `inheritedField?_of_settled` — it is the same declaration on other types too, where only one
  super type at a time has to be asked (`Settled`);
* `exists_complexSubTypesOf_eq` — subtypes are known in `s` if they are frozen there.
-/
import EntityModel.Proofs.FreezeMoment
import EntityModel.Proofs.PlainNames

namespace EntityModel

/-- The type is being built from a manifest: keys are fields, and there are no subtypes. -/
structure ComplexType.IsDeclared (t : ComplexType) : Prop where
  building : ∃ s, t.lifecycle = .building s ∧
    ∀ name, (s.keyFields.find? name).isSome → (s.fields.find? name).isSome
  subTypes : t.subTypes = []

namespace Repository

/-- The field that the type will have for `name` can already be told in `s`. -/
inductive Settled (s : Repository) (name : String) : TypeId → Prop
  | notComplex {u} (absent : s.complex? u = none) : Settled s name u
  | frozen {u} (frozen : s.isFrozen u = true) : Settled s name u
  | own {u f} (own : s.ownField? u name = some f) : Settled s name u
  | inherited {u t declared} (found : s.complex? u = some t)
      (building : t.lifecycle = .building declared) (single : declared.superTypes.length ≤ 1)
      (h : ∀ v ∈ declared.superTypes, Settled s name v) : Settled s name u

/-- The complex types of `r` are frozen to give `r'`, those of `before` before those of `after`,
and `s` is the repository in between. -/
structure Midway (r r' s : Repository) (before after : List TypeId) : Prop where
  evolves : r.Evolves (before ++ after) r'
  declared : ∀ {u t}, r.complex? u = some t → t.IsDeclared
  all : ∀ {u t}, r.complex? u = some t → u ∈ before ++ after
  underway : r.Underway before s
  retains : s.Retains after r'

variable {r r' s : Repository} {before after : List TypeId} {u v : TypeId} {name : String}

namespace Midway

variable (M : Midway r r' s before after)

include M

/-! ### The types of the moment -/

theorem isFrozen_of_mem_before (mem : u ∈ before) : s.isFrozen u = true := by
  obtain ⟨t, declared, found, -⟩ := M.evolves.fresh u (List.mem_append_left after mem)
  obtain ⟨n, found', progress⟩ := M.underway.get? found
  rw [isFrozen_of_get? found']
  cases progress with
  | untouched _ out => exact absurd mem out
  | underWay _ out => exact absurd mem out
  | frozen done => exact done

/-- A type of `after` is in the moment what it was, or its freeze is under way. -/
theorem found_of_mem_after (mem : u ∈ after) : ∃ t declared,
    r.get? u = some (.complex t) ∧ t.lifecycle = .building declared ∧
      (s.get? u = some (.complex t) ∨
        s.get? u = some (.complex { t with lifecycle := .freezing })) := by
  obtain ⟨t, declared, found, building⟩ := M.evolves.fresh u (List.mem_append_right before mem)
  obtain ⟨n, found', progress⟩ := M.underway.get? found
  refine ⟨t, declared, found, building, ?_⟩
  cases progress with
  | untouched => exact .inl found'
  | underWay => exact .inr found'
  | frozen _ earlier =>
    rcases earlier with done | earlier
    · exact absurd building (ComplexType.not_building_of_isFrozen done declared)
    · exact absurd rfl ((List.nodup_append.1 M.evolves.nodup).2.2 u earlier u mem)

theorem isFrozen_of_mem_after (mem : u ∈ after) : s.isFrozen u = false := by
  obtain ⟨t, declared, -, building, found | found⟩ := M.found_of_mem_after mem
  · exact (isFrozen_of_get? found).trans (ComplexType.isFrozen_of_building building)
  · exact isFrozen_of_get? found

/-- The complex types are the same at the start, at the moment and in the end. -/
theorem complex?_eq_none : r.complex? u = none ↔ s.complex? u = none := by
  have related := M.underway u
  rw [complex?, complex?]
  generalize r.get? u = start at related ⊢
  generalize s.get? u = moment at related ⊢
  cases related with
  | none => exact Iff.rfl
  | some h => cases h <;> simp

theorem mem_of_complex? {t : ComplexType} (found : s.complex? u = some t) :
    u ∈ before ++ after := by
  cases start : r.complex? u with
  | none => rw [M.complex?_eq_none.1 start] at found; cases found
  | some t₀ => exact M.all start

theorem mem_before_of_isFrozen {t : ComplexType} (found : s.complex? u = some t)
    (frozen : s.isFrozen u = true) : u ∈ before := by
  refine (List.mem_append.1 (M.mem_of_complex? found)).resolve_right fun mem => ?_
  rw [M.isFrozen_of_mem_after mem] at frozen
  cases frozen

/-- A super type that a type keeps is frozen before it. -/
theorem mem_before_of_mem_keptBy {t : ComplexType} (mem : u ∈ before) (kept : v ∈ r.keptBy u)
    (found : s.complex? v = some t) : v ∈ before := by
  refine (List.mem_append.1 (M.mem_of_complex? found)).resolve_right fun later => ?_
  exact (List.pairwise_append.1 M.evolves.sorted).2.2 u mem v later kept

/-- The super types in the end are among those that the type keeps. -/
theorem mem_keptBy_of_mem_superTypes (h : v ∈ r'.complexSuperTypesOf u) :
    u ∈ before ++ after ∧ v ∈ r.keptBy u := by
  have mem : u ∈ before ++ after := by
    cases start : r.complex? u with
    | some t => exact M.all start
    | none =>
      rw [complexSuperTypesOf, M.retains.sorts.complex?_eq_none.1 (M.complex?_eq_none.1 start)] at h
      cases h
  obtain ⟨t, declared, moment, found, building, found', -⟩ := M.evolves.flattened_of_mem mem
  rw [complexSuperTypesOf, complex?_eq_some.2 found'] at h
  have kept := mem_superTypes_flatten (show v ∈ (r'.flatten u t.instantiable declared).superTypes
    from h)
  rw [← M.evolves.preserves.keptSuperTypes] at kept
  exact ⟨mem, by simpa [keptBy, found, building] using kept⟩

theorem complexSuperTypesOf_eq (frozen : s.isFrozen u = true) :
    s.complexSuperTypesOf u = r'.complexSuperTypesOf u :=
  M.retains.complexSuperTypesOf frozen

/-- What is frozen inherits only from what is frozen, and from simple types. -/
theorem isFrozen_of_mem_superTypes (frozen : s.isFrozen u = true)
    (mem : v ∈ s.complexSuperTypesOf u) : s.isFrozen v = true ∨ s.complex? v = none := by
  cases found : s.complex? v with
  | none => exact .inr rfl
  | some t =>
    cases found' : s.complex? u with
    | none => rw [complexSuperTypesOf, found'] at mem; cases mem
    | some t' =>
      have kept := (M.mem_keptBy_of_mem_superTypes (M.complexSuperTypesOf_eq frozen ▸ mem)).2
      exact .inl (M.isFrozen_of_mem_before
        (M.mem_before_of_mem_keptBy (M.mem_before_of_isFrozen found' frozen) kept found))

/-! ### Names -/

/-- In the end every type has itself all the fields that it inherits. -/
theorem inheritedField?_final (u : TypeId) (name : String) :
    r'.inheritedField? u name = r'.ownField? u name := by
  cases own : r'.ownField? u name with
  | some f => exact inheritedField?_of_ownField? own
  | none =>
    have lacking : ∀ v ∈ r'.lineage u, r'.ownField? v name = none := by
      refine forall_mem_visit (List.forall_mem_singleton.2 own) fun v _ lacks w hw => ?_
      obtain ⟨mem, kept⟩ := M.mem_keptBy_of_mem_superTypes hw
      exact (M.evolves.lacks_of_lacks mem lacks).2 w kept
    rw [inheritedField?_eq_findSome?]
    exact List.findSome?_eq_none_iff.2 lacking

/-- What is frozen, or not complex, has no fields of its own but those it has in the end. -/
theorem ownField?_eq (h : s.isFrozen u = true ∨ s.complex? u = none) (name : String) :
    s.ownField? u name = r'.ownField? u name := by
  rcases h with frozen | absent
  · exact M.retains.ownField? frozen name
  · rw [ownField?, ownField?, absent, M.retains.sorts.complex?_eq_none.1 absent]

/-- A frozen type that will lack the name has no super type with it. -/
theorem findSome?_visit_eq_none {seen : List TypeId}
    (h : s.isFrozen u = true ∨ s.complex? u = none) (lacks : r'.ownField? u name = none) :
    (visit s.ids s.complexSuperTypesOf seen [u]).findSome? (s.ownField? · name) = none := by
  have lacking : ∀ v ∈ visit s.ids s.complexSuperTypesOf seen [u],
      (s.isFrozen v = true ∨ s.complex? v = none) ∧ r'.ownField? v name = none := by
    refine forall_mem_visit (List.forall_mem_singleton.2 ⟨h, lacks⟩) fun v _ hv w hw => ?_
    obtain ⟨frozen | absent, lacks⟩ := hv
    · refine ⟨M.isFrozen_of_mem_superTypes frozen hw, ?_⟩
      obtain ⟨mem, kept⟩ := M.mem_keptBy_of_mem_superTypes (M.complexSuperTypesOf_eq frozen ▸ hw)
      exact (M.evolves.lacks_of_lacks mem lacks).2 w kept
    · rw [complexSuperTypesOf, absent] at hw
      cases hw
  refine List.findSome?_eq_none_iff.2 fun v hv => ?_
  rw [M.ownField?_eq (lacking v hv).1, (lacking v hv).2]

theorem inheritedField?_of_isFrozen (frozen : s.isFrozen u = true) (name : String) :
    s.inheritedField? u name = r'.inheritedField? u name := by
  rw [M.inheritedField?_final]
  cases own : r'.ownField? u name with
  | some f => exact inheritedField?_of_ownField? ((M.ownField?_eq (.inl frozen) name).trans own)
  | none => exact M.findSome?_visit_eq_none (.inl frozen) own

/-- A type with fields of its own in the moment, but not frozen, is what it was at first. -/
theorem found_of_building {t : ComplexType} {declared : TypeShape}
    (found : s.complex? u = some t) (building : t.lifecycle = .building declared) :
    u ∈ after ∧ r.get? u = some (.complex t) := by
  have found := complex?_eq_some.1 found
  have mem : u ∈ after := by
    refine (List.mem_append.1 (M.mem_of_complex? (complex?_eq_some.2 found))).resolve_left ?_
    intro mem
    have frozen := M.isFrozen_of_mem_before mem
    rw [isFrozen_of_get? found] at frozen
    exact absurd building (ComplexType.not_building_of_isFrozen frozen declared)
  refine ⟨mem, ?_⟩
  obtain ⟨t₀, _, start, -, same | same⟩ := M.found_of_mem_after mem
  · rw [start, ← same, found]
  · rw [found] at same
    cases TypeNode.complex.inj (Option.some.inj same)
    cases building

/-- A field that a type has in the moment stays the same declaration. -/
theorem asDeclared_ownField? {f : Field} (own : s.ownField? u name = some f) :
    (r'.ownField? u name).map (·.asDeclared) = some f.asDeclared := by
  obtain ⟨t, found, has⟩ := Option.bind_eq_some_iff.1 own
  cases lifecycle : t.lifecycle with
  | building declared =>
    obtain ⟨mem, start⟩ := M.found_of_building found lifecycle
    have own' : r.ownField? u name = some f := by
      rw [ownField?, complex?_eq_some.2 start]
      exact has
    rw [M.evolves.ownField?_of_mem (List.mem_append_right before mem), own']
    rfl
  | freezing =>
    rw [ComplexType.ownField?, ComplexType.shape, lifecycle] at has
    cases has
  | frozen shape =>
    have frozen : s.isFrozen u = true := by
      rw [isFrozen_of_get? (complex?_eq_some.1 found)]
      simp [TypeNode.isFrozen, ComplexType.isFrozen, lifecycle, Lifecycle.isFrozen]
    rw [← M.ownField?_eq (.inl frozen), own]
    rfl

/-- The traversal of the super types lists a type before its super types, if those listed already
come later in the order. -/
theorem visit_eq_cons {t : ComplexType} {seen : List TypeId} (found : s.complex? u = some t)
    (later : u ∈ before ++ after →
      ∀ v ∈ seen, (before ++ after).idxOf u < (before ++ after).idxOf v) :
    visit s.ids s.complexSuperTypesOf seen [u] =
      u :: visit s.ids s.complexSuperTypesOf (u :: seen) (s.complexSuperTypesOf u) := by
  have new : u ∉ seen := fun mem => Nat.lt_irrefl _ (later (M.mem_of_complex? found) u mem)
  have known : u ∈ s.ids := mem_ids_of_complex? found
  rw [visit, if_neg new, if_pos known, List.append_nil]

/-- What a type with at most one super type has in the end, if it has no such field itself. -/
theorem ownField?_of_single {t : ComplexType} {declared : TypeShape}
    (found : s.complex? u = some t) (building : t.lifecycle = .building declared)
    (single : declared.superTypes.length ≤ 1) (lacks : s.ownField? u name = none) :
    r.keptBy u = declared.superTypes ∧ (r'.ownField? u name).map (·.asDeclared) =
      (declared.superTypes.reverse.findSome? (r'.ownField? · name)).map (·.asDeclared) := by
  obtain ⟨mem, start⟩ := M.found_of_building found building
  have found₀ := complex?_eq_some.2 start
  obtain ⟨s₀, building', keys⟩ := (M.declared found₀).building
  cases building.symm.trans building'
  have noField : declared.fields.find? name = none := by
    rw [ownField?, found] at lacks
    simpa [ComplexType.ownField?, ComplexType.shape, building, Lifecycle.shape] using lacks
  have own : r.ownField? u name = none := by
    rw [← lacks, ownField?, ownField?, found, found₀]
  -- a type of a manifest registers no key without declaring the field
  have key : r.registeredKey? u name = none := by
    have noKey := mt (keys name) (by simp [noField])
    rw [registeredKey?, found₀]
    simpa [building] using noKey
  have kept : r.keptBy u = declared.superTypes := by
    simp [keptBy, start, building, keptSuperTypes, single]
  refine ⟨kept, ?_⟩
  rw [M.evolves.ownField?_of_mem (List.mem_append_right before mem), own, key, kept,
    Option.none_or, Option.or_none]

/-- What comes later in the order than a type comes later than the super types that it keeps. -/
theorem later_of_mem_keptBy {v : TypeId} {seen : List TypeId} (mem : u ∈ before ++ after)
    (kept : v ∈ r.keptBy u)
    (later : ∀ w ∈ seen, (before ++ after).idxOf u < (before ++ after).idxOf w)
    (mem' : v ∈ before ++ after) :
    ∀ w ∈ u :: seen, (before ++ after).idxOf v < (before ++ after).idxOf w := by
  have lt := M.evolves.idxOf_lt mem mem' kept
  intro w hw
  rcases List.mem_cons.1 hw with rfl | hw
  · exact lt
  · exact Nat.lt_trans lt (later w hw)

/-- The lookup of a settled name, wherever the traversal of the super types stands. -/
theorem findSome?_visit_of_settled (h : s.Settled name u) {seen : List TypeId}
    (later : u ∈ before ++ after →
      ∀ v ∈ seen, (before ++ after).idxOf u < (before ++ after).idxOf v) :
    ((visit s.ids s.complexSuperTypesOf seen [u]).findSome? (s.ownField? · name)).map
      (·.asDeclared) = (r'.ownField? u name).map (·.asDeclared) := by
  -- `seen` grows with every type that is still as declared, and stays later in the order
  induction h generalizing seen with
  | @notComplex u absent =>
    have lacks : r'.ownField? u name = none := by
      rw [← M.ownField?_eq (.inr absent), ownField?, absent]
      rfl
    rw [M.findSome?_visit_eq_none (.inr absent) lacks, lacks]
  | @frozen u frozen =>
    cases own : r'.ownField? u name with
    | none => rw [M.findSome?_visit_eq_none (.inl frozen) own]
    | some f =>
      have own' := (M.ownField?_eq (.inl frozen) name).trans own
      obtain ⟨t, found, -⟩ := Option.bind_eq_some_iff.1 own'
      rw [M.visit_eq_cons found later, List.findSome?_cons, own']
  | @own u f own =>
    obtain ⟨t, found, -⟩ := Option.bind_eq_some_iff.1 own
    rw [M.visit_eq_cons found later, List.findSome?_cons, own, M.asDeclared_ownField? own]
    rfl
  | @inherited u t declared found building single _ ih =>
    rw [M.visit_eq_cons found later, List.findSome?_cons]
    cases own : s.ownField? u name with
    | some f =>
      rw [M.asDeclared_ownField? own]
      rfl
    | none =>
      obtain ⟨kept, final⟩ := M.ownField?_of_single found building single own
      have supers : s.complexSuperTypesOf u = declared.superTypes := by
        simp [complexSuperTypesOf, found, ComplexType.shape, building, Lifecycle.shape]
      rw [final, supers]
      -- at most one super type is left to be asked, and it comes earlier in the order
      cases eq : declared.superTypes with
      | nil =>
        rw [visit]
        rfl
      | cons v others =>
        obtain rfl : others = [] := by
          rw [eq, List.length_cons] at single
          exact List.eq_nil_of_length_eq_zero (by omega)
        have hv : v ∈ declared.superTypes := by simp [eq]
        have mem := M.mem_of_complex? found
        rw [ih v hv (M.later_of_mem_keptBy mem (kept.symm ▸ hv) (later mem))]
        simp

theorem inheritedField?_of_settled (h : s.Settled name u) :
    (s.inheritedField? u name).map (·.asDeclared) =
      (r'.inheritedField? u name).map (·.asDeclared) := by
  rw [M.inheritedField?_final]
  exact M.findSome?_visit_of_settled h (by simp)

/-! ### Subtypes -/

/-- A complex type, seen at the start, at the moment and in the end. -/
theorem exists_complex? {t : ComplexType} (found : s.complex? u = some t) :
    (∃ t₀, r.complex? u = some t₀) ∧ ∃ t', r'.complex? u = some t' := by
  constructor
  · refine Option.ne_none_iff_exists'.1 fun absent => ?_
    rw [M.complex?_eq_none.1 absent] at found
    cases found
  · refine Option.ne_none_iff_exists'.1 fun absent => ?_
    rw [M.retains.sorts.complex?_eq_none.2 absent] at found
    cases found

theorem complexSubTypesOf_final {t' : ComplexType} (final : r'.complex? u = some t') :
    r'.complexSubTypesOf u = t'.subTypes.filter fun v => (s.complex? v).isSome := by
  rw [complexSubTypesOf, final]
  refine List.filter_congr fun v _ => ?_
  have named := congrArg Option.isSome (M.retains.sorts.map_name v)
  simpa using named.symm

/-- A frozen type gets more subtypes when they are frozen. -/
theorem exists_complexSubTypesOf_eq_of_isFrozen {t : ComplexType}
    (found : s.complex? u = some t) (frozen : s.isFrozen u = true) :
    ∃ later, r'.complexSubTypesOf u = s.complexSubTypesOf u ++ later ∧
      (∀ v ∈ s.complexSubTypesOf u, s.isFrozen v = true) ∧
        ∀ v ∈ later, s.isFrozen v = false := by
  obtain ⟨⟨t₀, start⟩, t', final⟩ := M.exists_complex? found
  have here : s.complexSubTypesOf u = t.subTypes.filter fun v => (s.complex? v).isSome := by
    rw [complexSubTypesOf, found]
  have done : t.isFrozen = true :=
    (isFrozen_of_get? (complex?_eq_some.1 found)).symm.trans frozen
  obtain ⟨rest, eq, sub⟩ := exists_foldl_appendNew_eq
    (after.filter fun v => u ∈ r'.complexSuperTypesOf v) t.subTypes
  have whole : t'.subTypes = t.subTypes ++ rest :=
    (M.retains.subTypes u t t' found done final).trans eq
  refine ⟨rest.filter fun v => (s.complex? v).isSome, ?_, fun v hv => ?_, fun v hv => ?_⟩
  · rw [M.complexSubTypesOf_final final, here, whole, List.filter_append]
  · rw [here] at hv
    have mem := (List.mem_filter.1 hv).1
    obtain ⟨n, found', progress⟩ := M.underway.get? (complex?_eq_some.1 start)
    obtain rfl := Option.some.inj ((complex?_eq_some.1 found).symm.trans found')
    cases progress with
    | untouched fresh => cases done.symm.trans fresh
    | underWay => cases done
    | frozen _ _ subTypes =>
      rcases subTypes v mem with mem | mem
      · rw [(M.declared start).subTypes] at mem
        cases mem
      · exact M.isFrozen_of_mem_before mem
  · exact M.isFrozen_of_mem_after (List.mem_filter.1 (sub v (List.mem_filter.1 hv).1)).1

/-- A type that is not frozen has no subtypes yet, and its subtypes are not frozen. -/
theorem complexSubTypesOf_of_not_isFrozen {t : ComplexType} (found : s.complex? u = some t)
    (fresh : s.isFrozen u = false) :
    s.complexSubTypesOf u = [] ∧ ∀ v ∈ r'.complexSubTypesOf u, s.isFrozen v = false := by
  obtain ⟨⟨t₀, start⟩, t', final⟩ := M.exists_complex? found
  have noSubTypes := (M.declared start).subTypes
  have mem : u ∈ after := by
    refine (List.mem_append.1 (M.mem_of_complex? found)).resolve_left fun mem => ?_
    rw [M.isFrozen_of_mem_before mem] at fresh
    cases fresh
  constructor
  · obtain ⟨t₁, _, start', -, same⟩ := M.found_of_mem_after mem
    obtain rfl := TypeNode.complex.inj
      (Option.some.inj ((complex?_eq_some.1 start).symm.trans start'))
    rw [complexSubTypesOf, found]
    have found := complex?_eq_some.1 found
    rcases same with same | same
    · cases found.symm.trans same
      simp [noSubTypes]
    · cases found.symm.trans same
      simp [noSubTypes]
  · intro v hv
    rw [M.complexSubTypesOf_final final, List.mem_filter] at hv
    have done := M.evolves.isFrozen_of_mem (List.mem_append_right before mem)
    have subType := (M.evolves.mem_subTypes (complex?_eq_some.1 start) (complex?_eq_some.1 final)
      ((isFrozen_of_get? (complex?_eq_some.1 final)).symm.trans done)).1 hv.1
    rw [noSubTypes] at subType
    have super := (subType.resolve_left (by simp)).2
    -- a subtype that is frozen would have frozen the type before
    by_contra frozen
    rw [Bool.not_eq_false] at frozen
    rw [← M.complexSuperTypesOf_eq frozen] at super
    rcases M.isFrozen_of_mem_superTypes frozen super with frozen' | absent
    · rw [fresh] at frozen'
      cases frozen'
    · rw [found] at absent
      cases absent

/-- The subtypes in the end are those of the moment, which are frozen, and others that are not. -/
theorem exists_complexSubTypesOf_eq (u : TypeId) : ∃ later,
    r'.complexSubTypesOf u = s.complexSubTypesOf u ++ later ∧
      (∀ v ∈ s.complexSubTypesOf u, s.isFrozen v = true) ∧
        ∀ v ∈ later, s.isFrozen v = false := by
  cases found : s.complex? u with
  | none =>
    have none : s.complexSubTypesOf u = [] := by rw [complexSubTypesOf, found]
    have none' : r'.complexSubTypesOf u = [] := by
      rw [complexSubTypesOf, M.retains.sorts.complex?_eq_none.1 found]
    exact ⟨[], by rw [none, none', List.nil_append], by simp [none], by simp⟩
  | some t =>
    cases frozen : s.isFrozen u with
    | true => exact M.exists_complexSubTypesOf_eq_of_isFrozen found frozen
    | false =>
      obtain ⟨none, fresh⟩ := M.complexSubTypesOf_of_not_isFrozen found frozen
      exact ⟨r'.complexSubTypesOf u, by rw [none, List.nil_append], by simp [none], fresh⟩

end Midway

end Repository

end EntityModel
