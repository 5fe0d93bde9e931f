/-
What paths mean in the middle of a freeze.

A plain name on a frozen type means what it means in the end (`Midway.field_eq`).  The steps
of a nested path may look at types that are not frozen yet, and subtypes only become known
when they are frozen.  A path still leads to the same declaration as in the end if what its
steps look at is settled (`Midway.field_of_settledPath`):

* the type where a step looks for its field settles the name, and if it is a subtype that
  has the field, that subtype is frozen;
* if a step names a subtype, the type of its field is frozen with all subtypes.
-/
import EntityModel.Proofs.Midway
import EntityModel.Proofs.SubtypeTrees

namespace EntityModel

namespace Repository

/-- The direct subtype whose field a step takes, if the type itself lacks the name. -/
def lender? (r : Repository) (id : TypeId) (name : String) : Option TypeId :=
  if (r.inheritedField? id name).isSome then none
  else (r.complexSubTypesOf id).find? fun v => (r.inheritedField? v name).isSome

/-- A step of `r` finds its field in `s` too. -/
structure SettledStep (s r : Repository) (id : TypeId) (name : String) : Prop where
  settled : s.Settled name id
  lender : ∀ v, r.lender? id name = some v → s.isFrozen v = true

/-- If a subtype is named, the subtypes are the same in `s` as in `r`. -/
def SettledNarrowing (s r : Repository) (declared : TypeId) (declaredName : String)
    (typeOverride : Option String) : Prop :=
  typeOverride = none ∨ typeOverride = some declaredName ∨
    ∀ v ∈ declared :: r.subTypes declared, s.isFrozen v = true

/-- What the steps of a path look at in `r` is settled in `s`. -/
def SettledSteps (s r : Repository) (origin path : String) (current : TypeId) (text : String) :
    List String → Prop
  | [] => ∀ step, PathStep.parse text path = .ok step → SettledStep s r current step.field
  | next :: others =>
    (∀ step, PathStep.parse text path = .ok step → SettledStep s r current step.field) ∧
      ∀ f typeOverride t, r.step origin path current text = .ok (f, typeOverride) →
        r.complex? f.valueType = some t → SettledNarrowing s r f.valueType t.name typeOverride ∧
          SettledSteps s r origin path (r.narrow f.valueType t.name typeOverride).1 next others

/-- What the path looks at in `r`, starting from the type, is settled in `s`. -/
def SettledPath (s r : Repository) (id : TypeId) (path : String) : Prop :=
  ∀ t text rest, r.complex? id = some t → Path.steps path = text :: rest →
    SettledSteps s r t.name path id text rest

variable {r r' s : Repository} {before after : List TypeId} {id u v : TypeId}
variable {name path : String}

theorem exists_complex_eq_error (absent : r.complex? id = none) : ∃ e, r.complex id = .error e := by
  cases answer : r.complex id with
  | error e => exact ⟨e, rfl⟩
  | ok t =>
    rw [complex_eq_ok_iff.1 answer] at absent
    cases absent

theorem toOption_field (r : Repository) (id : TypeId) (path : String) :
    (r.field id path).toOption =
      (r.complex? id).bind fun t => (r.resolveFrom id t.name path).outcome.toOption := by
  rw [field, resolve]
  cases found : r.complex? id with
  | some t => rw [complex_eq_ok_iff.2 found, Option.bind_some]
  | none =>
    obtain ⟨e, failed⟩ := exists_complex_eq_error found
    rw [failed]
    rfl

theorem toOption_resolveFrom (r : Repository) (id : TypeId) (origin : String)
    (plain : Path.isNested path = false) : (r.resolveFrom id origin path).outcome.toOption =
      if path.isEmpty then none else r.inheritedField? id path := by
  rw [resolveFrom, plain]
  split
  · rfl
  · cases r.inheritedField? id path <;> rfl

namespace Midway

variable (M : Midway r r' s before after)

include M

/-! ### Plain names -/

theorem field_eq (frozen : s.isFrozen id = true) (plain : Path.isNested path = false) :
    (s.field id path).toOption = (r'.field id path).toOption := by
  have named := M.retains.sorts.map_name id
  rw [toOption_field, toOption_field]
  simp only [toOption_resolveFrom _ _ _ plain, M.inheritedField?_of_isFrozen frozen]
  generalize s.complex? id = t at named ⊢
  generalize r'.complex? id = t' at named ⊢
  cases t <;> cases t' <;> simp_all

/-! ### Steps -/

theorem stepField?_of_settled (h : SettledStep s r' u name) :
    (s.stepField? u name).map (·.asDeclared) = (r'.stepField? u name).map (·.asDeclared) := by
  have own := M.inheritedField?_of_settled h.settled
  rw [stepField?, stepField?, Option.map_or, Option.map_or, own]
  cases final : r'.inheritedField? u name with
  | some f => rfl
  | none =>
    obtain ⟨later, eq, frozen, fresh⟩ := M.exists_complexSubTypesOf_eq u
    -- the subtypes of the moment are frozen, so they have the same fields in the end
    have same : (s.complexSubTypesOf u).findSome? (s.inheritedField? · name) =
        (s.complexSubTypesOf u).findSome? (r'.inheritedField? · name) :=
      findSome?_congr fun v hv => M.inheritedField?_of_isFrozen (frozen v hv) name
    rw [same, eq, List.findSome?_append]
    cases earlier : (s.complexSubTypesOf u).findSome? (r'.inheritedField? · name) with
    | some f => rfl
    | none =>
      -- a subtype of `later` that has the field would be the lender, but it is not frozen
      have lacking : later.findSome? (r'.inheritedField? · name) = none := by
        cases found : later.find? fun v => (r'.inheritedField? v name).isSome with
        | none =>
          refine List.findSome?_eq_none_iff.2 fun v hv => ?_
          simpa using List.find?_eq_none.1 found v hv
        | some v =>
          have others : (s.complexSubTypesOf u).find? (fun v => (r'.inheritedField? v name).isSome) =
              none := by
            refine List.find?_eq_none.2 fun v hv => ?_
            simp [List.findSome?_eq_none_iff.1 earlier v hv]
          have lender : r'.lender? u name = some v := by
            rw [lender?, final, if_neg (by simp), eq, List.find?_append, others, found]
            rfl
          have frozen := h.lender v lender
          rw [fresh v (List.mem_of_find?_eq_some found)] at frozen
          cases frozen
      rw [lacking]
      rfl

theorem step_of_settled (origin : String) {text : String}
    (h : ∀ step, PathStep.parse text path = .ok step → SettledStep s r' u step.field) :
    (∃ e e', s.step origin path u text = .error e ∧ r'.step origin path u text = .error e') ∨
      ∃ f g typeOverride, s.step origin path u text = .ok (f, typeOverride) ∧
        r'.step origin path u text = .ok (g, typeOverride) ∧ f.asDeclared = g.asDeclared := by
  rw [step, step]
  cases parsed : PathStep.parse text path with
  | error e => exact .inl ⟨e, e, rfl, rfl⟩
  | ok p =>
    have same := M.stepField?_of_settled (h p parsed)
    simp only [bind, Except.bind]
    cases found : s.stepField? u p.field with
    | none =>
      rw [found, eq_comm, Option.map_none, Option.map_eq_none_iff] at same
      rw [same]
      exact .inl ⟨_, _, rfl, rfl⟩
    | some f =>
      rw [found, eq_comm, Option.map_some, Option.map_eq_some_iff] at same
      obtain ⟨g, found', same⟩ := same
      rw [found']
      exact .inr ⟨f, g, p.typeOverride, rfl, rfl, same.symm⟩

theorem complexSubTypesOf_eq (h : ∀ v ∈ r'.complexSubTypesOf u, s.isFrozen v = true) :
    s.complexSubTypesOf u = r'.complexSubTypesOf u := by
  obtain ⟨later, eq, -, fresh⟩ := M.exists_complexSubTypesOf_eq u
  have none : later = [] := by
    refine List.eq_nil_iff_forall_not_mem.2 fun v hv => ?_
    have frozen := h v (by rw [eq]; exact List.mem_append_right _ hv)
    rw [fresh v hv] at frozen
    cases frozen
  rw [eq, none, List.append_nil]

theorem subTypes_eq (h : ∀ v ∈ id :: r'.subTypes id, s.isFrozen v = true) :
    s.subTypes id = r'.subTypes id := by
  -- the traversal asks only types that it has reached, and those are frozen
  have next : ∀ v ∈ id :: r'.subTypes id, s.complexSubTypesOf v = r'.complexSubTypesOf v :=
    fun v hv => M.complexSubTypesOf_eq fun w hw => h w (mem_tree_of_edge hv hw)
  rw [subTypes, ← M.retains.sorts.ids, next id List.mem_cons_self]
  exact visit_congr fun v hv => next v (List.mem_cons_of_mem id hv)

theorem narrow_of_settled {declaredName : String} {typeOverride : Option String}
    (h : SettledNarrowing s r' u declaredName typeOverride) :
    s.narrow u declaredName typeOverride = r'.narrow u declaredName typeOverride := by
  cases typeOverride with
  | none => rfl
  | some requested =>
    rw [narrow, narrow]
    rcases h with same | same | frozen
    · cases same
    · rw [if_pos (Option.some.inj same), if_pos (Option.some.inj same)]
    · have same : s.subTypeNamed? u requested = r'.subTypeNamed? u requested := by
        rw [subTypeNamed?, subTypeNamed?, M.subTypes_eq frozen]
        simp only [M.retains.sorts.map_name]
      rw [same]

/-! ### Paths -/

theorem follow_of_settled {origin text : String} {rest : List String}
    (h : SettledSteps s r' origin path u text rest) :
    (s.follow origin path u text rest).outcome.toOption.map (·.asDeclared) =
      (r'.follow origin path u text rest).outcome.toOption.map (·.asDeclared) := by
  induction rest generalizing u text with
  | nil =>
    rw [follow, follow]
    obtain ⟨e, e', failed, failed'⟩ | ⟨f, g, o, taken, taken', same⟩ := M.step_of_settled origin h
    · rw [failed, failed']
      rfl
    · rw [taken, taken']
      exact congrArg some same
  | cons next others ih =>
    obtain ⟨first, others⟩ := h
    rw [follow, follow]
    obtain ⟨e, e', failed, failed'⟩ | ⟨f, g, o, taken, taken', same⟩ := M.step_of_settled origin first
    · rw [failed, failed']
      rfl
    · -- the next step starts at the same type, for both fields are one declaration
      have value : f.valueType = g.valueType := congrArg (·.valueType) same
      have named := M.retains.sorts.map_name g.valueType
      rw [taken, taken']
      dsimp only
      rw [value]
      cases final : r'.complex? g.valueType with
      | none =>
        obtain ⟨e, failed⟩ := exists_complex_eq_error (M.retains.sorts.complex?_eq_none.2 final)
        obtain ⟨e', failed'⟩ := exists_complex_eq_error final
        rw [failed, failed']
        rfl
      | some t' =>
        rw [final, Option.map_some, Option.map_eq_some_iff] at named
        obtain ⟨t, found, named⟩ := named
        obtain ⟨narrowing, rest⟩ := others g o t' taken' final
        rw [complex_eq_ok_iff.2 found, complex_eq_ok_iff.2 final]
        dsimp only
        rw [named, M.narrow_of_settled narrowing]
        exact ih rest

/-- A path leads to the declaration to which it leads in the end, if what it looks at is
settled. -/
theorem field_of_settledPath (nested : Path.isNested path = true)
    (h : SettledPath s r' id path) :
    (s.field id path).toOption.map (·.asDeclared) =
      (r'.field id path).toOption.map (·.asDeclared) := by
  have named := M.retains.sorts.map_name id
  rw [toOption_field, toOption_field]
  cases final : r'.complex? id with
  | none =>
    rw [M.retains.sorts.complex?_eq_none.2 final]
    rfl
  | some t' =>
    rw [final, Option.map_some, Option.map_eq_some_iff] at named
    obtain ⟨t, found, named⟩ := named
    rw [found, Option.bind_some, Option.bind_some, named, resolveFrom, resolveFrom, nested]
    cases steps : Path.steps path with
    | nil => split <;> rfl
    | cons text rest =>
      have same := M.follow_of_settled (h t' text rest final steps)
      split
      · rfl
      · exact same

/-- When all types are frozen, every path is settled. -/
theorem settledPath (last : after = []) (id : TypeId) (path : String) :
    SettledPath s r' id path := by
  have frozen : ∀ v t, r'.complex? v = some t → s.isFrozen v = true := by
    intro v t final
    cases found : s.complex? v with
    | none =>
      rw [M.retains.sorts.complex?_eq_none.1 found] at final
      cases final
    | some t' =>
      have mem := M.mem_of_complex? found
      rw [last, List.append_nil] at mem
      exact M.isFrozen_of_mem_before mem
  have step : ∀ u name, SettledStep s r' u name := by
    intro u name
    constructor
    · cases found : r'.complex? u with
      | none => exact .notComplex (M.retains.sorts.complex?_eq_none.2 found)
      | some t => exact .frozen (frozen u t found)
    · intro v lender
      rw [lender?] at lender
      split at lender
      · cases lender
      · obtain ⟨t, found⟩ := complex?_of_mem_complexSubTypesOf (List.mem_of_find?_eq_some lender)
        exact frozen v t found
  have steps : ∀ origin rest u text, SettledSteps s r' origin path u text rest := by
    intro origin rest
    induction rest with
    | nil => exact fun u text p _ => step u p.field
    | cons next others ih =>
      refine fun u text => ⟨fun p _ => step u p.field, fun f typeOverride t _ found => ⟨?_, ih _ next⟩⟩
      refine .inr (.inr (List.forall_mem_cons.2 ⟨frozen _ t found, fun v hv => ?_⟩))
      obtain ⟨t', found'⟩ := complex?_of_mem_subTypes hv
      exact frozen v t' found'
  exact fun t text rest _ _ => steps t.name rest id text

end Midway

end Repository

end EntityModel
