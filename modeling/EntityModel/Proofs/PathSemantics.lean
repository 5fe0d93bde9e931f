/-
What a nested path means.

The meaning is told without a search loop: a step finds a field in the lineage of a type, or else
in that of a direct subtype (`Repository.FindsField`), and where the next step starts depends on
the type of the field and on the subtype that the step names (`Repository.LeadsTo`).  Steps that
follow each other lead to a field (`Repository.Leads`) or fail (`Repository.Fails`).

A path is resolved to what it means, and to nothing else: `field_nested_iff`.
-/
import EntityModel.Proofs.HierarchySearch
import EntityModel.Proofs.PathTexts
import EntityModel.Proofs.Resolving
import EntityModel.Proofs.ShadowSearch

namespace EntityModel

namespace Repository

/-! ### Meaning -/

/-- The super types of a complex type that are complex themselves. -/
def complexParentsOf (r : Repository) (id : TypeId) : List TypeId :=
  (r.complexSuperTypesOf id).filter fun s => (r.complex? s).isSome

/-- `f` is the field `name` of the first type that has one, among the type and what it inherits
from in depth-first order. -/
def InheritsField (r : Repository) (id : TypeId) (name : String) (f : Field) : Prop :=
  ∃ lineage owner, DepthFirst r.complexParentsOf [] [id] lineage ∧
    IsFirst (fun u => (r.ownField? u name).isSome) lineage owner ∧ r.ownField? owner name = some f

/-- `f` is the field that a step finds as `name` at the type. -/
inductive FindsField (r : Repository) (id : TypeId) (name : String) (f : Field) : Prop
  | inherited (h : r.InheritsField id name f)
  /-- The type has no such field, but a direct subtype has. -/
  | lent (lender : TypeId) (lacks : ∀ g, ¬ r.InheritsField id name g)
      (first : IsFirst (fun u => ∃ g, r.InheritsField u name g) (r.complexSubTypesOf id) lender)
      (h : r.InheritsField lender name f)

/-- The complex type `id` is called `name`. -/
def IsNamed (r : Repository) (name : String) (id : TypeId) : Prop :=
  (r.complex? id).map (·.name) = some name

/-- Where the next step starts, if the field has the type `declared` and the step names
`typeOverride`. -/
inductive LeadsTo (r : Repository) (declared : TypeId) : Option String → TypeId → Prop
  | plain (t) (found : r.complex? declared = some t) : LeadsTo r declared none declared
  | itself (name) (named : r.IsNamed name declared) : LeadsTo r declared (some name) declared
  | narrowed (t name subTypes u) (found : r.complex? declared = some t) (other : name ≠ t.name)
      (order : DepthFirst r.complexSubTypesOf [] [declared] (declared :: subTypes))
      (first : IsFirst (r.IsNamed name) subTypes u) : LeadsTo r declared (some name) u
  | unknown (t name subTypes) (found : r.complex? declared = some t) (other : name ≠ t.name)
      (order : DepthFirst r.complexSubTypesOf [] [declared] (declared :: subTypes))
      (absent : ∀ u ∈ subTypes, ¬ r.IsNamed name u) : LeadsTo r declared (some name) declared

/-- The steps lead from the type to the field `f`. -/
inductive Leads (r : Repository) (path : String) : TypeId → List String → Field → Prop
  | last {id text step f} (parsed : PathStep.parse text path = .ok step)
      (finds : r.FindsField id step.field f) : Leads r path id [text] f
  | next {id text step g u rest f} (parsed : PathStep.parse text path = .ok step)
      (finds : r.FindsField id step.field g) (leads : r.LeadsTo g.valueType step.typeOverride u)
      (others : Leads r path u rest f) : Leads r path id (text :: rest) f

/-- The steps do not lead to a field from the type, for the reason `e`; `origin` is the name of
the type where the path starts. -/
inductive Fails (r : Repository) (origin path : String) : TypeId → List String → ModelError → Prop
  | noStep {id} : Fails r origin path id [] (.unresolvedField origin path path)
  | emptyOverride {id text rest} (empty : Path.NamesNoType text) :
      Fails r origin path id (text :: rest) (.illegalArgument (.emptyOverride path))
  | missing {id text step rest} (parsed : PathStep.parse text path = .ok step)
      (lacks : ∀ f, ¬ r.FindsField id step.field f) :
      Fails r origin path id (text :: rest) (.unresolvedField origin path step.field)
  | unknownType {id text step g next rest} (parsed : PathStep.parse text path = .ok step)
      (finds : r.FindsField id step.field g) (absent : r.get? g.valueType = none) :
      Fails r origin path id (text :: next :: rest) (.unknownType g.valueType)
  | notComplex {id text step g t next rest} (parsed : PathStep.parse text path = .ok step)
      (finds : r.FindsField id step.field g) (simple : r.get? g.valueType = some (.simple t)) :
      Fails r origin path id (text :: next :: rest) (.notComplex t.name)
  | later {id text step g u next rest e} (parsed : PathStep.parse text path = .ok step)
      (finds : r.FindsField id step.field g) (leads : r.LeadsTo g.valueType step.typeOverride u)
      (fails : Fails r origin path u (next :: rest) e) :
      Fails r origin path id (text :: next :: rest) e

variable {r : Repository} {id u : TypeId} {name origin path text : String} {f : Field}

/-! ### Fields of a lineage -/

theorem mem_ids_of_mem_complexParentsOf {v : TypeId} (h : v ∈ r.complexParentsOf u) : u ∈ r.ids :=
  mem_ids_of_mem_complexSuperTypesOf (List.mem_filter.1 h).1

theorem findSome?_ownField?_filter (r : Repository) (name : String) (l : List TypeId) :
    (l.filter fun u => (r.complex? u).isSome).findSome? (r.ownField? · name) =
      l.findSome? (r.ownField? · name) := by
  induction l with
  | nil => rfl
  | cons x rest ih =>
    cases found : r.complex? x with
    | some t =>
      rw [List.filter_cons_of_pos (by simp [found]), List.findSome?_cons, List.findSome?_cons, ih]
    | none =>
      have lacks : r.ownField? x name = none := by rw [ownField?, found]; rfl
      rw [List.filter_cons_of_neg (by simp [found]), ih, List.findSome?_cons, lacks]

theorem filter_complexSuperTypesOf_eq_nil (h : (r.complex? u).isSome = false) :
    (r.complexSuperTypesOf u).filter (fun s => (r.complex? s).isSome) = [] := by
  have absent : r.complex? u = none := by simpa using h
  rw [complexSuperTypesOf, absent]
  rfl

theorem filter_lineage (r : Repository) (id : TypeId) :
    (r.lineage id).filter (fun u => (r.complex? u).isSome) =
      visit r.ids r.complexParentsOf [] ([id].filter fun u => (r.complex? u).isSome) :=
  filter_visit (fun _ _ => .rfl) (fun _ _ => rfl) (fun _ => filter_complexSuperTypesOf_eq_nil)
    fun _ _ => .rfl

theorem filter_visit_complexParentsOf (r : Repository) (id : TypeId) :
    (visit r.ids r.complexParentsOf [] [id]).filter (fun u => (r.complex? u).isSome) =
      visit r.ids r.complexParentsOf [] ([id].filter fun u => (r.complex? u).isSome) := by
  refine filter_visit (fun _ _ => .rfl) (fun x _ => ?_) (fun x absent => ?_) fun _ _ => .rfl
  · simp only [complexParentsOf, List.filter_filter, Bool.and_self]
  · rw [complexParentsOf, filter_complexSuperTypesOf_eq_nil absent, List.filter_nil]

/-- For a field it makes no difference whether simple and unknown types are searched. -/
theorem inheritedField?_eq_findSome?_visit (r : Repository) (id : TypeId) (name : String) :
    r.inheritedField? id name =
      (visit r.ids r.complexParentsOf [] [id]).findSome? (r.ownField? · name) := by
  rw [inheritedField?_eq_findSome?, ← findSome?_ownField?_filter, filter_lineage,
    ← filter_visit_complexParentsOf, findSome?_ownField?_filter]

theorem inheritedField?_eq_some_iff :
    r.inheritedField? id name = some f ↔ r.InheritsField id name f := by
  have order : ∀ l, DepthFirst r.complexParentsOf [] [id] l ↔
      l = visit r.ids r.complexParentsOf [] [id] :=
    fun l => depthFirst_iff fun _ _ => mem_ids_of_mem_complexParentsOf
  simp only [inheritedField?_eq_findSome?_visit, findSome?_eq_some_iff_isFirst, InheritsField,
    order, exists_and_left, exists_eq_left]

theorem isSome_inheritedField?_iff :
    (r.inheritedField? id name).isSome = true ↔ ∃ f, r.InheritsField id name f := by
  simp only [Option.isSome_iff_exists, inheritedField?_eq_some_iff]

/-! ### Steps -/

theorem stepField?_eq_some_iff : r.stepField? id name = some f ↔ r.FindsField id name f := by
  have own : ∀ g, r.inheritedField? id name = some g ↔ r.InheritsField id name g :=
    fun _ => inheritedField?_eq_some_iff
  rw [stepField?, Option.or_eq_some_iff, own]
  constructor
  · rintro (h | ⟨lacks, lent⟩)
    · exact .inherited h
    · obtain ⟨s, first, found⟩ := findSome?_eq_some_iff_isFirst.1 lent
      simp only [isSome_inheritedField?_iff] at first
      refine .lent s (fun g h => ?_) first (inheritedField?_eq_some_iff.1 found)
      rw [(own g).2 h] at lacks
      cases lacks
  · rintro (h | ⟨s, lacks, first, found⟩)
    · exact .inl h
    · refine .inr ⟨?_, findSome?_eq_some_iff_isFirst.2 ⟨s, ?_, inheritedField?_eq_some_iff.2 found⟩⟩
      · exact Option.eq_none_iff_forall_ne_some.2 fun g h => lacks g ((own g).1 h)
      · simpa only [isSome_inheritedField?_iff] using first

theorem stepField?_eq_none_iff : r.stepField? id name = none ↔ ∀ f, ¬ r.FindsField id name f := by
  simp only [Option.eq_none_iff_forall_ne_some, ne_eq, stepField?_eq_some_iff]

theorem subTypeNamed?_eq_some_iff :
    r.subTypeNamed? id name = some u ↔ IsFirst (r.IsNamed name) (r.subTypes id) u := by
  simp only [subTypeNamed?, find?_eq_some_iff_isFirst, beq_iff_eq]
  rfl

theorem subTypeNamed?_eq_none_iff :
    r.subTypeNamed? id name = none ↔ ∀ u ∈ r.subTypes id, ¬ r.IsNamed name u := by
  simp only [subTypeNamed?, List.find?_eq_none, beq_iff_eq, IsNamed]

theorem isNamed_iff {t : ComplexType} (found : r.complex? id = some t) :
    r.IsNamed name id ↔ name = t.name := by
  rw [IsNamed, found, Option.map_some, Option.some.injEq, eq_comm]

/-- The next step starts where the meaning of the path says. -/
theorem leadsTo_iff {t : ComplexType} {typeOverride : Option String}
    (found : r.complex? id = some t) :
    r.LeadsTo id typeOverride u ↔ u = (r.narrow id t.name typeOverride).1 := by
  constructor
  · rintro (⟨-, -⟩ | ⟨name, named⟩ | ⟨t', name, subTypes, _, found', other, order, first⟩ |
      ⟨t', name, subTypes, found', other, order, absent⟩)
    · rfl
    · rw [narrow, if_pos ((isNamed_iff found).1 named)]
    all_goals
      obtain rfl := Option.some.inj (found.symm.trans found')
      obtain rfl := (List.cons.inj (depthFirst_iff_subTypes.1 order)).2
      rw [narrow, if_neg other]
    · rw [subTypeNamed?_eq_some_iff.2 first]
    · rw [subTypeNamed?_eq_none_iff.2 absent]
  · rintro rfl
    cases typeOverride with
    | none => exact .plain t found
    | some requested =>
      rw [narrow]
      split
      · next same => exact .itself requested ((isNamed_iff found).2 same)
      · next other =>
        have order := depthFirst_iff_subTypes.2 (rfl : _ = id :: r.subTypes id)
        cases sub : r.subTypeNamed? id requested with
        | none => exact .unknown t _ _ found other order (subTypeNamed?_eq_none_iff.1 sub)
        | some v => exact .narrowed t _ _ v found other order (subTypeNamed?_eq_some_iff.1 sub)

/-- Only a field of a complex type leads on. -/
theorem LeadsTo.exists_complex {typeOverride : Option String} (h : r.LeadsTo id typeOverride u) :
    ∃ t, r.complex? id = some t := by
  cases h with
  | plain t found | narrowed t _ _ _ found | unknown t _ _ found => exact ⟨t, found⟩
  | itself name named => exact (Option.map_eq_some_iff.1 named).imp fun _ => And.left

theorem complex_eq_error_iff {e : ModelError} : r.complex id = .error e ↔
    (r.get? id = none ∧ e = .unknownType id) ∨
      ∃ t, r.get? id = some (.simple t) ∧ e = .notComplex t.name := by
  rw [complex]
  cases r.get? id with
  | none => simp [eq_comm]
  | some n => cases n <;> simp [eq_comm]

theorem step_eq_ok_iff {typeOverride : Option String} :
    r.step origin path id text = .ok (f, typeOverride) ↔
      ∃ step, PathStep.parse text path = .ok step ∧ r.FindsField id step.field f ∧
        step.typeOverride = typeOverride := by
  rw [step]
  cases PathStep.parse text path with
  | error e => exact ⟨nofun, nofun⟩
  | ok p =>
    simp only [bind, Except.bind, ← stepField?_eq_some_iff]
    cases found : r.stepField? id p.field with
    | none => simp [found, throw, throwThe, MonadExceptOf.throw]
    | some g => simp [found, pure, Except.pure]

theorem step_eq_error_iff {e : ModelError} : r.step origin path id text = .error e ↔
    (Path.NamesNoType text ∧ e = .illegalArgument (.emptyOverride path)) ∨
      ∃ step, PathStep.parse text path = .ok step ∧ (∀ f, ¬ r.FindsField id step.field f) ∧
        e = .unresolvedField origin path step.field := by
  rw [step, ← PathStep.parse_eq_error_iff]
  cases PathStep.parse text path with
  | error e' => simp [bind, Except.bind]
  | ok p =>
    simp only [bind, Except.bind, ← stepField?_eq_none_iff]
    cases found : r.stepField? id p.field with
    | none => simp [found, throw, throwThe, MonadExceptOf.throw, eq_comm]
    | some g => simp [found, pure, Except.pure]

/-! ### Paths -/

theorem follow_cons (r : Repository) (origin path : String) (id : TypeId) (text next : String)
    (others : List String) : (r.follow origin path id text (next :: others)).outcome =
      (r.step origin path id text).bind fun p => (r.complex p.1.valueType).bind fun t =>
        (r.follow origin path (r.narrow p.1.valueType t.name p.2).1 next others).outcome := by
  rw [follow]
  cases r.step origin path id text with
  | error e => rfl
  | ok p =>
    simp only [Except.bind]
    cases r.complex p.1.valueType <;> rfl

theorem Fails.of_step {rest : List String} {e : ModelError}
    (h : r.step origin path id text = .error e) : r.Fails origin path id (text :: rest) e := by
  obtain ⟨empty, rfl⟩ | ⟨step, parsed, lacks, rfl⟩ := step_eq_error_iff.1 h
  · exact .emptyOverride empty
  · exact .missing parsed lacks

/-- What comes of following steps is what they mean. -/
theorem follow_means (r : Repository) (origin path : String) (id : TypeId) (text : String)
    (rest : List String) :
    (∃ f, (r.follow origin path id text rest).outcome = .ok f ∧ r.Leads path id (text :: rest) f) ∨
      ∃ e, (r.follow origin path id text rest).outcome = .error e ∧
        r.Fails origin path id (text :: rest) e := by
  induction rest generalizing id text with
  | nil =>
    rw [follow]
    cases taken : r.step origin path id text with
    | error e => exact .inr ⟨e, rfl, .of_step taken⟩
    | ok p =>
      obtain ⟨step, parsed, finds, -⟩ := step_eq_ok_iff.1 taken
      exact .inl ⟨p.1, rfl, .last parsed finds⟩
  | cons next others ih =>
    rw [follow_cons]
    cases taken : r.step origin path id text with
    | error e => exact .inr ⟨e, rfl, .of_step taken⟩
    | ok p =>
      obtain ⟨step, parsed, finds, named⟩ := step_eq_ok_iff.1 taken
      simp only [Except.bind]
      cases complex : r.complex p.1.valueType with
      | error e =>
        refine .inr ⟨e, rfl, ?_⟩
        obtain ⟨absent, rfl⟩ | ⟨t, simple, rfl⟩ := complex_eq_error_iff.1 complex
        · exact .unknownType parsed finds absent
        · exact .notComplex parsed finds simple
      | ok t =>
        have leads : r.LeadsTo p.1.valueType step.typeOverride
            (r.narrow p.1.valueType t.name p.2).1 :=
          (leadsTo_iff (complex_eq_ok_iff.1 complex)).2 (by rw [named])
        obtain ⟨f, done, others⟩ | ⟨e, done, fails⟩ := ih _ next
        · exact .inl ⟨f, done, .next parsed finds leads others⟩
        · exact .inr ⟨e, done, .later parsed finds leads fails⟩

/-- After a step that leads on, the other steps decide. -/
theorem follow_of_leadsTo {step : PathStep} {next : String} {others : List String}
    (parsed : PathStep.parse text path = .ok step) (finds : r.FindsField id step.field f)
    (leads : r.LeadsTo f.valueType step.typeOverride u) :
    (r.follow origin path id text (next :: others)).outcome =
      (r.follow origin path u next others).outcome := by
  obtain ⟨t, found⟩ := leads.exists_complex
  rw [follow_cons, step_eq_ok_iff.2 ⟨_, parsed, finds, rfl⟩, (leadsTo_iff found).1 leads]
  simp only [Except.bind]
  rw [complex_eq_ok_iff.2 found]

theorem Leads.follow {rest : List String} (h : r.Leads path id (text :: rest) f) :
    (r.follow origin path id text rest).outcome = .ok f := by
  induction rest generalizing id text with
  | nil =>
    obtain ⟨parsed, finds⟩ | ⟨-, -, -, ⟨⟩⟩ := h
    rw [Repository.follow, step_eq_ok_iff.2 ⟨_, parsed, finds, rfl⟩]
    rfl
  | cons next others ih =>
    obtain - | ⟨parsed, finds, leads, others⟩ := h
    rw [follow_of_leadsTo parsed finds leads]
    exact ih others

theorem Fails.follow {rest : List String} {e : ModelError}
    (h : r.Fails origin path id (text :: rest) e) :
    (r.follow origin path id text rest).outcome = .error e := by
  induction rest generalizing id text with
  | nil =>
    rw [Repository.follow]
    obtain - | empty | ⟨parsed, lacks⟩ := h
    · rw [step_eq_error_iff.2 (.inl ⟨empty, rfl⟩)]
      rfl
    · rw [step_eq_error_iff.2 (.inr ⟨_, parsed, lacks, rfl⟩)]
      rfl
  | cons next others ih =>
    obtain - | empty | ⟨parsed, lacks⟩ | ⟨parsed, finds, absent⟩ | ⟨parsed, finds, simple⟩ |
      ⟨parsed, finds, leads, fails⟩ := h
    · rw [follow_cons, step_eq_error_iff.2 (.inl ⟨empty, rfl⟩)]
      rfl
    · rw [follow_cons, step_eq_error_iff.2 (.inr ⟨_, parsed, lacks, rfl⟩)]
      rfl
    · rw [follow_cons, step_eq_ok_iff.2 ⟨_, parsed, finds, rfl⟩]
      simp only [Except.bind]
      rw [complex_eq_error_iff.2 (.inl ⟨absent, rfl⟩)]
    · rw [follow_cons, step_eq_ok_iff.2 ⟨_, parsed, finds, rfl⟩]
      simp only [Except.bind]
      rw [complex_eq_error_iff.2 (.inr ⟨_, simple, rfl⟩)]
    · rw [follow_of_leadsTo parsed finds leads]
      exact ih fails

theorem follow_eq_ok_iff {rest : List String} :
    (r.follow origin path id text rest).outcome = .ok f ↔ r.Leads path id (text :: rest) f := by
  refine ⟨fun done => ?_, Leads.follow⟩
  obtain ⟨g, same, leads⟩ | ⟨e, failed, -⟩ :=
    r.follow_means origin path id text rest
  · rwa [Except.ok.inj (done.symm.trans same)]
  · cases failed.symm.trans done

theorem follow_eq_error_iff {rest : List String} {e : ModelError} :
    (r.follow origin path id text rest).outcome = .error e ↔
      r.Fails origin path id (text :: rest) e := by
  refine ⟨fun failed => ?_, Fails.follow⟩
  obtain ⟨f, done, -⟩ | ⟨e', same, fails⟩ :=
    r.follow_means origin path id text rest
  · cases failed.symm.trans done
  · rwa [Except.error.inj (failed.symm.trans same)]

theorem resolveFrom_of_nested (origin : String) (nested : '/' ∈ path.toList) :
    r.resolveFrom id origin path = match Path.segments path with
      | [] => .failure (.unresolvedField origin path path)
      | step :: rest => r.follow origin path id step rest := by
  have nonempty : path.isEmpty = false := by
    rw [String.isEmpty_eq_false_iff]
    rintro rfl
    simp at nested
  rw [resolveFrom, nonempty, Path.isNested_eq_true_iff.2 nested, ← Path.steps_eq_segments]
  rfl

theorem outcome_resolveFrom_iff (nested : '/' ∈ path.toList) :
    (∀ f, (r.resolveFrom id origin path).outcome = .ok f ↔ r.Leads path id (Path.segments path) f) ∧
      ∀ e, (r.resolveFrom id origin path).outcome = .error e ↔
        r.Fails origin path id (Path.segments path) e := by
  rw [resolveFrom_of_nested _ nested]
  cases Path.segments path with
  | nil =>
    refine ⟨fun f => ⟨nofun, nofun⟩, fun e => ⟨?_, ?_⟩⟩
    · rintro ⟨⟩
      exact .noStep
    · rintro ⟨⟩
      rfl
  | cons text rest => exact ⟨fun _ => follow_eq_ok_iff, fun _ => follow_eq_error_iff⟩

theorem exists_complex_of_field (h : r.field id path = .ok f) : ∃ t, r.complex? id = some t := by
  rw [field, resolve] at h
  cases complex : r.complex id with
  | error e =>
    rw [complex] at h
    cases h
  | ok t => exact ⟨t, complex_eq_ok_iff.1 complex⟩

theorem field_eq_outcome {t : ComplexType} (found : r.complex? id = some t) :
    r.field id path = (r.resolveFrom id t.name path).outcome := by
  rw [field, resolve, complex_eq_ok_iff.2 found]

theorem field_eq_ok_iff_leads (nested : '/' ∈ path.toList) : r.field id path = .ok f ↔
    (∃ t, r.complex? id = some t) ∧ r.Leads path id (Path.segments path) f := by
  constructor
  · intro h
    obtain ⟨t, found⟩ := exists_complex_of_field h
    rw [field_eq_outcome found] at h
    exact ⟨⟨t, found⟩, ((outcome_resolveFrom_iff nested).1 f).1 h⟩
  · rintro ⟨⟨t, found⟩, leads⟩
    rw [field_eq_outcome found]
    exact ((outcome_resolveFrom_iff nested).1 f).2 leads

/-- A nested path is resolved to the field to which its segments lead; otherwise it fails for the
reason that they give. -/
theorem field_nested_iff {t : ComplexType} (found : r.complex? id = some t)
    (nested : '/' ∈ path.toList) :
    (∀ f, r.field id path = .ok f ↔ r.Leads path id (Path.segments path) f) ∧
      ∀ e, r.field id path = .error e ↔ r.Fails t.name path id (Path.segments path) e := by
  rw [field_eq_outcome found]
  exact outcome_resolveFrom_iff nested

/-- A person lives at an address, perhaps a Chinese one, in a province; an employee is a person
and has a boss.  Addresses and Chinese addresses are listed as subtypes of each other. -/
def residents : Repository :=
  [.addComplexType ⟨"", "Address"⟩ true {}, .addComplexType ⟨"", "CNAddress"⟩ true {},
    .addField ⟨34⟩ (.declare ⟨34⟩ "province" ⟨11⟩ .simple),
    .addComplexType ⟨"", "Person"⟩ true {},
    .addField ⟨35⟩ (.declare ⟨35⟩ "home" ⟨33⟩ .contained),
    .addComplexType ⟨"", "Employee"⟩ true {},
    .addField ⟨36⟩ (.declare ⟨36⟩ "boss" ⟨35⟩ .contained),
    .setSubTypes ⟨33⟩ [⟨34⟩], .setSubTypes ⟨34⟩ [⟨33⟩],
    .setSubTypes ⟨35⟩ [⟨36⟩]].foldl perform (Session.start {}).repository

/-- The way to the province where the boss of a person lives. -/
def provincePath : String := "boss/home[@xsi:type=\"CNAddress\"]/province"

/-- A boss is found on an employee, and a province on a Chinese address. -/
theorem exists_leads_provincePath : ∃ f, f.name = "province" ∧
    residents.Leads provincePath ⟨35⟩ (Path.segments provincePath) f := by
  have found : (residents.complex? ⟨35⟩).map (·.name) = some "Person" ∧
      (residents.stepField? ⟨35⟩ "boss").map (·.valueType) = some ⟨35⟩ ∧
      (residents.stepField? ⟨35⟩ "home").map (·.valueType) = some ⟨33⟩ ∧
      (residents.complex? ⟨33⟩).map (·.name) = some "Address" ∧
      (residents.narrow ⟨33⟩ "Address" (some "CNAddress")).1 = ⟨34⟩ ∧
      (residents.stepField? ⟨34⟩ "province").map (·.name) = some "province" := by
    rw [residents, Session.repository_start]
    cbv
  have steps : Path.segments provincePath =
      ["boss", "home[@xsi:type=\"CNAddress\"]", "province"] := by decide +kernel
  have texts : PathStep.parse "boss" provincePath = .ok { field := "boss" } ∧
      PathStep.parse "home[@xsi:type=\"CNAddress\"]" provincePath =
        .ok { field := "home", typeOverride := some "CNAddress" } ∧
      PathStep.parse "province" provincePath = .ok { field := "province" } := by cbv
  -- from here on it does not matter what the repository is
  generalize residents = r at *
  obtain ⟨person, boss, home, address, narrowed, province⟩ := found
  obtain ⟨t, person, -⟩ := Option.map_eq_some_iff.1 person
  obtain ⟨b, boss, isPerson⟩ := Option.map_eq_some_iff.1 boss
  obtain ⟨h, home, isAddress⟩ := Option.map_eq_some_iff.1 home
  obtain ⟨a, address, called⟩ := Option.map_eq_some_iff.1 address
  obtain ⟨f, province, name⟩ := Option.map_eq_some_iff.1 province
  have toPerson : r.LeadsTo b.valueType none ⟨35⟩ := by
    rw [isPerson]
    exact .plain t person
  have toAddress : r.LeadsTo h.valueType (some "CNAddress") ⟨34⟩ := by
    rw [isAddress, leadsTo_iff address, called, narrowed]
  rw [steps]
  exact ⟨f, name, .next texts.1 (stepField?_eq_some_iff.1 boss) toPerson
    (.next texts.2.1 (stepField?_eq_some_iff.1 home) toAddress
      (.last texts.2.2 (stepField?_eq_some_iff.1 province)))⟩

/-- So the path is resolved to the province; without the boss, there is no province. -/
theorem field_nested_iff_residents : ∃ t f, residents.complex? ⟨35⟩ = some t ∧
    '/' ∈ provincePath.toList ∧ f.name = "province" ∧
    residents.Leads provincePath ⟨35⟩ (Path.segments provincePath) f ∧
    residents.field ⟨35⟩ provincePath = .ok f ∧
    residents.field ⟨35⟩ "/province" =
      .error (.unresolvedField "Person" "/province" "province") ∧
    residents.Fails t.name "/province" ⟨35⟩ (Path.segments "/province")
      (.unresolvedField "Person" "/province" "province") := by
  have facts : (residents.complex? ⟨35⟩).isSome = true ∧ residents.field ⟨35⟩ "/province" =
      .error (.unresolvedField "Person" "/province" "province") := by
    rw [residents, Session.repository_start]
    cbv
  obtain ⟨f, name, leads⟩ := exists_leads_provincePath
  have nested : '/' ∈ provincePath.toList := by decide
  generalize residents = r at *
  obtain ⟨person, failed⟩ := facts
  obtain ⟨t, found⟩ := Option.isSome_iff_exists.1 person
  exact ⟨t, f, found, nested, name, leads, ((field_nested_iff found nested).1 f).2 leads, failed,
    ((field_nested_iff found (by decide)).2 _).1 failed⟩

end Repository

end EntityModel
