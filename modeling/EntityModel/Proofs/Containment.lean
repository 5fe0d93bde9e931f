/-
Containment.

The field that embeds a type is recorded for the type and for all that lies below it.  The types
are taken from a stack and changed on the way (`Repository.Spreads`), so a type that is not complex
stops the walk when others have got the container (`Repository.Records`).

* `setContainer_spreads` — to record a container is to go this way, and the way ends;
* `setContainer_records` — what is changed where it ends;
* `setContainer_reaches` — the same for the entities of these types.
-/
import EntityModel.Proofs.CopySteps
import EntityModel.Proofs.Entities
import EntityModel.Proofs.SubtypeTrees

namespace EntityModel

namespace Repository

variable {r r₁ : Repository} {container : Option ContainerRef} {s : Set TypeId}
variable {id x y : TypeId} {t : ComplexType} {e : ModelError}

/-! ### Recorded containers -/

/-- `r'` is `r` but for the container of the types in `s`, which are complex. -/
structure Records (container : Option ContainerRef) (s : Set TypeId) (r r' : Repository) :
    Prop where
  names : r'.names = r.names
  builtinNamespace : r'.builtinNamespace = r.builtinNamespace
  inside : ∀ x ∈ s, ∃ t, r.complex? x = some t ∧ r'.complex? x = some { t with container }
  outside : ∀ x, x ∉ s → r'.get? x = r.get? x

namespace Records

theorem refl (container : Option ContainerRef) (r : Repository) : Records container ∅ r r where
  names := rfl
  builtinNamespace := rfl
  inside _ mem := mem.elim
  outside _ _ := rfl

/-- One more type gets the container. -/
theorem step (R : Records container s r r₁) (found : r₁.complex? x = some t) :
    Records container (insert x s) r (r₁.set x (.complex { t with container })) where
  names := R.names
  builtinNamespace := R.builtinNamespace
  inside y mem := by
    by_cases here : y = x
    · subst here
      have now := complex?_set_self (complex?_eq_some.1 found) { t with container }
      by_cases before : y ∈ s
      · obtain ⟨t₀, source, same⟩ := R.inside y before
        obtain rfl := Option.some.inj (found.symm.trans same)
        exact ⟨t₀, source, now⟩
      · exact ⟨t, (complex?_congr (R.outside y before)).symm.trans found, now⟩
    · obtain ⟨t₀, source, same⟩ := R.inside y (mem.resolve_left here)
      exact ⟨t₀, source, (complex?_congr (get?_set_of_ne here _)).trans same⟩
  outside y out := by
    have other : y ≠ x := fun same => out (.inl same)
    rw [get?_set_of_ne other, R.outside y fun mem => out (.inr mem)]

theorem complex_eq_error (R : Records container s r r₁) (unfit : r₁.complex x = .error e) :
    r.complex x = .error e := by
  have out : x ∉ s := by
    intro mem
    obtain ⟨t, -, found⟩ := R.inside x mem
    rw [complex_eq_ok_iff.2 found] at unfit
    cases unfit
  rwa [complex_congr (R.outside x out)] at unfit

/-- A type that is complex was so before, and had the same subtypes. -/
theorem source (R : Records container s r r₁) (found : r₁.complex? x = some t) :
    (r.complex? x).isSome ∧ r.declaredSubTypesOf x = t.subTypes.reverse := by
  rw [declaredSubTypesOf]
  by_cases mem : x ∈ s
  · obtain ⟨t₀, before, same⟩ := R.inside x mem
    obtain rfl := Option.some.inj (found.symm.trans same)
    rw [before]
    exact ⟨rfl, rfl⟩
  · rw [← complex?_congr (R.outside x mem), found]
    exact ⟨rfl, rfl⟩

end Records

/-! ### The walk over the subtypes -/

/-- The pending types get the container one after the other, each before its direct subtypes,
until one is not complex. -/
inductive Spreads (container : Option ContainerRef) :
    (seen pending : List TypeId) → Repository → Except ModelError Unit → Repository → Prop
  | done {seen r} : Spreads container seen [] r (.ok ()) r
  | skip {seen x pending r out r'} (again : x ∈ seen)
      (rest : Spreads container seen pending r out r') :
      Spreads container seen (x :: pending) r out r'
  | lost {seen x pending r e} (fresh : x ∉ seen) (unfit : r.complex x = .error e) :
      Spreads container seen (x :: pending) r (.error e) r
  | enter {seen x pending r t out r'} (fresh : x ∉ seen) (found : r.complex x = .ok t)
      (rest : Spreads container (x :: seen) (t.subTypes.reverse ++ pending)
        (r.set x (.complex { t with container })) out r') :
      Spreads container seen (x :: pending) r out r'

/-- The walk ends in one way only. -/
theorem Spreads.unique {seen pending : List TypeId} {out out' : Except ModelError Unit}
    {r₁ r₂ : Repository} (h : Spreads container seen pending r out r₁)
    (h' : Spreads container seen pending r out' r₂) : out' = out ∧ r₂ = r₁ := by
  induction h with
  | done =>
    cases h'
    exact ⟨rfl, rfl⟩
  | skip again _ ih =>
    cases h' with
    | skip _ rest => exact ih rest
    | lost fresh _ | enter fresh _ _ => exact absurd again fresh
  | lost fresh unfit =>
    cases h' with
    | skip again _ => exact absurd again fresh
    | lost _ unfit' =>
      obtain rfl := Except.error.inj (unfit.symm.trans unfit')
      exact ⟨rfl, rfl⟩
    | enter _ found _ => cases unfit.symm.trans found
  | enter fresh found _ ih =>
    cases h' with
    | skip again _ => exact absurd again fresh
    | lost _ unfit => cases unfit.symm.trans found
    | enter _ found' rest =>
      obtain rfl := Except.ok.inj (found.symm.trans found')
      exact ih rest

theorem mem_ids_of_mem_declaredSubTypesOf (h : y ∈ r.declaredSubTypesOf x) : x ∈ r.ids := by
  obtain ⟨t, found, -⟩ := exists_of_mem_declaredSubTypesOf h
  exact mem_ids_of_complex? found

theorem mem_family_iff : x ∈ r.family id ↔ x ∈ r.below id :=
  mem_visit_iff_reflTransGen fun _ _ => mem_ids_of_mem_declaredSubTypesOf

end Repository

namespace Edit

open Repository

variable {r : Repository} {container : Option ContainerRef} {s : Set TypeId} {m : Model}

/-- A type gets the container, unless it is not complex. -/
theorem modify_container_cases (x : TypeId) (container : Option ContainerRef) (m : Model) :
    (∃ t, m.repository.complex x = .ok t ∧
      Edit.modify x (fun t => .ok { t with container }) m = .ok () { m with
        repository := m.repository.set x (.complex { t with container }) }) ∨
    ∃ e, m.repository.complex x = .error e ∧
      Edit.modify x (fun t => .ok { t with container }) m = .error e m := by
  cases found : m.repository.complex x with
  | ok t => exact .inl ⟨t, rfl, modify_run (complex_eq_ok_iff.1 found) rfl⟩
  | error e =>
    refine .inr ⟨e, rfl, attempt_eq_error ?_⟩
    rw [Repository.modify, found]
    rfl

/-- The first of a list gets the container before the others, or nothing is done. -/
theorem yields_container_cons {x : TypeId} {rest : List TypeId}
    {P : Except ModelError Unit → Model → Prop}
    (given : ∀ t, m.repository.complex x = .ok t →
      (rest.forM fun y => Edit.modify y fun t => .ok { t with container }).Yields { m with
        repository := m.repository.set x (.complex { t with container }) } P)
    (refused : ∀ e, m.repository.complex x = .error e → P (.error e) m) :
    ((x :: rest).forM fun y => Edit.modify y fun t => .ok { t with container }).Yields m P := by
  show (Edit.modify x (fun t => .ok { t with container }) >>= fun _ => _).Yields m _
  rcases modify_container_cases x container m with ⟨t, found, run⟩ | ⟨e, unfit, run⟩
  · rw [yields_bind_of_ok run]
    exact given t found
  · rw [Yields, bind_eq_of_error run]
    exact refused e unfit

/-- Along a list, the types get the container up to the first that is not complex. -/
theorem forM_container_yields (R : Records container s r m.repository) (l : List TypeId) :
    (l.forM fun x => Edit.modify x fun t => .ok { t with container }).Yields m fun out m' =>
      m'.events = m.events ∧
        (out = .ok () → (∀ x ∈ l, (r.complex? x).isSome) ∧
          Records container (s ∪ {x | x ∈ l}) r m'.repository) ∧
        ∀ e, out = .error e → (∃ x ∈ l, r.complex x = .error e) ∧
          ∃ s' ⊆ s ∪ {x | x ∈ l}, Records container s' r m'.repository := by
  induction l generalizing s m with
  | nil =>
    refine ⟨rfl, ?_, ?_⟩
    · intro _
      exact ⟨List.forall_mem_nil _, by simpa using R⟩
    · rintro e ⟨⟩
  | cons x rest ih =>
    have grown : insert x s ∪ {y | y ∈ rest} = s ∪ {y | y ∈ x :: rest} := by
      ext y
      simp [or_left_comm, or_assoc]
    refine yields_container_cons ?_ ?_
    · intro t found
      have complex := complex_eq_ok_iff.1 found
      refine (ih (R.step complex)).mono ?_
      intro out m' h
      rw [grown] at h
      obtain ⟨events, done, failed⟩ := h
      refine ⟨events, ?_, ?_⟩
      · intro ok
        obtain ⟨complete, records⟩ := done ok
        exact ⟨List.forall_mem_cons.2 ⟨(R.source complex).1, complete⟩, records⟩
      · intro e error
        obtain ⟨⟨y, mem, unfit⟩, records⟩ := failed e error
        exact ⟨⟨y, List.mem_cons_of_mem x mem, unfit⟩, records⟩
    · intro e unfit
      refine ⟨rfl, ?_, ?_⟩
      · rintro ⟨⟩
      · rintro _ ⟨⟩
        exact ⟨⟨x, List.mem_cons_self, R.complex_eq_error unfit⟩, s, Set.subset_union_left, R⟩

/-- The list of what lies below is gone through as the walk goes. -/
theorem forM_container_spreads (R : Records container s r m.repository)
    (seen stack : List TypeId) :
    ((visit r.ids r.declaredSubTypesOf seen stack).forM fun x =>
      Edit.modify x fun t => .ok { t with container }).Yields m fun out m' =>
        Spreads container seen stack m.repository out m'.repository := by
  fun_induction visit r.ids r.declaredSubTypesOf seen stack generalizing s m with
  | case1 => exact .done
  | case2 seen x stack again ih => exact (ih R).mono fun _ _ => .skip again
  | case3 seen x stack fresh _ ih =>
    refine yields_container_cons ?_ ?_
    · intro t found
      have complex := complex_eq_ok_iff.1 found
      refine (ih (R.step complex)).mono ?_
      intro out m' walk
      rw [(R.source complex).2] at walk
      exact .enter fresh found walk
    · intro e unfit
      exact .lost fresh unfit
  | case4 seen x stack fresh leaf _ =>
    refine yields_container_cons ?_ ?_
    · intro t found
      have known := (R.source (complex_eq_ok_iff.1 found)).1
      exact absurd (mem_ids_of_isSome known) leaf
    · intro e unfit
      exact .lost fresh unfit

end Edit

namespace Repository

variable {r r' : Repository} {s : Set TypeId}

/-- Types that get a container have its entity, which is not changed by that. -/
theorem Records.exists_entity {c : ContainerRef}
    (R : Records (some c) s r r') (rooted : r.IsRooted c.containingType)
    (apart : ∀ u ∈ r.containerChain c.containingType, u ∉ s) :
    ∃ top t, r.entity c.containingType = .ok top ∧ r'.entity c.containingType = .ok top ∧
      r'.complex? top = some t ∧ t.container = none ∧ ∀ x ∈ s, r'.entity x = .ok top := by
  have climbs : r.Climbs [c.containingType] c.containingType (r.entity c.containingType) :=
    entity_eq_iff_climbs.1 rfl
  obtain ⟨top, t, leads, mem, found, free⟩ := climbs.exists_outermost rooted.complete
    rooted.acyclic fun u here => List.mem_singleton.1 here ▸ .refl
  rw [leads] at climbs
  have kept : ∀ u ∈ r.containerChain c.containingType, r'.get? u = r.get? u :=
    fun u path => R.outside u (apart u path)
  refine ⟨top, t, leads, ?_, ?_, free, ?_⟩
  · exact entity_eq_iff_climbs.2 (climbs.congr kept fun _ _ => .rfl)
  · exact (complex?_congr (kept top mem)).trans found
  · intro x inside
    obtain ⟨t', -, given⟩ := R.inside x inside
    have other : ∀ u ∈ r.containerChain c.containingType, u ≠ x :=
      fun u path same => apart u path (same ▸ inside)
    refine entity_eq_iff_climbs.2 (.up (complex_eq_ok_iff.2 given) rfl ?_ ?_)
    · exact fun mem => other _ .refl (List.mem_singleton.1 mem)
    · -- the type does not contain what contains it: that it was passed makes no difference
      refine climbs.congr kept ?_
      intro u path
      rw [List.mem_cons, List.mem_singleton, List.mem_singleton]
      exact or_iff_left (other u path)

end Repository

namespace Edit

open Repository

/-- What `setContainer` does to the types below: all of them get the container, or else one of
them is not complex, and some may have got it. -/
theorem setContainer_records (id : TypeId) (container : Option ContainerRef) (m : Model) :
    (Edit.setContainer id container).Yields m fun out m' =>
      m'.events = m.events ∧
      (out = .ok () → (∀ x ∈ m.repository.below id, (m.repository.complex? x).isSome) ∧
        Records container (m.repository.below id) m.repository m'.repository) ∧
      ∀ e, out = .error e → (∃ x ∈ m.repository.below id, m.repository.complex x = .error e) ∧
        ∃ s ⊆ m.repository.below id, Records container s m.repository m'.repository := by
  have members : ∅ ∪ {x | x ∈ m.repository.family id} = m.repository.below id := by
    ext x
    simpa using mem_family_iff
  rw [setContainer, yields_bind, yields_ask]
  refine (forM_container_yields (.refl container m.repository) _).mono ?_
  intro out m' h
  rw [members] at h
  simpa only [mem_family_iff] using h

/-- The walk over the subtypes ends, as `setContainer` does. -/
theorem setContainer_spreads (id : TypeId) (container : Option ContainerRef) (m : Model) :
    (Edit.setContainer id container).Yields m fun out m' =>
      ∀ a r', Spreads container [] [id] m.repository a r' ↔ a = out ∧ r' = m'.repository := by
  rw [setContainer, yields_bind, yields_ask]
  refine (forM_container_spreads (.refl container m.repository) [] [id]).mono ?_
  intro out m' walk a r'
  constructor
  · exact walk.unique
  · rintro ⟨rfl, rfl⟩
    exact walk

/-- The walk that records a container ends.  It succeeds if and only if the type and all that is
reached from it through direct subtypes is complex; then these types have the container, and
nothing else is changed.  Where it fails, at most some of them have got it.  If the containing type
is not among them and is contained in complex types only, without a cycle, then the entity of these
types is that of the containing type, and it has no container.  The way to an entity ends
wherever it starts. -/
theorem setContainer_reaches (id : TypeId) (container : Option ContainerRef) (m : Model) :
    (Edit.setContainer id container).Yields m (fun out m' =>
      (∀ a r', Spreads container [] [id] m.repository a r' ↔ a = out ∧ r' = m'.repository) ∧
      (out = .ok () ↔ ∀ x ∈ m.repository.below id, (m.repository.complex? x).isSome) ∧
      m'.events = m.events ∧
      (out = .ok () →
        Records container (m.repository.below id) m.repository m'.repository ∧
        ∀ c, container = some c → m.repository.IsRooted c.containingType →
          (∀ u ∈ m.repository.containerChain c.containingType, u ∉ m.repository.below id) →
          ∃ top t, m.repository.entity c.containingType = .ok top ∧
            m'.repository.entity c.containingType = .ok top ∧
            m'.repository.complex? top = some t ∧ t.container = none ∧
            ∀ x ∈ m.repository.below id, m'.repository.entity x = .ok top) ∧
      ∀ e, out = .error e →
        (∃ x ∈ m.repository.below id, m.repository.complex x = .error e) ∧
        ∃ s ⊆ m.repository.below id, Records container s m.repository m'.repository) ∧
    ∀ (r : Repository) (x : TypeId) (a : Except ModelError TypeId),
      r.Climbs [x] x a ↔ r.entity x = a := by
  refine ⟨?_, fun r x a => entity_eq_iff_climbs.symm⟩
  refine ((setContainer_spreads id container m).and (setContainer_records id container m)).mono ?_
  rintro out m' ⟨walk, events, done, failed⟩
  refine ⟨walk, ⟨fun ok => (done ok).1, ?_⟩, events, ?_, failed⟩
  · intro complete
    cases out with
    | ok => rfl
    | error e =>
      obtain ⟨⟨x, mem, unfit⟩, -⟩ := failed e rfl
      obtain ⟨t, found⟩ := Option.isSome_iff_exists.1 (complete x mem)
      cases unfit.symm.trans (complex_eq_ok_iff.2 found)
  · intro ok
    have records := (done ok).2
    refine ⟨records, ?_⟩
    rintro c rfl rooted apart
    exact records.exists_entity rooted apart

/-- Homes are embedded in persons; addresses and Chinese addresses are listed as subtypes of each
other. -/
def housing : Repository :=
  [.addComplexType ⟨"", "Person"⟩ true {}, .addComplexType ⟨"", "Home"⟩ false {},
    .addComplexType ⟨"", "Address"⟩ false {}, .addComplexType ⟨"", "CNAddress"⟩ false {},
    .setSubTypes ⟨35⟩ [⟨36⟩], .setSubTypes ⟨36⟩ [⟨35⟩],
    .setContainer ⟨34⟩ (some ⟨⟨33⟩, "home"⟩)].foldl perform (Session.start {}).repository

/-- When addresses are embedded in homes, a Chinese address belongs to a person. -/
theorem setContainer_reaches_addresses : ∃ m' top t,
    Edit.setContainer ⟨35⟩ (some ⟨⟨34⟩, "address"⟩) ⟨housing, []⟩ = .ok () m' ∧
    housing.IsRooted ⟨34⟩ ∧
    (∀ u ∈ housing.containerChain ⟨34⟩, u ∉ housing.below ⟨35⟩) ∧
    housing.entity ⟨34⟩ = .ok top ∧ m'.repository.complex? top = some t ∧ t.container = none ∧
    ⟨36⟩ ∈ housing.below ⟨35⟩ ∧ m'.repository.entity ⟨36⟩ = .ok top := by
  have facts : housing.containingTypesOf ⟨34⟩ = [⟨33⟩] ∧ housing.containingTypesOf ⟨33⟩ = [] ∧
      (housing.complex? ⟨33⟩).isSome = true ∧ (housing.complex? ⟨34⟩).isSome = true ∧
      housing.family ⟨35⟩ = [⟨35⟩, ⟨36⟩] ∧
      (Edit.setContainer ⟨35⟩ (some ⟨⟨34⟩, "address"⟩)).succeeds ⟨housing, []⟩ = true := by
    rw [housing, Session.repository_start]
    cbv
  -- from here on it does not matter what the repository is
  generalize housing = r at *
  obtain ⟨home, person, personFound, homeFound, family, succeeds⟩ := facts
  obtain ⟨⟨⟩, m', run⟩ := exists_of_succeeds succeeds
  have outermost := containerChain_of_nil person
  have chain : r.containerChain ⟨34⟩ = {⟨34⟩, ⟨33⟩} := by
    rw [containerChain_of_singleton home, outermost]
  have rooted : r.IsRooted ⟨34⟩ := by
    refine .of_singleton homeFound home (.of_nil personFound person) ?_
    rw [outermost]
    decide
  have apart : ∀ u ∈ r.containerChain ⟨34⟩, u ∉ r.below ⟨35⟩ := by
    rw [chain]
    rintro u (rfl | rfl) <;> rw [← mem_family_iff, family] <;> decide
  have inside : (⟨36⟩ : TypeId) ∈ r.below ⟨35⟩ := by
    rw [← mem_family_iff, family]
    decide
  have reaches := (setContainer_reaches ⟨35⟩ (some ⟨⟨34⟩, "address"⟩) ⟨r, []⟩).1.of_ok run
  obtain ⟨-, -, -, done, -⟩ := reaches
  obtain ⟨top, t, before, -, found, free, entities⟩ := (done rfl).2 _ rfl rooted apart
  exact ⟨m', top, t, run, rooted, apart, before, found, free, inside, entities _ inside⟩

end Edit

end EntityModel
