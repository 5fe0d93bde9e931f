/-
Stale entries in the lists of subtypes.

A type is listed by its super types when it is frozen, if it keeps them.  A copy is listed as soon
as it is made, and if it loses a super type when it is frozen, the list is not corrected.

* `QuietStep.noStale` — a step that freezes nothing leaves no stale entry;
* `NoStale.evolve`, `Evolves.stale_of_mem` — a freeze leaves none if what it freezes agrees in
  being instantiable with the types that list it, and one if not;
* `IsTidy.attach`, `keeps_tidyCopies` — a copy leaves none, for what it extends is told, and
  its subtypes are copied so that they extend it.
-/
import EntityModel.Proofs.Shadows

namespace EntityModel

open Edit

theorem TypeShape.Grows.superTypes_subset {s s' : TypeShape} (h : s.Grows s') :
    s.superTypes ⊆ s'.superTypes := by
  cases h with
  | field | key => exact List.Subset.refl _
  | superType id => exact (prefix_appendNew _ id).subset

/-- Super types are only added, except by a freeze. -/
theorem ComplexType.Change.superTypes_subset {t t' : ComplexType} (h : t.Change t') :
    t.shape.superTypes ⊆ t'.shape.superTypes := by
  cases h.effect with
  | declares building grows =>
    rw [shape, building]
    exact grows.superTypes_subset
  | keeps name lifecycle frozen =>
    rw [shape, shape, lifecycle]
    exact List.Subset.refl _

namespace Repository

variable {r r' s : Repository} {order : List TypeId} {id u v c : TypeId} {t t' : ComplexType}

/-- Every type that is listed as a subtype extends the type that lists it, frozen or not. -/
def NoStale (r : Repository) : Prop :=
  ∀ id t, r.complex? id = some t → ∀ u ∈ t.subTypes, r.HasSuper u id

/-- Every frozen type that is listed as a subtype extends the type that lists it. -/
def ListsFrozenHeirs (r : Repository) : Prop :=
  ∀ id t u t', r.complex? id = some t → u ∈ t.subTypes → r.complex? u = some t' →
    t'.isFrozen = true → id ∈ t'.shape.superTypes

theorem NoStale.frozenHeirs (h : r.NoStale) : r.ListsFrozenHeirs := by
  intro id t u t' found listed found' _
  obtain ⟨t₁, found₁, super⟩ := h id t found u listed
  obtain rfl := Option.some.inj (found'.symm.trans found₁)
  exact super

/-! ### Steps that freeze nothing -/

theorem HasSuper.push (h : r.HasSuper u v) (n : TypeNode) : (r.push n).HasSuper u v := by
  obtain ⟨t, found, super⟩ := h
  exact ⟨t, complex?_eq_some.2 (get?_push_of_some (complex?_eq_some.1 found) n), super⟩

theorem HasSuper.set_complex (h : r.HasSuper u v) (found : r.complex? id = some t)
    (more : t.shape.superTypes ⊆ t'.shape.superTypes) : (r.set id (.complex t')).HasSuper u v := by
  obtain ⟨t₁, found₁, super⟩ := h
  by_cases here : u = id
  · subst here
    obtain rfl := Option.some.inj (found.symm.trans found₁)
    exact ⟨t', complex?_set_self (complex?_eq_some.1 found) t', more super⟩
  · refine ⟨t₁, ?_, super⟩
    rw [complex?, get?_set_of_ne here]
    exact found₁

theorem HasSuper.set_simple (h : r.HasSuper u v) {t t' : SimpleType}
    (found : r.get? id = some (.simple t)) : (r.set id (.simple t')).HasSuper u v := by
  obtain ⟨t₁, found₁, super⟩ := h
  have other : u ≠ id := by
    rintro rfl
    cases (complex?_eq_some.1 found₁).symm.trans found
  refine ⟨t₁, ?_, super⟩
  rw [complex?, get?_set_of_ne other]
  exact found₁

theorem NoStale.push (h : r.NoStale) {n : TypeNode} (bare : ∀ t, n = .complex t → t.subTypes = []) :
    (r.push n).NoStale := by
  intro id t' found' u listed
  rcases complex?_push r id _ found' with ⟨-, same⟩ | found
  · rw [bare t' same] at listed
    cases listed
  · exact (h id t' found u listed).push n

theorem NoStale.set_complex (h : r.NoStale) (found : r.complex? id = some t)
    (more : t.shape.superTypes ⊆ t'.shape.superTypes) (same : t'.subTypes = t.subTypes) :
    (r.set id (.complex t')).NoStale := by
  intro v t₁ found₁ u listed
  rcases complex?_set r id v _ found₁ with ⟨rfl, here, -⟩ | ⟨-, found₁⟩
  · rw [← TypeNode.complex.inj here, same] at listed
    exact (h v t found u listed).set_complex found more
  · exact (h v t₁ found₁ u listed).set_complex found more

theorem QuietStep.noStale {G : TypeNode → Prop} (step : QuietStep G r r')
    (bare : ∀ t, G (.complex t) → t.subTypes = []) (h : r.NoStale) : r'.NoStale := by
  cases step with
  | register given ok =>
    obtain ⟨-, rfl⟩ := register_eq_ok ok
    exact h.push fun t same => bare t (same ▸ given)
  | change found change same => exact h.set_complex found change.superTypes_subset same
  | @restrict id t t' superType found =>
    intro v t₁ found₁ u listed
    rcases complex?_set r id v _ found₁ with ⟨-, same, -⟩ | ⟨-, found₁⟩
    · cases same
    · exact (h v t₁ found₁ u listed).set_simple found

theorem NoStale.rename {name : String} (h : r.NoStale) (ok : r.rename id name = .ok r') :
    r'.NoStale := by
  obtain ⟨t, t', found, renamed, rfl⟩ := rename_eq_ok ok
  obtain ⟨-, rfl⟩ := ComplexType.rename_eq_ok renamed
  exact h.set_complex found (List.Subset.refl _) rfl

/-! ### The freeze -/

/-- A super type that agrees with a type in being instantiable is kept when the type is frozen. -/
theorem HasSuper.evolve (h : r.HasSuper u v) (E : r.Evolves order r')
    (agree : u ∈ order → ∃ n t, r.get? v = some n ∧ r.complex? u = some t ∧
      n.instantiable = t.instantiable) : r'.HasSuper u v := by
  obtain ⟨t, found, super⟩ := h
  by_cases mem : u ∈ order
  · obtain ⟨n, t₁, there, found₁, same⟩ := agree mem
    obtain rfl := Option.some.inj (found.symm.trans found₁)
    obtain ⟨t₁, declared, moment, found₁, building, after, -⟩ := E.flattened_of_mem mem
    cases (complex?_eq_some.1 found).symm.trans found₁
    rw [ComplexType.shape, building] at super
    refine ⟨_, complex?_eq_some.2 after, ?_⟩
    show v ∈ (r'.flatten u t.instantiable declared).superTypes
    have agrees : (r'.get? v).any (fun n => n.instantiable = t.instantiable) = true := by
      have kept := congrArg (Option.any (· = t.instantiable)) (E.instantiable v)
      rw [Option.any_map, Option.any_map, there] at kept
      exact kept.symm.trans (decide_eq_true same)
    rw [superTypes_flatten, List.mem_filter, keptSuperTypes]
    refine ⟨?_, agrees⟩
    split
    · exact super
    · exact List.mem_filter.2 ⟨super, agrees⟩
  · obtain ⟨t', after, evolution⟩ := E.exists_complex? found
    refine ⟨t', after, ?_⟩
    cases evolution with
    | untouched | extended => exact super
    | flattened _ _ mem' => exact absurd mem' mem

theorem NoStale.evolve (h : r.NoStale) (E : r.Evolves order r')
    (agree : ∀ id t u t', r.complex? id = some t → u ∈ t.subTypes → u ∈ order →
      r.complex? u = some t' → t.instantiable = t'.instantiable) : r'.NoStale := by
  intro id t' found' u listed
  obtain ⟨t, found, old | ⟨mem, super⟩⟩ := E.mem_subTypes_cases found' listed
  · have super := h id t found u old
    refine super.evolve E fun mem => ?_
    obtain ⟨t₁, found₁, -⟩ := super
    exact ⟨_, t₁, complex?_eq_some.1 found, found₁, agree id t u t₁ found old mem found₁⟩
  · obtain ⟨t₀, declared, moment, -, -, after, -⟩ := E.flattened_of_mem mem
    have after := complex?_eq_some.2 after
    exact ⟨_, after, (mem_complexSuperTypesOf after).1 super⟩

/-- A type that is frozen loses a super type that it does not agree with, but stays listed. -/
theorem Evolves.stale_of_mem (E : r.Evolves order r') (mem : u ∈ order)
    (found : r.complex? id = some t) (listed : u ∈ t.subTypes) (found' : r.complex? u = some t')
    (differ : t.instantiable ≠ t'.instantiable) : ¬ r'.ListsFrozenHeirs := by
  intro heirs
  obtain ⟨t₁, found₁, listed₁⟩ := E.mem_subTypes_of_mem found listed
  obtain ⟨t₂, declared, moment, found₂, -, after, -⟩ := E.flattened_of_mem mem
  obtain rfl := TypeNode.complex.inj
    (Option.some.inj ((complex?_eq_some.1 found').symm.trans found₂))
  have super : id ∈ (r'.flatten u t'.instantiable declared).superTypes :=
    heirs id t₁ u _ found₁ listed₁ (complex?_eq_some.2 after) rfl
  rw [superTypes_flatten, List.mem_filter] at super
  -- a freeze changes no type in being instantiable
  have kept := E.instantiable id
  rw [complex?_eq_some.1 found, complex?_eq_some.1 found₁] at kept
  have same : t₁.instantiable = t.instantiable := (Option.some.inj kept).symm
  have agrees := super.2
  rw [complex?_eq_some.1 found₁] at agrees
  exact differ (same.symm.trans (of_decide_eq_true agrees))

/-! ### Copies -/

/-- No entry is stale, and every type can be copied. -/
structure IsTidy (r : Repository) : Prop where
  noStale : r.NoStale
  proper : r.IsProper

namespace IsTidy

theorem push (h : r.IsTidy) (bare : t.subTypes = []) (proper : t.shape.IsProper) :
    (r.push (.complex t)).IsTidy where
  noStale := h.noStale.push fun t' same => TypeNode.complex.inj same ▸ bare
  proper u t' found' := by
    rcases complex?_push r u _ found' with ⟨-, same⟩ | found
    · exact TypeNode.complex.inj same ▸ proper
    · exact h.proper u t' found

/-- A type is told of one that extends it. -/
theorem tell (h : r.IsTidy) (super : r.HasSuper c id) :
    (r.adjust id (·.registerSubType c)).IsTidy := by
  have more := r.listsMore_adjust id c
  cases found : r.complex? id with
  | none =>
    rw [adjust, found]
    exact h
  | some t =>
    rw [adjust, found] at more ⊢
    constructor
    · intro v t' found' u listed
      rcases complex?_set r id v _ found' with ⟨rfl, same, -⟩ | ⟨-, found'⟩
      · rw [← TypeNode.complex.inj same] at listed
        rcases mem_appendNew.1 listed with old | rfl
        · exact more.hasSuper (h.noStale v t found u old)
        · exact more.hasSuper super
      · exact more.hasSuper (h.noStale v t' found' u listed)
    · intro v t' found'
      rcases complex?_set r id v _ found' with ⟨rfl, same, -⟩ | ⟨-, found'⟩
      · exact TypeNode.complex.inj same ▸ h.proper v t found
      · exact h.proper v t' found'

theorem foldl_tell {l : List TypeId} (h : r.IsTidy) (supers : ∀ v ∈ l, r.HasSuper c v) :
    (l.foldl (fun s v => s.adjust v (·.registerSubType c)) r).IsTidy := by
  induction l generalizing r with
  | nil => exact h
  | cons v rest ih =>
    refine ih (h.tell (supers v List.mem_cons_self)) fun w mem => ?_
    exact (r.listsMore_adjust v c).hasSuper (supers w (List.mem_cons_of_mem v mem))

/-- A type is copied, and the types that it extends are told. -/
theorem attach (h : r.IsTidy) (proper : t.shape.IsProper) (superTypes : List TypeId) :
    (r.attach (t.deepCopy r.nextId superTypes) superTypes).IsTidy := by
  have pushed := h.push (t.subTypes_deepCopy r.nextId superTypes)
    (ComplexType.isProper_deepCopy proper r.nextId superTypes)
  refine pushed.foldl_tell fun v mem => ⟨_, complex?_push_nextId r _, ?_⟩
  rw [ComplexType.superTypes_deepCopy, mem_foldl_appendNew]
  exact .inr mem

end IsTidy

/-- While a tree is copied, nothing is stale, and a copy extends the copies made before of what
its source extends. -/
structure TidyCopies (r : Repository) (copies : List (TypeId × TypeId)) : Prop where
  tidy : r.IsTidy
  extended : ∀ x c before, (x, c) :: before <:+ copies → ∃ t, r.complex? x = some t ∧
    ∀ v ∈ t.shape.superTypes, ∀ d, List.lookup v ((x, c) :: before) = some d → r.HasSuper c d

/-- A repository that lists more is as well extended. -/
theorem TidyCopies.mono {copies : List (TypeId × TypeId)} (h : r.TidyCopies copies)
    (more : r.ListsMore r') (tidy : r'.IsTidy) : r'.TidyCopies copies := by
  refine ⟨tidy, fun x c before last => ?_⟩
  obtain ⟨t, found, extended⟩ := h.extended x c before last
  obtain ⟨added, found'⟩ := more.complex? found
  exact ⟨_, found', fun v super d known => more.hasSuper (extended v super d known)⟩

theorem keeps_tidyCopies : CopyRun.Keeps TidyCopies where
  attach := by
    intro r copies x t h fresh found
    have more : r.ListsMore (r.attachCopy x t copies) := r.listsMore_attach _ _
    have kept := h.mono more (h.tidy.attach (h.tidy.proper x t found) _)
    refine ⟨kept.tidy, fun z c before last => ?_⟩
    rcases List.suffix_cons_iff.1 last with self | earlier
    · cases self
      obtain ⟨added, found'⟩ := more.complex? found
      refine ⟨_, found', fun v super d known => ?_⟩
      -- what the source extends was replaced by its copy
      obtain ⟨l, copy⟩ := r.exists_complex?_attach_nextId (t.deepCopy r.nextId
        (t.shape.superTypes.map (copyOr ((x, r.nextId) :: copies)))) _
      refine ⟨_, copy, ?_⟩
      show d ∈ (t.deepCopy r.nextId _).shape.superTypes
      rw [ComplexType.superTypes_deepCopy, mem_foldl_appendNew]
      exact .inr (List.mem_map.2 ⟨v, super, by rw [copyOr, known]; rfl⟩)
    · exact kept.extended z c before earlier
  tell := by
    intro r copies before x p y c h last known listed
    -- the subtype extends the type that lists it, so its copy extends the copy of that type
    obtain ⟨t, found, extended⟩ := h.extended y c before last
    obtain ⟨s, here, listed⟩ := exists_of_mem_declaredSubTypesOf listed
    obtain ⟨t', found', super⟩ := h.tidy.noStale x s here y listed
    obtain rfl := Option.some.inj (found.symm.trans found')
    exact h.mono (r.listsMore_adjust p c) (h.tidy.tell (extended x super p known))

end Repository

namespace Edit

open Repository

theorem keeps_isTidy_copy (id : TypeId) : Keeps IsTidy (Edit.copy id) := by
  intro m tidy
  have start : m.repository.TidyCopies [] :=
    ⟨tidy, fun x c before last => by cases List.suffix_nil.1 last⟩
  refine (keeps_tidyCopies.yields_copy (fun h => h.tidy.proper) start id).mono fun out m' => ?_
  rintro ⟨copies, h⟩
  exact h.tidy

theorem keeps_noStale_copyShallow (id : TypeId) : Keeps NoStale (copyShallow id) :=
  keeps_ask_bind fun _ _ h _ => h.push fun _ same => TypeNode.complex.inj same ▸ rfl

end Edit

end EntityModel
