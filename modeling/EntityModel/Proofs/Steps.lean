/-
Operations as steps of the repository.

An operation changes the repository in steps of few kinds (`Repository.Step`): a type is
registered or added as a copy, one type is changed, a type is renamed, types are frozen.
Whatever an operation does, and whether it succeeds or fails, is a sequence of steps:

* `Operation.keeps_run` — what every step keeps is kept by every operation;
* `Operation.keeps_run_of_plainStep` — an operation that makes no copy and sets no subtypes is
  made of steps that leave the lists of subtypes to the freeze (`Repository.PlainStep`), and of
  these only few operations freeze (`Operation.keeps_run_of_quietStep`);
* `Reachable.invariant` — what moreover holds of the built-in types alone holds of every
  repository that operations can lead to;
* `Reachable.forall_complex` — what holds of new types, and is kept when a type is changed, holds
  of all complex types, also of those that are registered in another repository.

An invariant of the reachable repositories is therefore proved step by step.
-/
import EntityModel.Proofs.BuiltinTypes
import EntityModel.Proofs.FreezeAdequacy
import EntityModel.Proofs.Runs

namespace EntityModel

namespace Repository

/-- One step of an operation other than a renaming, which registers types of which `G` holds. -/
inductive Alteration (G : TypeNode → Prop) : Repository → Repository → Prop
  | register {r r' n} (given : G n) (h : r.register n = .ok r') : Alteration G r r'
  | copy {r id t} (found : r.complex? id = some t) :
      Alteration G r (r.push (.complex t.shallowCopy))
  | change {r id t t'} (found : r.complex? id = some t) (h : t.Change t') :
      Alteration G r (r.set id (.complex t'))
  | restrict {r id t t'} (superType : TypeId) (found : r.get? id = some (.simple t))
      (h : t.addSuperType superType = .ok t') : Alteration G r (r.set id (.simple t'))
  | freeze {r r' ids order out} (run : FreezeRun ids r order out r') : Alteration G r r'

/-- One step of an operation. -/
inductive Step (G : TypeNode → Prop) : Repository → Repository → Prop
  | alter {r r'} (h : Alteration G r r') : Step G r r'
  | rename {r r'} (id : TypeId) (name : String) (h : r.rename id name = .ok r') : Step G r r'

/-- One step of an operation that leaves it to the freeze to say which of the types that are
there extend which. -/
inductive PlainStep (G : TypeNode → Prop) : Repository → Repository → Prop
  | register {r r' n} (given : G n) (h : r.register n = .ok r') : PlainStep G r r'
  | change {r id t t'} (found : r.complex? id = some t) (h : t.Change t')
      (subTypes : t'.subTypes = t.subTypes) : PlainStep G r (r.set id (.complex t'))
  | restrict {r id t t'} (superType : TypeId) (found : r.get? id = some (.simple t))
      (h : t.addSuperType superType = .ok t') : PlainStep G r (r.set id (.simple t'))
  | freeze {r r' ids order out} (run : FreezeRun ids r order out r') : PlainStep G r r'

/-- One step of an operation that changes no subtypes and freezes nothing. -/
inductive QuietStep (G : TypeNode → Prop) : Repository → Repository → Prop
  | register {r r' n} (given : G n) (h : r.register n = .ok r') : QuietStep G r r'
  | change {r id t t'} (found : r.complex? id = some t) (h : t.Change t')
      (subTypes : t'.subTypes = t.subTypes) : QuietStep G r (r.set id (.complex t'))
  | restrict {r id t t'} (superType : TypeId) (found : r.get? id = some (.simple t))
      (h : t.addSuperType superType = .ok t') : QuietStep G r (r.set id (.simple t'))

variable {G : TypeNode → Prop}

theorem QuietStep.plainStep {r r' : Repository} (h : QuietStep G r r') : PlainStep G r r' := by
  cases h with
  | register given h => exact .register given h
  | change found h subTypes => exact .change found h subTypes
  | restrict superType found h => exact .restrict superType found h

theorem PlainStep.alteration {r r' : Repository} (h : PlainStep G r r') : Alteration G r r' := by
  cases h with
  | register given h => exact .register given h
  | change found h => exact .change found h
  | restrict superType found h => exact .restrict superType found h
  | freeze run => exact .freeze run

/-- A step that registers types of one sort is one that registers types of a wider sort. -/
theorem Step.mono {G' : TypeNode → Prop} {r r' : Repository} (h : Step G r r')
    (wider : ∀ n, G n → G' n) : Step G' r r' := by
  cases h with
  | rename id name h => exact .rename id name h
  | alter h =>
    refine .alter ?_
    cases h with
    | register given h => exact .register (wider _ given) h
    | copy found => exact .copy found
    | change found h => exact .change found h
    | restrict superType found h => exact .restrict superType found h
    | freeze run => exact .freeze run

theorem modify_eq_ok {r r' : Repository} {id : TypeId}
    {f : ComplexType → Except ModelError ComplexType} (h : r.modify id f = .ok r') :
    ∃ t t', r.complex? id = some t ∧ f t = .ok t' ∧ r' = r.set id (.complex t') := by
  obtain ⟨t, found, h⟩ := except_bind_eq_ok.1 h
  obtain ⟨t', applied, h⟩ := except_bind_eq_ok.1 h
  cases h
  exact ⟨t, t', complex_eq_ok_iff.1 found, applied, rfl⟩

theorem quietStep_of_addSuperType {r r' : Repository} {id superType : TypeId}
    (h : r.addSuperType id superType = .ok r') : QuietStep G r r' := by
  obtain ⟨n, found, h⟩ := except_bind_eq_ok.1 h
  obtain ⟨n', applied, h⟩ := except_bind_eq_ok.1 h
  cases h
  have found := get_eq_ok_iff.1 found
  cases n with
  | simple t =>
    obtain ⟨t', applied, h⟩ := except_map_eq_ok.1 applied
    rw [← h]
    exact .restrict superType found applied
  | complex t =>
    obtain ⟨t', applied, h⟩ := except_map_eq_ok.1 applied
    rw [← h]
    exact .change (complex?_eq_some.2 found) (.addSuperType superType applied)
      (ComplexType.subTypes_of_addSuperType applied)

end Repository

/-! ### Where a type comes from -/

namespace Repository

variable {G : TypeNode → Prop}

theorem register_eq_ok {r r' : Repository} {n : TypeNode} (h : r.register n = .ok r') :
    r.names.find? n.qualifiedName = none ∧
      r' = { r.push n with names := r.names.insert n.qualifiedName r.nextId } := by
  rw [register] at h
  split at h
  · cases h
  · next free =>
    cases h
    exact ⟨free, rfl⟩

theorem rename_eq_ok {r r' : Repository} {id : TypeId} {name : String}
    (h : r.rename id name = .ok r') :
    ∃ t t', r.complex? id = some t ∧ t.rename name = .ok t' ∧
      r' = { r.set id (.complex t') with
        names := if r.names.find? t.qualifiedName = some id
          then (r.names.erase t.qualifiedName).insert t'.qualifiedName id else r.names } := by
  obtain ⟨t, found, h⟩ := except_bind_eq_ok.1 h
  obtain ⟨t', renamed, h⟩ := except_bind_eq_ok.1 h
  refine ⟨t, t', complex_eq_ok_iff.1 found, renamed, ?_⟩
  by_cases here : r.names.find? t.qualifiedName = some id
  · rw [if_pos here]
    exact (Except.ok.inj ((if_pos here).symm.trans h)).symm
  · rw [if_neg here]
    exact (Except.ok.inj ((if_neg here).symm.trans h)).symm

/-- What the complex type `t'` at `id` was one step earlier. -/
inductive Origin (G : TypeNode → Prop) (r r' : Repository) (id : TypeId) (t' : ComplexType) : Prop
  | same (found : r.complex? id = some t')
  | registered (given : G (.complex t')) (fresh : id = r.nextId)
  | copied {u : TypeId} {t : ComplexType} (fresh : id = r.nextId) (found : r.complex? u = some t)
      (h : t' = t.shallowCopy)
  | changed {t : ComplexType} (found : r.complex? id = some t) (h : t.Change t')
  | renamed {t : ComplexType} (name : String) (found : r.complex? id = some t)
      (h : t.rename name = .ok t')
  | evolved {t : ComplexType} {order : List TypeId} (found : r.complex? id = some t)
      (E : r.Evolves order r') (h : Evolution r' order id (.complex t) (.complex t'))

theorem complex?_set (r : Repository) (id u : TypeId) (n : TypeNode) {t : ComplexType}
    (h : (r.set id n).complex? u = some t) :
    (u = id ∧ n = .complex t ∧ (r.get? id).isSome) ∨ (u ≠ id ∧ r.complex? u = some t) := by
  rw [complex?_eq_some, get?_set] at h
  by_cases same : u = id
  · subst same
    rw [if_pos rfl] at h
    obtain ⟨old, found, h⟩ := Option.map_eq_some_iff.1 h
    exact .inl ⟨rfl, h, by rw [found]; rfl⟩
  · rw [if_neg same] at h
    exact .inr ⟨same, complex?_eq_some.2 h⟩

theorem isFrozen_set_change {r : Repository} {id u : TypeId} {t t' : ComplexType}
    (found : r.complex? id = some t) (h : t.Change t') :
    (r.set id (.complex t')).isFrozen u = r.isFrozen u := by
  rw [isFrozen, isFrozen, get?_set]
  by_cases same : u = id
  · subst same
    rw [if_pos rfl, complex?_eq_some.1 found]
    exact h.isFrozen
  · rw [if_neg same]

theorem complex?_push (r : Repository) (u : TypeId) (n : TypeNode) {t : ComplexType}
    (h : (r.push n).complex? u = some t) :
    (u = r.nextId ∧ n = .complex t) ∨ r.complex? u = some t := by
  rw [complex?_eq_some, get?_push] at h
  split at h
  · next same => exact .inl ⟨same, Option.some.inj h⟩
  · exact .inr (complex?_eq_some.2 h)

/-- A step, seen from one complex type after it. -/
theorem Step.origin {r r' : Repository} {id : TypeId} {t' : ComplexType} (h : Step G r r')
    (found : r'.complex? id = some t') : Origin G r r' id t' := by
  cases h with
  | rename u name h =>
    obtain ⟨t, t₁, before, renamed, rfl⟩ := rename_eq_ok h
    rcases complex?_set r _ id _ found with ⟨rfl, same, -⟩ | ⟨-, found⟩
    · exact .renamed name before (TypeNode.complex.inj same ▸ renamed)
    · exact .same found
  | alter h =>
    cases h with
    | register given h =>
      obtain ⟨-, rfl⟩ := register_eq_ok h
      rcases complex?_push r id _ found with ⟨fresh, h⟩ | found
      · exact .registered (h ▸ given) fresh
      · exact .same found
    | copy source =>
      rcases complex?_push r id _ found with ⟨fresh, h⟩ | found
      · exact .copied fresh source (TypeNode.complex.inj h).symm
      · exact .same found
    | change before h =>
      rcases complex?_set r _ id _ found with ⟨rfl, same, -⟩ | ⟨-, found⟩
      · exact .changed before (TypeNode.complex.inj same ▸ h)
      · exact .same found
    | restrict _ _ _ =>
      rcases complex?_set r _ id _ found with ⟨rfl, same, -⟩ | ⟨-, found⟩
      · cases same
      · exact .same found
    | freeze run =>
      -- a freeze reaches many types, but makes none
      have E := run.evolves.1
      have related := E.types id
      rw [complex?_eq_some.1 found] at related
      generalize before : r.get? id = n at related
      cases related with
      | some h =>
        cases h with
        | untouched fresh out =>
          exact .evolved (complex?_eq_some.2 before) E (.untouched fresh out)
        | extended done => exact .evolved (complex?_eq_some.2 before) E (.extended done)
        | flattened moment building mem supers =>
          exact .evolved (complex?_eq_some.2 before) E (.flattened moment building mem supers)

/-- What the frozen type `t'` at `id` was one step earlier. -/
inductive FrozenOrigin (G : TypeNode → Prop) (r r' : Repository) (id : TypeId) :
    ComplexType → Prop
  | kept {t t' : ComplexType} (found : r.complex? id = some t) (frozen : t.isFrozen = true) :
      FrozenOrigin G r r' id t'
  | registered {t' : ComplexType} (given : G (.complex t')) : FrozenOrigin G r r' id t'
  | flattened {t : ComplexType} {declared : TypeShape} {order : List TypeId}
      (moment : Repository) (found : r.complex? id = some t) (E : r.Evolves order r')
      (mem : id ∈ order)
      (supers : ∀ s ∈ r'.keptSuperTypes t.instantiable declared.superTypes,
        r'.isFrozen s = true) :
      FrozenOrigin G r r' id (r'.flattened order moment id t declared)

/-- Nothing but a freeze makes a type frozen, unless it is registered as such. -/
theorem Step.frozenOrigin {r r' : Repository} {id : TypeId} {t' : ComplexType}
    (step : Step G r r') (found' : r'.complex? id = some t') (frozen : t'.isFrozen = true) :
    FrozenOrigin G r r' id t' := by
  cases step.origin found' with
  | same found => exact .kept found frozen
  | registered given => exact .registered given
  | copied _ _ same =>
    rw [same] at frozen
    cases frozen
  | changed found change =>
    rw [change.isFrozen] at frozen
    exact .kept found frozen
  | renamed name _ ok =>
    obtain ⟨⟨s, building⟩, rfl⟩ := ComplexType.rename_eq_ok ok
    exact absurd building (ComplexType.not_building_of_isFrozen frozen s)
  | evolved found E evolution =>
    cases evolution with
    | untouched => exact .kept found frozen
    | extended done => exact .kept found done
    | flattened moment _ mem supers => exact .flattened moment found E mem supers

end Repository

/-! ### Every operation is made of steps -/

namespace Edit

open Repository

variable {P : Repository → Prop}

theorem keeps_ask_bind {α β : Type} {question : Repository → Except ModelError α}
    {f : α → Edit β} (h : ∀ a m, P m.repository → question m.repository = .ok a →
      (f a).Yields m fun _ m' => P m'.repository) : Keeps P (ask question >>= f) := by
  intro m hm
  rw [yields_bind, yields_ask]
  cases answer : question m.repository with
  | error e => exact hm
  | ok a => exact h a m hm answer

/-! ### Changes of types -/

section Change

variable {C : ComplexType → ComplexType → Prop}
variable (changes : ∀ {r : Repository} {id t t'}, r.complex? id = some t → C t t' → P r →
  P (r.set id (.complex t')))

include changes

theorem keeps_modify (id : TypeId) {f : ComplexType → Except ModelError ComplexType}
    (change : ∀ t t', f t = .ok t' → C t t') : Keeps P (Edit.modify id f) := by
  refine keeps_attempt fun r s hr h => ?_
  obtain ⟨t, t', found, applied, rfl⟩ := modify_eq_ok h
  exact changes found (change t t' applied) hr

/-- A change that no type refuses. -/
theorem keeps_modify_ok (id : TypeId) {f : ComplexType → ComplexType}
    (change : ∀ t : ComplexType, C t (f t)) : Keeps P (Edit.modify id fun t => .ok (f t)) := by
  refine keeps_modify changes id fun t t' h => ?_
  cases h
  exact change t

theorem keeps_setContainer (id : TypeId) (container : Option ContainerRef)
    (change : ∀ t : ComplexType, C t { t with container }) :
    Keeps P (Edit.setContainer id container) :=
  keeps_bind (keeps_ask _) fun _ => keeps_forM fun member _ =>
    keeps_modify_ok changes member change

theorem keeps_adjust (id : TypeId) {f : ComplexType → ComplexType}
    (change : ∀ t : ComplexType, C t (f t)) : Keeps P (update (·.adjust id f)) := by
  refine keeps_update fun r hr => ?_
  rw [adjust]
  split
  · next t found => exact changes found (change t) hr
  · exact hr

end Change

theorem keeps_register {n : TypeNode}
    (registers : ∀ {r r' : Repository}, r.register n = .ok r' → P r → P r') :
    Keeps P (Edit.register n) :=
  keeps_bind (keeps_ask _) fun _ =>
    keeps_bind (keeps_attempt fun _ _ hr h => registers h hr) fun _ => keeps_pure _

section Freeze

variable (freezes : ∀ {r r' ids order out}, FreezeRun ids r order out r' → P r → P r')

include freezes

theorem keeps_forM_freeze (ids : List TypeId) : Keeps P (ids.forM freeze) := by
  intro m hm
  refine (forM_freeze_run ids m).mono fun out m' => ?_
  rintro ⟨order, run⟩
  exact freezes run hm

theorem keeps_freeze (id : TypeId) : Keeps P (freeze id) := by
  intro m hm
  refine (freeze_run id m).mono fun out m' => ?_
  rintro ⟨order, run⟩
  exact freezes run hm

theorem keeps_freezeAll : Keeps P freezeAll := by
  intro m hm
  refine (freezeAll_run m).mono fun out m' => ?_
  rintro ⟨order, run⟩
  exact freezes run hm

end Freeze

section Manifest

variable (changes : ∀ {r : Repository} {id t t'}, r.complex? id = some t → t.Declaration t' →
  P r → P (r.set id (.complex t')))

include changes

theorem keeps_declareField (ns owner : String) (id : TypeId) (e : FieldEntry) :
    Keeps P (Manifest.declareField ns owner id e) := by
  refine keeps_bind (keeps_ask _) fun _ => keeps_bind keeps_get fun _ =>
    keeps_bind (keeps_ask _) fun _ =>
      keeps_bind (keeps_modify changes id fun _ _ => .addField _) fun _ => ?_
  split
  · exact keeps_modify_ok changes _ fun _ => .declareUsage id
  · exact keeps_pure _

theorem keeps_fillEntry (manifest : Manifest) (c : Config) (e : TypeEntry) (id : TypeId) :
    Keeps P (manifest.fillEntry c e id) := by
  refine keeps_bind (keeps_forM fun name _ => keeps_bind (keeps_ask _) fun superType => ?_)
    fun _ => keeps_forM fun f _ => keeps_declareField changes _ _ id f
  exact keeps_modify changes id fun _ _ => .addSuperType superType

/-- A build registers types, declares what they have and freezes them. -/
theorem keeps_build
    (registers : ∀ {r r' : Repository} (a : Annotations) (name : QualifiedName) (b : Bool),
      r.register (.complex (a.type name b)) = .ok r' → P r → P r')
    (freezes : ∀ {r r' ids order out}, FreezeRun ids r order out r' → P r → P r')
    (manifest : Manifest) (c : Config) : Keeps P (manifest.build c) :=
  keeps_bind (keeps_mapM fun _ _ => keeps_register fun h => registers _ _ _ h) fun ids =>
    keeps_bind (keeps_forM fun _ _ => keeps_fillEntry changes manifest c _ _) fun _ =>
      keeps_bind (keeps_forM_freeze freezes ids) fun _ =>
        keeps_bind (keeps_report _) fun _ => keeps_pure _

end Manifest

/-! ### All steps but renamings -/

variable {G : TypeNode → Prop} (stable : ∀ {r r'}, Alteration G r r' → P r → P r')

include stable

/-- A copy that is being built is filled, and is being built all the while. -/
theorem keeps_fillCopy (source : ComplexType) (copy : TypeId) (superTypes : List TypeId) :
    Keeps (fun r => P r ∧ r.isFrozen copy = false) (fillCopy source copy superTypes) := by
  have changes : ∀ {r : Repository} {id t t'}, r.complex? id = some t → t.Change t' →
      P r ∧ r.isFrozen copy = false →
      P (r.set id (.complex t')) ∧ (r.set id (.complex t')).isFrozen copy = false := by
    intro r id t t' found h before
    refine ⟨stable (.change found h) before.1, ?_⟩
    rw [isFrozen_set_change found h]
    exact before.2
  refine keeps_bind (keeps_forM fun _ _ => keeps_modify changes copy fun _ _ => .addField _)
    fun _ => keeps_bind (keeps_forM fun _ _ => keeps_modify changes copy fun _ _ => .registerKey _)
      fun _ => keeps_bind (keeps_forM fun s _ => keeps_modify changes copy fun _ _ =>
        .addSuperType s) fun _ => keeps_attempt fun r r' before h => ?_
  obtain ⟨t, t', found, applied, rfl⟩ := modify_eq_ok h
  cases applied
  have fresh : t.isFrozen = false :=
    (isFrozen_of_get? (complex?_eq_some.1 found)).symm.trans before.2
  exact changes found (.fill source.data source.usages fresh) before

theorem keeps_pushCopy (id : TypeId) :
    Keeps P (ask (·.complex id) >>= fun t => push (.complex t.shallowCopy)) :=
  keeps_ask_bind fun _ _ hm found => stable (.copy (complex_eq_ok_iff.1 found)) hm

theorem keeps_copyTree (depth : Nat) (id : TypeId) (copies : List (TypeId × TypeId)) :
    Keeps P (copyTree depth id copies) := by
  induction depth generalizing id copies with
  | zero => exact keeps_throw _
  | succ depth ih =>
    have changes : ∀ {r : Repository} {id t t'}, r.complex? id = some t → t.Change t' → P r →
        P (r.set id (.complex t')) := fun found h => stable (.change found h)
    rw [copyTree]
    refine keeps_ask_bind fun source m hm found => ?_
    rw [yields_bind, yields_push]
    dsimp only
    rw [yields_bind]
    have fresh : (m.repository.push (.complex source.shallowCopy)).isFrozen
        m.repository.nextId = false := by
      rw [Repository.isFrozen, get?_push, if_pos rfl]
      rfl
    refine ((keeps_fillCopy stable source m.repository.nextId _).yields
      ⟨stable (.copy (complex_eq_ok_iff.1 found)) hm, fresh⟩).mono fun out m₁ filled => ?_
    cases out with
    | error e => exact filled.1
    | ok _ =>
    refine Keeps.yields ?_ filled.1
    refine keeps_bind ?_ fun _ =>
      keeps_bind (keeps_foldlM (fun copies subType _ => ?_) _) fun _ => keeps_pure _
    · exact keeps_forM fun s _ => keeps_adjust changes s fun _ => .registerSubType _
    · split
      · exact keeps_pure _
      · exact keeps_bind (ih subType copies) fun sub => keeps_bind
          (keeps_modify_ok changes _ fun _ => .registerSubType sub.1) fun _ => keeps_pure _

theorem keeps_copy (id : TypeId) : Keeps P (copy id) :=
  keeps_bind keeps_get fun _ => keeps_bind (keeps_copyTree stable _ id []) fun _ =>
    keeps_bind (keeps_ask _) fun _ => keeps_bind (keeps_report _) fun _ => keeps_pure _

end Edit

open Edit Repository

/-- The operation makes no copy and sets no subtypes of a type that is there. -/
def Operation.isPlain : Operation → Bool
  | .setSubTypes _ _ | .copy _ | .copyShallow _ => false
  | _ => true

/-- The operation freezes types. -/
def Operation.isFreezing : Operation → Bool
  | .freeze _ | .freezeAll | .build _ _ => true
  | _ => false

/-- What quiet steps keep, and the freeze if the operation freezes types, is kept by every plain
operation but a renaming. -/
theorem Operation.keeps_run_of_quietStep {P : Repository → Prop} (operation : Operation)
    (stable : ∀ {r r'}, QuietStep operation.Registers r r' → P r → P r')
    (freezes : operation.isFreezing = true →
      ∀ {r r' ids order out}, FreezeRun ids r order out r' → P r → P r')
    (plain : operation.isPlain = true) (other : ∀ id name, operation ≠ .rename id name) :
    Keeps P operation.run := by
  have done : ∀ {edit : Edit Unit}, Keeps P edit → Keeps P (Operation.run.done edit) :=
    fun h => keeps_bind h fun _ => keeps_pure _
  have changes : ∀ {r : Repository} {id t t'}, r.complex? id = some t →
      (t.Change t' ∧ t'.subTypes = t.subTypes) → P r → P (r.set id (.complex t')) :=
    fun found h => stable (.change found h.1 h.2)
  cases operation with
  | register n => exact keeps_map (keeps_register fun h => stable (.register (.given n) h))
  | addField id f =>
    exact done (keeps_modify changes id fun _ _ h =>
      ⟨.addField f h, ComplexType.subTypes_of_addField h⟩)
  | registerKey id f =>
    exact done (keeps_modify changes id fun _ _ h =>
      ⟨.registerKey f h, ComplexType.subTypes_of_registerKey h⟩)
  | buildField id name contained a isAdded =>
    refine keeps_map (keeps_bind (keeps_ask _) fun f => ?_)
    split
    · exact keeps_bind (keeps_modify changes id fun _ _ h =>
        ⟨.addField f h, ComplexType.subTypes_of_addField h⟩) fun _ => keeps_pure _
    · exact keeps_pure _
  | addSuperType id s =>
    exact done (keeps_attempt fun _ _ hr h => stable (quietStep_of_addSuperType h) hr)
  | setInstantiable id b =>
    exact done (keeps_modify changes id fun _ _ h =>
      ⟨.setInstantiable b h, ComplexType.subTypes_of_setInstantiable h⟩)
  | setSubTypes | copy | copyShallow => cases plain
  | rename id name => exact absurd rfl (other id name)
  | registerLabel id locale label =>
    exact done (keeps_modify_ok changes id fun _ => ⟨.registerLabel locale label, rfl⟩)
  | declareUsage id usage =>
    exact done (keeps_modify_ok changes id fun _ => ⟨.declareUsage usage, rfl⟩)
  | setContainer id container =>
    exact done (keeps_setContainer changes id container fun _ => ⟨.setContainer container, rfl⟩)
  | setData id key value =>
    exact done (keeps_modify_ok changes id fun _ => ⟨.setData key value, rfl⟩)
  | freeze id => exact done (keeps_freeze (freezes rfl) id)
  | freezeAll => exact done (keeps_freezeAll (freezes rfl))
  | build manifest c =>
    exact keeps_map (keeps_build (fun found h => changes found ⟨h.change, h.subTypes⟩)
      (fun a name b h => stable (.register (.declared manifest c a name b) h)) (freezes rfl)
      manifest c)

/-- What plain steps keep is kept by every plain operation but a renaming. -/
theorem Operation.keeps_run_of_plainStep {P : Repository → Prop} (operation : Operation)
    (stable : ∀ {r r'}, PlainStep operation.Registers r r' → P r → P r')
    (plain : operation.isPlain = true) (other : ∀ id name, operation ≠ .rename id name) :
    Keeps P operation.run :=
  operation.keeps_run_of_quietStep (fun step => stable step.plainStep)
    (fun _ _ _ _ _ _ run => stable (.freeze run)) plain other

/-- What every step but a renaming keeps is kept by every other operation. -/
theorem Operation.keeps_run_of_alteration {P : Repository → Prop} (operation : Operation)
    (stable : ∀ {r r'}, Alteration operation.Registers r r' → P r → P r')
    (other : ∀ id name, operation ≠ .rename id name) : Keeps P operation.run := by
  cases plain : operation.isPlain with
  | true => exact operation.keeps_run_of_plainStep (fun step => stable step.alteration) plain other
  | false =>
    cases operation with
    | setSubTypes id ids =>
      have changes : ∀ {r : Repository} {id t t'}, r.complex? id = some t → t.Change t' → P r →
          P (r.set id (.complex t')) := fun found h => stable (.change found h)
      exact keeps_bind (keeps_modify changes id fun _ _ => .setSubTypes ids) fun _ => keeps_pure _
    | copy id => exact keeps_map (keeps_copy stable id)
    | copyShallow id => exact keeps_map (keeps_pushCopy stable id)
    | _ => cases plain

theorem Operation.keeps_run_rename {P : Repository → Prop} {id : TypeId} {name : String}
    (renames : ∀ {r r' : Repository}, r.rename id name = .ok r' → P r → P r') :
    Keeps P (Operation.rename id name).run :=
  keeps_bind (keeps_attempt fun _ _ hr h => renames h hr) fun _ => keeps_pure _

/-- What plain steps and renamings keep is kept by every plain operation. -/
theorem Operation.keeps_run_of_isPlain {P : Repository → Prop} (operation : Operation)
    (stable : ∀ {r r'}, PlainStep operation.Registers r r' → P r → P r')
    (renames : ∀ {r r' : Repository} {id name}, r.rename id name = .ok r' → P r → P r')
    (plain : operation.isPlain = true) : Keeps P operation.run := by
  by_cases other : ∀ id name, operation ≠ .rename id name
  · exact operation.keeps_run_of_plainStep stable plain other
  · push Not at other
    obtain ⟨id, name, rfl⟩ := other
    exact keeps_run_rename renames

/-- What every step keeps is kept by every operation. -/
theorem Operation.keeps_run {P : Repository → Prop} (operation : Operation)
    (stable : ∀ {r r'}, Step operation.Registers r r' → P r → P r') :
    Keeps P operation.run := by
  by_cases other : ∀ id name, operation ≠ .rename id name
  · exact operation.keeps_run_of_alteration (fun h => stable (.alter h)) other
  · push Not at other
    obtain ⟨id, name, rfl⟩ := other
    exact keeps_run_rename fun h => stable (.rename id name h)

namespace Repository

theorem perform_of_yields {P : Repository → Prop} {operation : Operation} {r : Repository}
    (h : operation.run.Yields { repository := r } fun _ m' => P m'.repository) :
    P (r.perform operation) := by
  rw [Yields] at h
  unfold perform Session.perform EStateM.run
  split at h <;> simp_all

theorem perform_keeps {P : Repository → Prop} {operation : Operation}
    (h : Keeps P operation.run) {r : Repository} (hr : P r) : P (r.perform operation) :=
  perform_of_yields (h { repository := r } hr)

/-- What holds at the start and is kept by every step, whatever it registers, holds of all
reachable repositories. -/
theorem Reachable.invariant {P : Repository → Prop} {r : Repository} (h : r.Reachable)
    (start : ∀ c, P (Session.start c).repository)
    (stable : ∀ {G r r'}, Step G r r' → P r → P r') : P r := by
  -- the types that are registered do not matter
  refine @Reachable.rec (fun r _ => P r) (fun _ _ => True) start ?_ ?_ ?_ ?_ ?_ ?_ ?_ r h
  · exact fun operation _ _ _ ih => perform_keeps (operation.keeps_run stable) ih
  all_goals intros; trivial

end Repository

section Complex

variable {Q : ComplexType → Prop} {n : TypeNode}
variable (annotated : ∀ (a : Annotations) name instantiable, Q (a.type name instantiable))
variable (changed : ∀ {t t' : ComplexType}, t.Change t' → Q t → Q t')
variable (stable : ∀ {r r'}, Step (fun n => ∀ t, n = .complex t → Q t) r r' →
  (∀ id t, r.complex? id = some t → Q t) → ∀ id t, r'.complex? id = some t → Q t)

include annotated changed stable

/-- What holds of every new complex type, and is kept by its changes and by every step of an
operation, holds of all complex types that a program can have in hand. -/
theorem TypeNode.Obtained.forall_complex (h : n.Obtained) : ∀ t, n = .complex t → Q t := by
  refine @Obtained.rec (fun r _ => ∀ id t, r.complex? id = some t → Q t)
    (fun n _ => ∀ t, n = .complex t → Q t) ?start ?perform ?annotated ?named ?builtin ?taken
    ?changed ?restricted n h
  case start =>
    intro c id t found
    exact absurd found (Repository.complex?_initial_ne_some _ id t)
  case perform =>
    intro r operation _ _ given ih
    refine perform_keeps (operation.keeps_run fun step => stable (step.mono ?_)) ih
    intro n registers
    cases registers with
    | given => exact given n rfl
    | declared manifest c a name instantiable =>
      exact fun t same => TypeNode.complex.inj same ▸ annotated a name instantiable
  case annotated => exact fun a name b t same => TypeNode.complex.inj same ▸ annotated a name b
  case named | builtin | restricted => intros; contradiction
  case taken =>
    exact fun _ found all t same => all _ t (Repository.complex?_eq_some.2 (same ▸ found))
  case changed =>
    exact fun _ change holds t same => TypeNode.complex.inj same ▸ changed change (holds _ rfl)

/-- So it holds of all complex types of reachable repositories. -/
theorem Repository.Reachable.forall_complex {r : Repository} (h : r.Reachable) (id : TypeId)
    (t : ComplexType) (found : r.complex? id = some t) : Q t :=
  (TypeNode.Obtained.taken h (complex?_eq_some.1 found)).forall_complex annotated changed stable t
    rfl

end Complex

end EntityModel
