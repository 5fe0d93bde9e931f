/-
The steps of a copy as changes of the repository.

* `ComplexType.deepCopy` — what a copy is filled with; `Edit.fillCopy_run` — so it is filled;
* `Repository.attach` — a type is added and made known to its super types;
* `Edit.copyTree_succ` — a copy is attached, and then its subtypes are copied
  (`Edit.copySubTypes`).
-/
import EntityModel.Proofs.FrozenTypes
import EntityModel.Proofs.ProperShapes

namespace EntityModel

/-! ### The copy of one type -/

namespace ComplexType

variable (t : ComplexType) (s : TypeShape)

/-- The copy of a type at `copy`, with the given super types and without subtypes. -/
def deepCopy (t : ComplexType) (copy : TypeId) (superTypes : List TypeId) : ComplexType :=
  let fields := t.shape.fields.fields.map (·.thawed.adopt copy)
  let keys := t.shape.keyFields.fields.map (·.thawed.adopt copy)
  { t.shallowCopy with
    lifecycle := .building (superTypes.foldl .withSuperType
      (keys.foldl .withKey (fields.foldl .withField t.shallowCopy.shape)))
    data := t.data
    usages := t.usages }

theorem superTypes_deepCopy (copy : TypeId) (superTypes : List TypeId) :
    (t.deepCopy copy superTypes).shape.superTypes = superTypes.foldl appendNew [] := by
  show (List.foldl TypeShape.withSuperType _ superTypes).superTypes = _
  rw [TypeShape.foldl_withSuperType_eq, TypeShape.foldl_withKey_eq, TypeShape.foldl_withField_eq]
  rfl

theorem subTypes_deepCopy (copy : TypeId) (superTypes : List TypeId) :
    (t.deepCopy copy superTypes).subTypes = [] := rfl

theorem addField_withDeclared {f : Field} (named : f.name ≠ "") :
    (t.withDeclared s).addField f = .ok (t.withDeclared (s.withField f)) :=
  (addField_of_building rfl f).trans (if_neg named)

theorem registerKey_withDeclared {k : Field} (named : k.name ≠ "") :
    (t.withDeclared s).registerKey k = .ok (t.withDeclared (s.withKey k)) :=
  (registerKey_of_building rfl k).trans (if_neg named)

theorem addSuperType_withDeclared (superType : TypeId) :
    (t.withDeclared s).addSuperType superType = .ok (t.withDeclared (s.withSuperType superType)) :=
  addSuperType_of_building rfl superType

end ComplexType

/-- What a type that may have been told of a subtype lists. -/
theorem ComplexType.mem_subTypes_ite {p : Prop} [Decidable p] {t : ComplexType} {c id : TypeId} :
    c ∈ (if p then t.registerSubType id else t).subTypes ↔ c ∈ t.subTypes ∨ (p ∧ c = id) := by
  split
  · next holds => rw [registerSubType, mem_appendNew, and_iff_right holds]
  · next fails => simp [fails]

theorem ComplexType.shape_ite {p : Prop} [Decidable p] {t : ComplexType} {id : TypeId} :
    (if p then t.registerSubType id else t).shape = t.shape := by
  split <;> rfl

namespace Repository

variable {r : Repository} {id u : TypeId}

theorem set_set (r : Repository) (id : TypeId) (n n' : TypeNode) :
    (r.set id n).set id n' = r.set id n' := by
  refine ext_get? (fun u => ?_) rfl rfl
  by_cases here : u = id
  · subst here
    rw [get?_set, get?_set, get?_set, if_pos rfl, if_pos rfl, if_pos rfl, Option.map_map]
    rfl
  · rw [get?_set_of_ne here, get?_set_of_ne here, get?_set_of_ne here]

theorem set_of_get? {n : TypeNode} (found : r.get? id = some n) : r.set id n = r := by
  refine ext_get? (fun u => ?_) rfl rfl
  by_cases here : u = id
  · subst here
    rw [get?_set_self found, found]
  · rw [get?_set_of_ne here]

theorem set_push (r : Repository) (n n' : TypeNode) :
    (r.push n).set r.nextId n' = r.push n' := by
  refine ext_get? (fun u => ?_) rfl rfl
  rw [get?_set, get?_push, get?_push]
  split <;> rfl

theorem complex?_set_self {n : TypeNode} (found : r.get? id = some n) (t : ComplexType) :
    (r.set id (.complex t)).complex? id = some t :=
  complex?_eq_some.2 (get?_set_self found _)

theorem complex?_push_nextId (r : Repository) (t : ComplexType) :
    (r.push (.complex t)).complex? r.nextId = some t := by
  rw [complex?_eq_some, get?_push, if_pos rfl]

/-- The type is added, and its super types are told. -/
def attach (r : Repository) (t : ComplexType) (superTypes : List TypeId) : Repository :=
  superTypes.foldl (fun s superType => s.adjust superType (·.registerSubType r.nextId))
    (r.push (.complex t))

theorem get?_attach (r : Repository) (t : ComplexType) (superTypes : List TypeId) :
    (r.attach t superTypes).get? u =
      (if u = r.nextId then some (.complex t) else r.get? u).map (·.mapComplex fun t =>
        if u ∈ superTypes then t.registerSubType r.nextId else t) := by
  rw [attach, get?_foldl_registerSubType, get?_push]

theorem complex?_attach_nextId (r : Repository) (t : ComplexType) (superTypes : List TypeId) :
    (r.attach t superTypes).complex? r.nextId =
      some (if r.nextId ∈ superTypes then t.registerSubType r.nextId else t) := by
  rw [complex?_eq_some, get?_attach, if_pos rfl]
  rfl

theorem complex?_attach_of_ne {t' : ComplexType} (other : u ≠ r.nextId)
    (found : r.complex? u = some t') (t : ComplexType) (superTypes : List TypeId) :
    (r.attach t superTypes).complex? u =
      some (if u ∈ superTypes then t'.registerSubType r.nextId else t') := by
  rw [complex?_eq_some, get?_attach, if_neg other, complex?_eq_some.1 found]
  rfl

theorem get?_attach_of_not_mem (other : u ≠ r.nextId) (t : ComplexType)
    {superTypes : List TypeId} (out : u ∉ superTypes) :
    (r.attach t superTypes).get? u = r.get? u := by
  rw [get?_attach, if_neg other]
  simp only [out, if_false]
  cases r.get? u with
  | none => rfl
  | some n => exact congrArg some n.mapComplex_id

theorem size_attach (r : Repository) (t : ComplexType) (superTypes : List TypeId) :
    (r.attach t superTypes).types.size = r.types.size + 1 := by
  have linked : ∀ (l : List TypeId) (s : Repository),
      (l.foldl (fun s v => s.adjust v (·.registerSubType r.nextId)) s).types.size =
        s.types.size := by
    intro l
    induction l with
    | nil => exact fun s => rfl
    | cons v rest ih => exact fun s => (ih _).trans (size_adjust _)
  rw [attach, linked, push, Array.size_push]

end Repository

/-! ### The steps of an operation -/

namespace Edit

open Repository

variable {β : Type} {m : Model} {id : TypeId}

theorem modify_run {f : ComplexType → Except ModelError ComplexType} {t t' : ComplexType}
    (found : m.repository.complex? id = some t) (ok : f t = .ok t') :
    Edit.modify id f m =
      .ok () { m with repository := m.repository.set id (.complex t') } := by
  have changed : m.repository.modify id f = .ok (m.repository.set id (.complex t')) := by
    rw [Repository.modify, complex_eq_ok_iff.2 found]
    show (f t >>= _) = _
    rw [ok]
    rfl
  rw [Edit.modify, attempt, changed]

theorem forM_update_run (l : List β) (f : β → Repository → Repository) (m : Model) :
    (l.forM fun x => update (f x)) m = .ok () { m with
      repository := l.foldl (fun r x => f x r) m.repository } := by
  induction l generalizing m with
  | nil => rfl
  | cons x rest ih => exact ih _

section Fill

variable {r : Repository} {n : TypeNode} {t t' : ComplexType}
variable (events : List Event) (found : r.get? id = some n)

include found

theorem modify_set_run {f : ComplexType → Except ModelError ComplexType} (ok : f t = .ok t') :
    Edit.modify id f ⟨r.set id (.complex t), events⟩ =
      .ok () ⟨r.set id (.complex t'), events⟩ := by
  rw [modify_run (complex?_set_self found t) ok, set_set]

/-- One type is changed again and again while it is being built. -/
theorem forM_modify_run {f : β → ComplexType → Except ModelError ComplexType}
    {h : TypeShape → β → TypeShape} {l : List β}
    (step : ∀ x ∈ l, ∀ s, f x (t.withDeclared s) = .ok (t.withDeclared (h s x)))
    (s : TypeShape) :
    l.forM (fun x => Edit.modify id (f x)) ⟨r.set id (.complex (t.withDeclared s)), events⟩ =
      .ok () ⟨r.set id (.complex (t.withDeclared (l.foldl h s))), events⟩ := by
  induction l generalizing s with
  | nil => rfl
  | cons x rest ih =>
    have first := modify_set_run events found (step x List.mem_cons_self s)
    exact (bind_eq_of_ok first).trans (ih (fun y mem => step y (List.mem_cons_of_mem x mem)) (h s x))

theorem forM_addField_run {l : List Field} (named : ∀ f ∈ l, f.name ≠ "") {g : Field → Field}
    (name : ∀ f, (g f).name = f.name) (s : TypeShape) :
    l.forM (fun f => Edit.modify id (·.addField (g f)))
      ⟨r.set id (.complex (t.withDeclared s)), events⟩ =
        .ok () ⟨r.set id (.complex (t.withDeclared ((l.map g).foldl .withField s))), events⟩ := by
  have step : ∀ f ∈ l, ∀ s, (t.withDeclared s).addField (g f) =
      .ok (t.withDeclared (s.withField (g f))) := fun f mem s =>
    t.addField_withDeclared s (by rw [name]; exact named f mem)
  rw [List.foldl_map]
  exact forM_modify_run events found step s

theorem forM_registerKey_run {l : List Field} (named : ∀ k ∈ l, k.name ≠ "") {g : Field → Field}
    (name : ∀ k, (g k).name = k.name) (s : TypeShape) :
    l.forM (fun k => Edit.modify id (·.registerKey (g k)))
      ⟨r.set id (.complex (t.withDeclared s)), events⟩ =
        .ok () ⟨r.set id (.complex (t.withDeclared ((l.map g).foldl .withKey s))), events⟩ := by
  have step : ∀ k ∈ l, ∀ s, (t.withDeclared s).registerKey (g k) =
      .ok (t.withDeclared (s.withKey (g k))) := fun k mem s =>
    t.registerKey_withDeclared s (by rw [name]; exact named k mem)
  rw [List.foldl_map]
  exact forM_modify_run events found step s

theorem forM_addSuperType_run (l : List TypeId) (s : TypeShape) :
    l.forM (fun v => Edit.modify id (·.addSuperType v))
      ⟨r.set id (.complex (t.withDeclared s)), events⟩ =
        .ok () ⟨r.set id (.complex (t.withDeclared (l.foldl .withSuperType s))), events⟩ :=
  forM_modify_run events found (fun v _ s => t.addSuperType_withDeclared s v) s

end Fill

/-- A fresh copy is filled with what its source has. -/
theorem fillCopy_run {r : Repository} {source : ComplexType} (proper : source.shape.IsProper)
    (superTypes : List TypeId) (events : List Event)
    (found : r.get? id = some (.complex source.shallowCopy)) :
    fillCopy source id superTypes ⟨r, events⟩ =
      .ok () ⟨r.set id (.complex (source.deepCopy id superTypes)), events⟩ := by
  have start : r = r.set id
      (.complex (source.shallowCopy.withDeclared source.shallowCopy.shape)) :=
    (set_of_get? found).symm
  have fields := forM_addField_run events (t := source.shallowCopy) found
    proper.forall.1 (g := (·.thawed.adopt id)) (fun _ => rfl) source.shallowCopy.shape
  rw [← start] at fields
  rw [fillCopy, bind_eq_of_ok fields,
    bind_eq_of_ok (forM_registerKey_run events found proper.forall.2
      (g := (·.thawed.adopt id)) (fun _ => rfl) _),
    bind_eq_of_ok (forM_addSuperType_run events found superTypes _)]
  exact modify_set_run events found rfl

/-! ### The copy of a tree -/

/-- The subtypes of a type are copied, except for those that are copied already, and its copy
is told. -/
def copySubTypes (depth : Nat) (copy : TypeId) (subTypes : List TypeId)
    (copies : List (TypeId × TypeId)) : Edit (List (TypeId × TypeId)) :=
  subTypes.foldlM (fun copies subType => do
    if (copies.lookup subType).isSome then return copies
    let (subCopy, copies) ← copyTree depth subType copies
    modify copy fun t => .ok (t.registerSubType subCopy)
    return copies) copies

variable {depth : Nat} {copy subType : TypeId} {rest : List TypeId}
variable {copies copies' : List (TypeId × TypeId)}

theorem copySubTypes_cons_of_isSome (copied : (copies.lookup subType).isSome = true) :
    copySubTypes depth copy (subType :: rest) copies = copySubTypes depth copy rest copies := by
  rw [copySubTypes, List.foldlM_cons, if_pos copied, pure_bind]
  rfl

theorem copySubTypes_cons_of_run {m' : Model} {subCopy : TypeId} {t : ComplexType}
    (fresh : copies.lookup subType = none)
    (run : copyTree depth subType copies m = .ok (subCopy, copies') m')
    (found : m'.repository.complex? copy = some t) :
    copySubTypes depth copy (subType :: rest) copies m =
      copySubTypes depth copy rest copies' { m' with
        repository := m'.repository.set copy (.complex (t.registerSubType subCopy)) } := by
  have told : Edit.modify copy (fun t => .ok (t.registerSubType subCopy)) m' = .ok () { m' with
      repository := m'.repository.set copy (.complex (t.registerSubType subCopy)) } :=
    modify_run found rfl
  rw [copySubTypes, List.foldlM_cons, fresh, Option.isSome_none, if_neg Bool.false_ne_true]
  refine bind_eq_of_ok ?_
  exact (bind_eq_of_ok run).trans (bind_eq_of_ok told)

/-- A copy that can be filled is attached, and then the subtypes are copied. -/
theorem copyTree_of_filled {r : Repository} {source : ComplexType} {events : List Event}
    (found : r.complex? id = some source) (depth : Nat) {superTypes : List TypeId}
    (supers : source.shape.superTypes.map (copyOr ((id, r.nextId) :: copies)) = superTypes)
    (filled : fillCopy source r.nextId superTypes ⟨r.push (.complex source.shallowCopy), events⟩ =
      .ok () ⟨r.push (.complex (source.deepCopy r.nextId superTypes)), events⟩) :
    copyTree (depth + 1) id copies ⟨r, events⟩ =
      (copySubTypes depth r.nextId source.subTypes ((id, r.nextId) :: copies) >>= fun copies =>
        pure (r.nextId, copies))
        ⟨r.attach (source.deepCopy r.nextId superTypes) superTypes, events⟩ := by
  have asked : ask (·.complex id) ⟨r, events⟩ = .ok source ⟨r, events⟩ :=
    ask_eq_ok (complex_eq_ok_iff.2 found)
  have pushed : push (.complex source.shallowCopy) ⟨r, events⟩ =
      .ok r.nextId ⟨r.push (.complex source.shallowCopy), events⟩ := rfl
  have linked := forM_update_run superTypes
    (fun superType s => s.adjust superType (·.registerSubType r.nextId))
    ⟨r.push (.complex (source.deepCopy r.nextId superTypes)), events⟩
  rw [copyTree, bind_eq_of_ok asked, bind_eq_of_ok pushed]
  dsimp only
  rw [supers, bind_eq_of_ok filled, bind_eq_of_ok linked]
  rfl

theorem copyTree_succ {r : Repository} {source : ComplexType} {events : List Event}
    (found : r.complex? id = some source) (proper : source.shape.IsProper) (depth : Nat)
    (copies : List (TypeId × TypeId)) :
    copyTree (depth + 1) id copies ⟨r, events⟩ =
      (copySubTypes depth r.nextId source.subTypes ((id, r.nextId) :: copies) >>= fun copies =>
        pure (r.nextId, copies))
        ⟨r.attach (source.deepCopy r.nextId (source.shape.superTypes.map
            (copyOr ((id, r.nextId) :: copies))))
          (source.shape.superTypes.map (copyOr ((id, r.nextId) :: copies))), events⟩ := by
  have filled := fillCopy_run proper (source.shape.superTypes.map
    (copyOr ((id, r.nextId) :: copies))) events
    (complex?_eq_some.1 (complex?_push_nextId r source.shallowCopy))
  rw [set_push] at filled
  exact copyTree_of_filled found depth rfl filled

end Edit

end EntityModel
