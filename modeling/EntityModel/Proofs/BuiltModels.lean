/-
Models that are built and not changed.

If all that was done is to build manifests, and every build succeeded, the model is complete
(`Repository.IsComplete`): its complex types are frozen, extend the types that list them, and have
fields whose types are there.

* `IsFrozenBut.build` — a build freezes all that it registers;
* `keeps_isTyped_build` — it declares fields with types that names lead to, and a freeze does not
  change the types of fields;
* `Run.isComplete` — so a model is complete after any number of builds.
-/
import EntityModel.Proofs.ManifestRefs
import EntityModel.Proofs.SubtypeConverse

namespace EntityModel

open Edit

namespace Repository

variable {r r' : Repository} {id u : TypeId} {t t' : ComplexType} {m : Manifest} {c : Config}

/-! ### Frozen types -/

/-- Every complex type is frozen or is one of `ids`. -/
def IsFrozenBut (r : Repository) (ids : List TypeId) : Prop :=
  ∀ u t, r.complex? u = some t → t.isFrozen = true ∨ u ∈ ids

namespace IsFrozenBut

variable {known ids : List TypeId} {m₀ m₁ : Model}

theorem change (found : r.complex? id = some t) (h : t.Declaration t')
    (frozen : r.IsFrozenBut known) : (r.set id (.complex t')).IsFrozenBut known := by
  intro u t₁ found₁
  rcases complex?_set r id u _ found₁ with ⟨rfl, same, -⟩ | ⟨-, found₁⟩
  · cases same
    rw [h.change.isFrozen]
    exact frozen u t found
  · exact frozen u t₁ found₁

theorem mapM_registerEntry (l : List TypeEntry) (frozen : m₀.repository.IsFrozenBut known)
    (run : l.mapM (m.registerEntry c) m₀ = .ok ids m₁) :
    m₁.repository.IsFrozenBut (known ++ ids) := by
  induction l generalizing known m₀ ids with
  | nil =>
    cases run
    simpa using frozen
  | cons e rest ih =>
    rw [List.mapM_cons] at run
    obtain ⟨id, m₂, first, run⟩ := bind_eq_ok.1 run
    obtain ⟨others, m₃, tail, run⟩ := bind_eq_ok.1 run
    cases run
    obtain ⟨rfl, registered⟩ := register_run first
    obtain ⟨-, same⟩ := register_eq_ok registered
    have next : m₂.repository.IsFrozenBut (known ++ [m₀.repository.nextId]) := by
      intro u t found
      rw [same] at found
      rcases complex?_push m₀.repository u _ found with ⟨rfl, -⟩ | found
      · exact .inr (by simp)
      · exact (frozen u t found).imp_right (List.mem_append_left _)
    simpa using ih next tail

/-- A build that succeeds freezes all that it registers. -/
theorem build (frozen : m₀.repository.IsFrozenBut known) (run : m.build c m₀ = .ok ids m₁) :
    m₁.repository.IsFrozenBut known := by
  obtain ⟨declared, order, first, freezes⟩ := Manifest.build_eq_ok run
  obtain ⟨ids', m₂, registered, first⟩ := bind_eq_ok.1 first
  obtain ⟨⟨⟩, m₃, filled, last⟩ := bind_eq_ok.1 first
  cases last
  have keeps : Keeps (·.IsFrozenBut (known ++ ids))
      ((m.types.zip ids).forM fun entry => m.fillEntry c entry.1 entry.2) :=
    keeps_forM fun entry _ => keeps_fillEntry change m c entry.1 entry.2
  have frozen := (keeps m₂ (mapM_registerEntry m.types frozen registered)).of_ok filled
  obtain ⟨E, done⟩ := freezes.evolves
  intro u t' found'
  obtain ⟨t, found, -⟩ := E.exists_of_complex? found'
  have here : m₁.repository.isFrozen u = t'.isFrozen :=
    isFrozen_of_get? (complex?_eq_some.1 found')
  rcases frozen u t found with old | open_
  · rw [← here]
    exact .inl (E.preserves.isFrozen ((isFrozen_of_get? (complex?_eq_some.1 found)).trans old))
  · rw [← here]
    exact (List.mem_append.1 open_).symm.imp_left (done rfl u)

end IsFrozenBut

/-! ### The types of fields -/

/-- What is found under a name is there, and so are the types of all fields. -/
structure IsTyped (r : Repository) : Prop where
  index : r.IndexSound
  fields : ∀ id t, r.complex? id = some t → t.shape.Forall (·.valueType ∈ r.ids)

theorem IndexSound.mem_ids (h : r.IndexSound) {name : QualifiedName}
    (found : r.names.find? name = some id) : id ∈ r.ids := by
  obtain ⟨n, here, -⟩ := Option.map_eq_some_iff.1 (h name id found)
  exact mem_ids_of_get? here

theorem IndexSound.mem_ids_of_typeNamed (h : r.IndexSound) {ns owner name : String}
    (found : r.typeNamed ns owner name = .ok id) : id ∈ r.ids := by
  rw [typeNamed] at found
  split at found
  · next known =>
    cases found
    rcases Option.or_eq_some_iff.1 known with here | ⟨-, here⟩
    · exact h.mem_ids here
    · exact h.mem_ids here
  · cases found

theorem ids_set (r : Repository) (id : TypeId) (n : TypeNode) : (r.set id n).ids = r.ids :=
  ids_congr (size_set _)

theorem ids_subset_push (r : Repository) (n : TypeNode) : r.ids ⊆ (r.push n).ids := by
  intro u mem
  obtain ⟨n', found⟩ := Option.isSome_iff_exists.1 (mem_ids_iff_get?.1 mem)
  exact mem_ids_of_get? (get?_push_of_some found n)

namespace IsTyped

variable (h : r.IsTyped)

include h

theorem set (found : r.complex? id = some t) (name : t'.qualifiedName = t.qualifiedName)
    (typed : t'.shape.Forall (·.valueType ∈ r.ids)) : (r.set id (.complex t')).IsTyped where
  index text u named := by
    have same : (TypeNode.complex t').qualifiedName = (TypeNode.complex t).qualifiedName := name
    exact keepsNames_set (complex?_eq_some.1 found) same u text (h.index text u named)
  fields u t₁ found₁ := by
    rw [ids_set]
    rcases complex?_set r id u _ found₁ with ⟨rfl, same, -⟩ | ⟨-, found₁⟩
    · cases same
      exact typed
    · exact h.fields u t₁ found₁

theorem register {a : Annotations} {name : QualifiedName} {instantiable : Bool}
    (ok : r.register (.complex (a.type name instantiable)) = .ok r') : r'.IsTyped where
  index := h.index.enter (enters_register ok).1
  fields u t found := by
    obtain ⟨-, rfl⟩ := register_eq_ok ok
    rcases complex?_push r u _ found with ⟨-, same⟩ | found
    · rw [← TypeNode.complex.inj same]
      exact ⟨nofun, nofun⟩
    · have typed := h.fields u t found
      exact ⟨fun f mem => r.ids_subset_push _ (typed.1 f mem),
        fun k mem => r.ids_subset_push _ (typed.2 k mem)⟩

theorem freeze {ids order : List TypeId} {out : Except ModelError Unit}
    (run : FreezeRun ids r order out r') : r'.IsTyped where
  index name u found := by
    rw [run.evolves.1.names] at found
    exact run.evolves.1.keepsNames u name (h.index name u found)
  fields u t found := by
    have settle : ∀ keys f, f.valueType ∈ r.ids →
        (TypeShape.settle keys f).valueType ∈ r.ids := by
      intro keys f typed
      unfold TypeShape.settle
      split <;> exact typed
    rw [ids_congr run.evolves.1.size]
    exact run.evolves.1.forall_shape (fun _ _ => id) settle h.fields found

end IsTyped

end Repository

open Repository

theorem FieldTable.mem_add {t : FieldTable} {f g : Field}
    (mem : g ∈ (t.add f).fields) :
    g = f ∨ g ∈ t.fields := by
  have found := find?_eq_some_iff.2 ⟨mem, rfl⟩
  rw [find?_add] at found
  split at found
  · exact .inl (Option.some.inj found).symm
  · exact .inr (mem_of_find? found)

theorem ComplexType.forall_of_addField {Q : Field → Prop} {t t' : ComplexType} {f : Field}
    (ok : t.addField f = .ok t') (h : t.shape.Forall Q) (holds : Q f) : t'.shape.Forall Q := by
  obtain ⟨s, building, -, rfl⟩ := addField_eq_ok ok
  rw [shape, building] at h
  have insert : ∀ {table : FieldTable}, (∀ g ∈ table.fields, Q g) →
      ∀ g ∈ (table.add f).fields, Q g := fun all g mem =>
    (FieldTable.mem_add mem).elim (fun same => same ▸ holds) (all g)
  refine ⟨insert h.1, ?_⟩
  show ∀ g ∈ (if f.isKey then s.keyFields.add f else s.keyFields).fields, Q g
  split
  · exact insert h.2
  · exact h.2

namespace FieldEntry

variable {e : FieldEntry} {r : Repository} {ns owner : String} {fieldType id : TypeId}
variable {referencedType : Option TypeId}

theorem typeNamed_of_namedTypes
    (ok : e.namedTypes ns owner r = .ok (fieldType, referencedType)) :
    r.typeNamed ns owner e.type = .ok fieldType := by
  obtain ⟨u, first, rest⟩ := except_bind_eq_ok.1 ok
  have same : u = fieldType := by
    split at rest
    · cases rest
      rfl
    · obtain ⟨v, -, rest⟩ := except_bind_eq_ok.1 rest
      cases rest
      rfl
  rw [first, same]

/-- A field of a manifest gets the type that was looked up for it. -/
theorem valueType_of_field {contained : Bool} {f : Field}
    (ok : (e.annotations fieldType referencedType).field id e.name contained = .ok f) :
    f.valueType = fieldType := by
  have typed : (e.annotations fieldType referencedType).fieldType = some fieldType := by
    rw [annotations]
    cases e.reference <;> rfl
  rw [Annotations.field, typed] at ok
  obtain ⟨kind, -, ok⟩ := except_bind_eq_ok.1 ok
  cases ok
  rfl

end FieldEntry

/-! ### Builds -/

namespace Repository.IsTyped

theorem addField {r : Repository} {id : TypeId} {t t' : ComplexType} {f : Field} (h : r.IsTyped)
    (found : r.complex? id = some t) (ok : t.addField f = .ok t') (known : f.valueType ∈ r.ids) :
    (r.set id (.complex t')).IsTyped := by
  have typed := ComplexType.forall_of_addField ok (h.fields id t found) known
  obtain ⟨s, -, -, rfl⟩ := ComplexType.addField_eq_ok ok
  exact h.set found rfl typed

theorem addSuperType {r : Repository} {id s : TypeId} {t t' : ComplexType} (h : r.IsTyped)
    (found : r.complex? id = some t) (ok : t.addSuperType s = .ok t') :
    (r.set id (.complex t')).IsTyped := by
  have typed := h.fields id t found
  obtain ⟨s, building, rfl⟩ := ComplexType.addSuperType_eq_ok ok
  rw [ComplexType.shape, building] at typed
  exact h.set found rfl typed

end Repository.IsTyped

namespace Manifest

/-- A field is declared with the type that its name leads to. -/
theorem keeps_isTyped_declareField (ns owner : String) (id : TypeId) (e : FieldEntry) :
    Keeps IsTyped (declareField ns owner id e) := by
  refine keeps_ask_bind fun named m typed found => ?_
  obtain ⟨fieldType, referencedType⟩ := named
  have known := typed.index.mem_ids_of_typeNamed (FieldEntry.typeNamed_of_namedTypes found)
  let P : Repository → Prop := fun r => r.IsTyped ∧ fieldType ∈ r.ids
  suffices declared : Keeps P _ from
    (declared.yields ⟨typed, known⟩).mono fun _ _ after => after.1
  refine keeps_bind keeps_get fun _ => keeps_ask_bind fun f m both made => ?_
  suffices added : Keeps P _ from added.yields both
  refine keeps_bind (keeps_attempt fun r r' h ok => ?_) fun _ => ?_
  · obtain ⟨t, t', here, added, rfl⟩ := modify_eq_ok ok
    have same := FieldEntry.valueType_of_field made
    exact ⟨h.1.addField here added (same ▸ h.2), (r.ids_set id _).symm ▸ h.2⟩
  · split
    · refine keeps_attempt fun r r' h ok => ?_
      obtain ⟨t, t', here, used, rfl⟩ := modify_eq_ok ok
      cases used
      exact ⟨h.1.set here rfl (h.1.fields _ t here), (r.ids_set fieldType _).symm ▸ h.2⟩
    · exact keeps_pure _

theorem keeps_isTyped_fillEntry (m : Manifest) (c : Config) (e : TypeEntry) (id : TypeId) :
    Keeps IsTyped (m.fillEntry c e id) := by
  refine keeps_bind (keeps_forM fun name _ => keeps_bind (keeps_ask _) fun superType => ?_)
    fun _ => keeps_forM fun f _ => keeps_isTyped_declareField _ _ id f
  refine keeps_attempt fun r r' typed ok => ?_
  obtain ⟨t, t', found, added, rfl⟩ := modify_eq_ok ok
  exact typed.addSuperType found added

theorem keeps_isTyped_build (m : Manifest) (c : Config) : Keeps IsTyped (m.build c) :=
  keeps_bind (keeps_mapM fun _ _ => keeps_register fun ok typed => typed.register ok) fun ids =>
    keeps_bind (keeps_forM fun _ _ => keeps_isTyped_fillEntry m c _ _) fun _ =>
      keeps_bind (keeps_forM_freeze (fun run typed => typed.freeze run) ids) fun _ =>
        keeps_bind (keeps_report _) fun _ => keeps_pure _

end Manifest

namespace Repository

/-- The operation builds a manifest, and succeeds. -/
def Builds (r : Repository) (operation : Operation) : Prop :=
  ∃ manifest config, operation = .build manifest config ∧
    operation.run.succeeds { repository := r } = true

theorem perform_eq_of_run {r : Repository} {operation : Operation} {answer : Answer} {m : Model}
    (run : operation.run { repository := r } = .ok answer m) :
    r.perform operation = m.repository := by
  rw [perform, Session.perform, EStateM.run, run]

/-- Nothing is left to be done: all complex types are frozen, rest on their super types, and list
exactly what extends them, and the types of fields are there. -/
structure IsComplete (r : Repository) : Prop where
  reachable : r.Reachable
  frozen : ∀ id t, r.complex? id = some t → t.isFrozen = true
  closed : r.IsClosed
  grounded : r.IsGrounded
  listsFrozen : r.ListsFrozen
  listsHeirs : r.ListsHeirs
  typed : r.IsTyped

namespace Run

variable {r : Repository} {c : SchemaConfig} {ids : List TypeId}

theorem isFrozenBut (run : Run c (fun r _ operation => r.Builds operation) r ids) :
    r.IsFrozenBut [] := by
  induction run with
  | start =>
    intro id t found
    exact absurd found (complex?_initial_ne_some _ id t)
  | perform _ _ _ builds ih =>
    obtain ⟨manifest, config, rfl, succeeds⟩ := builds
    obtain ⟨answer, m', run⟩ := exists_of_succeeds succeeds
    rw [perform_eq_of_run run]
    obtain ⟨ids, built, -⟩ := map_eq_ok.1 run
    exact ih.build built

theorem isStraight (run : Run c (fun r _ operation => r.Builds operation) r ids) :
    Run c (fun _ _ operation => operation.isStraight = true) r ids := by
  refine run.mono fun r ids operation builds => ?_
  obtain ⟨manifest, config, rfl, -⟩ := builds
  rfl

/-- What is made by building manifests is complete. -/
theorem isComplete (run : Run c (fun r _ operation => r.Builds operation) r ids) :
    r.IsComplete where
  reachable := run.reachable
  frozen id t found := (run.isFrozenBut id t found).resolve_right List.not_mem_nil
  closed := run.isStraight.registersNoHeir.admitted.isClosed
  grounded := run.isStraight.registersNoHeir.admitted.isGrounded
  listsFrozen := run.isStraight.registersNoHeir.listsFrozen
  listsHeirs := run.isStraight.listsHeirs
  typed := by
    induction run with
    | start =>
      refine ⟨indexSound_initial _, fun id t found => ?_⟩
      exact absurd found (complex?_initial_ne_some _ id t)
    | perform _ operation _ builds ih =>
      obtain ⟨manifest, config, rfl, -⟩ := builds
      exact perform_keeps (keeps_map (manifest.keeps_isTyped_build config)) ih

end Run

end Repository

end EntityModel
