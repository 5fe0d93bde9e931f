/-
The fields and keys of a copy.

A copy has the fields of its source in their order, and a key for each of its keys.  The fields
are added before the keys are registered, and a field that is flagged as a key registers itself;
so the keys that are flagged fields come first, in the order of the fields:

* `ComplexType.shape_deepCopy` — what a copy is filled with;
* `Edit.copy_types` — so a copy is what it was filled with, whatever is copied after it;
* `Reachable.copy_fields` — the tables of a copy and those of its source;
* `not_copy_keyFields` — the keys of a copy need not stand in the order of those of its source.
-/
import EntityModel.Proofs.CopyRun
import EntityModel.Proofs.FieldOrder

namespace EntityModel

/-! ### What a copy is filled with -/

namespace FieldTable

/-- The fields of a table as a copy at `owner` has them. -/
def copied (t : FieldTable) (owner : TypeId) : FieldTable :=
  t.mapFields (·.thawed.adopt owner) fun _ => rfl

/-- The fields of a table that are flagged as keys. -/
def flagged (t : FieldTable) : FieldTable := t.filter (·.isKey)

theorem find?_copied (t : FieldTable) (owner : TypeId) (name : String) :
    (t.copied owner).find? name = (t.find? name).map (·.thawed.adopt owner) := find?_mapFields ..

theorem fields_copied (t : FieldTable) (owner : TypeId) :
    (t.copied owner).fields = t.fields.map (·.thawed.adopt owner) := fields_mapFields ..

theorem names_copied (t : FieldTable) (owner : TypeId) : (t.copied owner).names = t.names :=
  names_mapFields ..

theorem flagged_copied (t : FieldTable) (owner : TypeId) :
    (t.copied owner).flagged = t.flagged.copied owner := by
  refine ext_find? ?_ fun name => ?_
  · rw [names_copied]
    simp only [names, flagged, filter, copied, mapFields, mapEntries, List.filter_map,
      List.map_map]
    rfl
  · rw [flagged, find?_filter, find?_copied, find?_copied, flagged, find?_filter]
    cases t.find? name with
    | none => rfl
    | some f => cases key : f.isKey <;> simp [Option.filter, key, Field.thawed, Field.adopt]

end FieldTable

namespace ComplexType

variable (t : ComplexType) (copy : TypeId) (superTypes : List TypeId) (name : String)

/-- The flagged fields are registered as keys first. -/
theorem shape_deepCopy : (t.deepCopy copy superTypes).shape =
    { fields := t.shape.fields.copied copy
      keyFields := (t.shape.fields.flagged.copied copy).insertAll (t.shape.keyFields.copied copy)
      superTypes := superTypes.foldl appendNew []
      primaryKeyInfo := t.shape.primaryKeyInfo.map FieldRef.thawed
      lookupFields := t.shape.lookupFields.map FieldRef.thawed } := by
  show superTypes.foldl TypeShape.withSuperType _ = _
  rw [TypeShape.foldl_withSuperType_eq, TypeShape.foldl_withKey_eq,
    TypeShape.foldl_withField_eq, ← FieldTable.flagged_copied, ← FieldTable.fields_copied,
    ← FieldTable.fields_copied, ← FieldTable.fields_filter, FieldTable.insertAll_eq]
  have fields := (t.shape.fields.copied copy).addAll_empty
  have flagged := (t.shape.fields.copied copy).flagged.addAll_empty
  exact congrArg₂ (fun fields flagged : FieldTable => TypeShape.mk fields
    (flagged.addAll (t.shape.keyFields.copied copy).fields) _ _ _) fields flagged

theorem names_keyFields_deepCopy :
    (t.deepCopy copy superTypes).shape.keyFields.names =
      (t.shape.fields.flagged.names ++ t.shape.keyFields.names).eraseDups := by
  rw [shape_deepCopy, FieldTable.names_insertAll, FieldTable.names_copied, FieldTable.names_copied]

end ComplexType

/-! ### Keys that are flagged fields -/

/-- Every field that is flagged as a key is registered as one, whether or not the type is
frozen. -/
theorem Lifecycle.IsSound.registersKeys {l : Lifecycle} (h : l.IsSound) :
    l.shape.RegistersKeys := by
  cases l with
  | building => exact h
  | freezing => exact h.elim
  | frozen s => exact fun name f found key => (h.key name).2 ⟨f, found, key⟩

namespace TypeShape.RegistersKeys

variable {s : TypeShape} (h : s.RegistersKeys)

include h

theorem flagged_subset : s.fields.flagged.names ⊆ s.keyFields.names := by
  intro name mem
  obtain ⟨f, found⟩ := Option.isSome_iff_exists.1 (FieldTable.mem_names_iff.1 mem)
  rw [FieldTable.flagged, FieldTable.find?_filter, Option.filter_eq_some_iff] at found
  exact h name f found.1 found.2

end TypeShape.RegistersKeys

namespace ComplexType

variable {t : ComplexType} (copy : TypeId) (superTypes : List TypeId)

theorem find?_keyFields_deepCopy (h : t.shape.RegistersKeys) (name : String) :
    (t.deepCopy copy superTypes).shape.keyFields.find? name =
      (t.shape.keyFields.find? name).map (·.thawed.adopt copy) := by
  rw [shape_deepCopy, FieldTable.find?_insertAll, FieldTable.find?_copied, FieldTable.find?_copied]
  cases key : t.shape.keyFields.find? name with
  | some k => rfl
  | none =>
    have absent : t.shape.fields.flagged.find? name = none :=
      FieldTable.find?_eq_none.2 fun mem => FieldTable.find?_eq_none.1 key (h.flagged_subset mem)
    rw [absent]
    rfl

/-- The keys stand as in the source exactly if the flagged fields come first there, in their
order. -/
theorem keyFields_deepCopy_eq_iff (h : t.shape.RegistersKeys) :
    (t.deepCopy copy superTypes).shape.keyFields = t.shape.keyFields.copied copy ↔
      t.shape.fields.flagged.names <+: t.shape.keyFields.names := by
  have names := t.names_keyFields_deepCopy copy superTypes
  constructor
  · intro same
    rw [same, FieldTable.names_copied] at names
    have first := eraseDups_prefix_append t.shape.fields.flagged.names t.shape.keyFields.names
    rwa [FieldTable.eraseDups_names, ← names] at first
  · intro first
    refine FieldTable.ext_find? ?_ fun name => ?_
    · rw [names, FieldTable.names_copied]
      exact eraseDups_append_of_prefix t.shape.keyFields.distinct
        (by rwa [FieldTable.eraseDups_names])
    · rw [find?_keyFields_deepCopy copy superTypes h, FieldTable.find?_copied]

end ComplexType

/-! ### What is copied -/

namespace Edit

open Repository

variable {id : TypeId}

/-- A copy that succeeds attaches a type that is filled with what its source has, and changes
nothing but subtypes after that. -/
theorem copy_eq_ok {r : Repository} {events : List Event} {c : TypeId} {m' : Model}
    (run : copy id ⟨r, events⟩ = .ok c m') :
    ∃ t, r.complex? id = some t ∧ c = r.nextId ∧ (r.attachCopy id t []).ListsMore m'.repository := by
  obtain ⟨made, tree, result⟩ := (copy_run id ⟨r, events⟩).of_ok run
  obtain ⟨rfl, copies, rfl⟩ := result c rfl
  cases tree with
  | skip copied => cases copied
  | copied _ found below rest =>
    cases rest
    exact ⟨_, found, rfl, below.listsMore⟩

/-- After a copy that succeeds, the source is what it was but for its subtypes, and the copy is
what it was filled with. -/
theorem copy_types {r : Repository} {events : List Event} {c : TypeId} {m' : Model}
    (run : copy id ⟨r, events⟩ = .ok c m') :
    ∃ t t' u, r.complex? id = some t ∧
      m'.repository.complex? id = some t' ∧ t' = { t with subTypes := t'.subTypes } ∧
      m'.repository.complex? c = some u ∧
      u = { t.deepCopy c (t.shape.superTypes.map (copyOr [(id, c)])) with
        subTypes := u.subTypes } := by
  obtain ⟨t, found, rfl, more⟩ := copy_eq_ok run
  obtain ⟨l, copy⟩ := r.exists_complex?_attach_nextId (t.deepCopy r.nextId
    (t.shape.superTypes.map (copyOr [(id, r.nextId)]))) _
  obtain ⟨added, here⟩ := ((r.listsMore_attach _ _).trans more).complex? found
  obtain ⟨added', there⟩ := more.complex? copy
  exact ⟨t, _, _, found, here, rfl, there, rfl⟩

end Edit

namespace Repository

variable {r : Repository} {id c : TypeId} {events : List Event} {m' : Model}

/-- The fields of a copy are those of its source in their order, and so are its keys, but that
flagged fields come first among them; the copy owns them all and can modify them. -/
theorem Reachable.copy_fields (h : r.Reachable) (run : Edit.copy id ⟨r, events⟩ = .ok c m') :
    ∃ t t', r.complex? id = some t ∧ m'.repository.complex? c = some t' ∧
      t'.shape.fields = t.shape.fields.copied c ∧
      (∀ name, t'.shape.keyFields.find? name =
        (t.shape.keyFields.find? name).map (·.thawed.adopt c)) ∧
      t'.shape.keyFields.names =
        (t.shape.fields.flagged.names ++ t.shape.keyFields.names).eraseDups ∧
      (t'.shape.keyFields = t.shape.keyFields.copied c ↔
        t.shape.fields.flagged.names <+: t.shape.keyFields.names) := by
  obtain ⟨t, -, t', found, -, -, here, same⟩ := Edit.copy_types run
  have keys := (h.isSound id t found).registersKeys
  have shape : t'.shape =
      (t.deepCopy c (t.shape.superTypes.map (Edit.copyOr [(id, c)]))).shape := by
    rw [same]
    rfl
  refine ⟨t, t', found, here, ?_⟩
  rw [shape]
  exact ⟨by rw [t.shape_deepCopy], ComplexType.find?_keyFields_deepCopy _ _ keys,
    t.names_keyFields_deepCopy _ _, ComplexType.keyFields_deepCopy_eq_iff _ _ keys⟩

/-- A person has a key of its own, and inherits one. -/
def members : Repository :=
  (Session.start {}).repository.perform (.build { types :=
    [{ name := "Party", fields := [{ name := "id", type := "string", key := true }] },
      { name := "Person", superTypes := ["Party"]
        fields := [{ name := "code", type := "string", key := true }] }] } {})

theorem succeeds_copy_members : (Edit.copy ⟨34⟩).succeeds ⟨members, []⟩ = true := by
  rw [members, Session.repository_start]
  cbv

theorem copy_fields_person : ∃ c m' t t', Edit.copy ⟨34⟩ ⟨members, []⟩ = .ok c m' ∧
    members.complex? ⟨34⟩ = some t ∧ m'.repository.complex? c = some t' ∧
    t'.shape.fields = t.shape.fields.copied c ∧
    ∀ name, t'.shape.keyFields.find? name =
      (t.shape.keyFields.find? name).map (·.thawed.adopt c) := by
  obtain ⟨c, m', run⟩ := Edit.exists_of_succeeds succeeds_copy_members
  obtain ⟨t, t', found, here, fields, keys, -⟩ := Reachable.copy_fields (.build (.start {}) _ _) run
  exact ⟨c, m', t, t', run, found, here, fields, keys⟩

/-- The keys of a copy need not stand as in its source: the person was given its own key first,
but its copy has the fields in their order, of which the inherited one is first. -/
theorem not_copy_keyFields : ¬ ∀ (r : Repository) (id c : TypeId) (m' : Model), r.Reachable →
    Edit.copy id ⟨r, []⟩ = .ok c m' → ∃ t t', r.complex? id = some t ∧
      m'.repository.complex? c = some t' ∧ t'.shape.fields = t.shape.fields.copied c ∧
      t'.shape.keyFields = t.shape.keyFields.copied c := by
  intro ordered
  have source : (members.complex? ⟨34⟩).map (·.shape.keyFields.names) = some ["code", "id"] := by
    rw [members, Session.repository_start]
    cbv
  have copied : ((Edit.copy ⟨34⟩).result? ⟨members, []⟩).bind (fun p =>
      (p.2.repository.complex? p.1).map (·.shape.keyFields.names)) = some ["id", "code"] := by
    rw [members, Session.repository_start]
    cbv
  obtain ⟨c, m', run⟩ := Edit.exists_of_succeeds succeeds_copy_members
  obtain ⟨t, t', found, here, -, keys⟩ := ordered members ⟨34⟩ c m' (.build (.start {}) _ _) run
  rw [Edit.result?_eq_some.2 run, Option.bind_some, here] at copied
  rw [found] at source
  have names : t'.shape.keyFields.names = t.shape.keyFields.names := by
    rw [keys, FieldTable.names_copied]
  have own : t.shape.keyFields.names = ["code", "id"] := Option.some.inj source
  have moved : t'.shape.keyFields.names = ["id", "code"] := Option.some.inj copied
  rw [own, moved] at names
  simp at names

end Repository

end EntityModel
