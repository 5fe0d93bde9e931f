/-
A build does what the manifest says.

If the build of a manifest succeeds, whatever was there before, each entry has its type: found
under its name, frozen, with what the entry says about the type (`TypeEntry.RealizedBy`) and with
the fields that it declares (`FieldEntry.RealizedBy`).  Of several entries of one name the last
counts, but any of them makes the field a key, and so does a super type that hands down a key of
that name.

* `find?_fields_shapeIn`, `mem_keyNames_shapeIn` — the declared shape of a type, name by name;
* `TypeEntry.realizedBy_of_flatten` — what the freeze makes of it;
* `Manifest.build_realizes` — so a build realises its manifest.
-/
import EntityModel.Proofs.DeclaredModels

namespace EntityModel

open Edit Repository

/-! ### Tables -/

/-- Fields inserted one after the other: of those that share a name the last counts. -/
theorem FieldTable.find?_addAll_last (t : FieldTable) (l : List Field) (name : String) :
    (t.addAll l).find? name = (l.reverse.find? (·.name == name)).or (t.find? name) := by
  induction l generalizing t with
  | nil => rfl
  | cons f rest ih =>
    have step : t.addAll (f :: rest) = (t.add f).addAll rest := rfl
    rw [step, ih, find?_add, List.reverse_cons, List.find?_append, Option.or_assoc]
    congr 1
    by_cases same : f.name = name
    · rw [if_pos same.symm, List.find?_cons_of_pos (by simpa using same), Option.some_or]
    · rw [if_neg (Ne.symm same), List.find?_cons_of_neg (by simpa using same), List.find?_nil,
        Option.none_or]

/-! ### Entries and their types -/

/-- The field `f` of the type `id` is the one that the entry describes. -/
structure FieldEntry.RealizedBy (e : FieldEntry) (r : Repository) (ns : String) (id : TypeId)
    (f : Field) : Prop where
  declaringType : f.declaringType = id
  containingType : f.containingType = id
  /-- The type is one of the namespace, or else a built-in one. -/
  valueType : (r.lookup ns e.type).or (r.lookup r.builtinNamespace e.type) = some f.valueType
  isMany : f.isMany = e.many
  isMandatory : f.isMandatory = e.mandatory
  labels : f.labels = e.labels
  isFrozen : f.isFrozen = true
  /-- A field without a reference embeds its type if that is complex. -/
  plain : e.reference = none → f.kind =
    if (r.complex? f.valueType).isSome then .contained
    else if e.enumeration then .enumeration else .simple
  reference : ∀ reference, e.reference = some reference → ∃ target,
    (r.lookup ns reference.type).or (r.lookup r.builtinNamespace reference.type) = some target ∧
      f.kind = .reference
        { target
          targetField := reference.field
          integrity := reference.integrity
          integrityOverride := reference.integrityOverride }

/-- The super types whose fields the type of the entry inherits: the only one that it declares,
or of several those that agree with it in being instantiable. -/
def TypeEntry.donors (e : TypeEntry) (r : Repository) (ns : String) : List TypeId :=
  r.keptSuperTypes e.instantiable ((e.superTypes.filterMap (r.named? ns)).foldl appendNew [])

/-- The field `name` is a key by the entry: an entry of that name says so, or a super type hands
down a key of that name. -/
def TypeEntry.MakesKey (e : TypeEntry) (r : Repository) (ns name : String) : Prop :=
  (∃ f ∈ e.fields, f.name = name ∧ f.key = true) ∨
    ∃ s ∈ e.donors r ns, ∃ f, r.ownField? s name = some f ∧ f.isKey = true

/-- The type `t` at `id` is the one that the entry describes. -/
structure TypeEntry.RealizedBy (e : TypeEntry) (r : Repository) (ns : String)
    (defaultLocale : Locale) (id : TypeId) (t : ComplexType) : Prop where
  isFrozen : t.isFrozen = true
  qualifiedName : t.qualifiedName = ⟨ns, e.name⟩
  instantiable : t.instantiable = e.instantiable
  directives : t.directives =
    { allowWrite := e.allowWrite
      denyCreate := e.denyCreate
      hide := e.hide
      denyPhysicalDelete := e.denyPhysicalDelete
      denyLogicalDelete := e.denyLogicalDelete
      workflowRights := e.workflowRights }
  schematron : t.schematron = e.schematron
  /-- The label without a locale counts for the default one, unless there is another for it. -/
  labels : ∀ locale, t.labels.get? locale =
    (e.labels.get? locale).or (if locale = defaultLocale then e.label else none)
  /-- Of the entries of a name the last counts. -/
  fields : ∀ name f, e.fields.reverse.find? (·.name == name) = some f → ∃ g,
    t.ownField? name = some g ∧ g.name = name ∧ f.RealizedBy r ns id g ∧
      (g.isKey = true ↔ e.MakesKey r ns name)

theorem TypeEntry.get?_allLabels (e : TypeEntry) (defaultLocale locale : Locale) :
    (e.allLabels defaultLocale).get? locale =
      (e.labels.get? locale).or (if locale = defaultLocale then e.label else none) := by
  rw [allLabels]
  cases label : e.label with
  | none => rw [ite_self, Option.or_none]
  | some text => rw [Table.get?_insertAll, Table.get?_insert, Table.get?_empty]

/-! ### Declared shapes -/

section Shape

variable {e : TypeEntry} {r r' : Repository} {ns : String} {id : TypeId}

theorem TypeEntry.shapeIn_congr (same : r.SameHeaders r') :
    e.shapeIn r' ns id = e.shapeIn r ns id := by
  simp only [shapeIn, same.named?, FieldEntry.declared?_congr same]

/-- The field that a name means is told by the last entry of that name. -/
theorem find?_fields_shapeIn (resolves : e.Resolves r ns id) (name : String) :
    (e.shapeIn r ns id).fields.find? name =
      (e.fields.reverse.find? (·.name == name)).bind (·.declared? r ns id) := by
  have here : ∀ f ∈ e.fields.reverse,
      ((f.declared? r ns id).any (·.name == name)) = (f.name == name) := by
    intro f mem
    obtain ⟨g, declares⟩ := Option.isSome_iff_exists.1 (resolves.fields f (List.mem_reverse.1 mem))
    obtain ⟨_, _, -, -, rfl⟩ := FieldEntry.exists_of_declared? declares
    rw [declares]
    rfl
  rw [TypeEntry.shapeIn, FieldTable.find?_addAll_last, FieldTable.find?_empty, Option.or_none,
    ← List.filterMap_reverse, List.find?_filterMap, List.find?_congr here]

theorem mem_keyNames_shapeIn (resolves : e.Resolves r ns id) (name : String) :
    name ∈ (e.shapeIn r ns id).keyFields.names ↔ ∃ f ∈ e.fields, f.name = name ∧ f.key = true := by
  rw [FieldTable.mem_names_iff, TypeEntry.shapeIn, FieldTable.find?_addAll_last,
    FieldTable.find?_empty, Option.or_none, List.find?_isSome]
  simp only [List.mem_reverse, List.mem_filter, List.mem_filterMap, beq_iff_eq]
  constructor
  · rintro ⟨g, ⟨⟨f, mem, declares⟩, key⟩, named⟩
    obtain ⟨_, _, -, -, rfl⟩ := FieldEntry.exists_of_declared? declares
    exact ⟨f, mem, named, key⟩
  · rintro ⟨f, mem, named, key⟩
    obtain ⟨g, declares⟩ := Option.isSome_iff_exists.1 (resolves.fields f mem)
    refine ⟨g, ⟨⟨f, mem, declares⟩, ?_⟩, ?_⟩ <;>
      obtain ⟨_, _, -, -, rfl⟩ := FieldEntry.exists_of_declared? declares
    · exact key
    · exact named

end Shape

/-! ### Built types -/

/-- A declared field is what its entry describes once it is frozen, whether it is a key or not. -/
theorem FieldEntry.realizedBy_settle {e : FieldEntry} {r : Repository} {ns : String} {id : TypeId}
    {f : Field} (declares : e.declared? r ns id = some f) (keys : FieldTable) :
    e.RealizedBy r ns id (TypeShape.settle keys f) := by
  obtain ⟨valueType, kind, found, holds, rfl⟩ := exists_of_declared? declares
  have plain : e.reference = none → kind = if (r.complex? valueType).isSome then .contained
      else if e.enumeration then .enumeration else .simple := by
    intro none
    rw [kind?, none] at holds
    exact (Option.some.inj holds).symm
  have reference : ∀ reference, e.reference = some reference → ∃ target,
      r.named? ns reference.type = some target ∧ kind = .reference
        { target
          targetField := reference.field
          integrity := reference.integrity
          integrityOverride := reference.integrityOverride } := by
    intro reference some
    rw [kind?, some] at holds
    obtain ⟨target, leads, rfl⟩ := Option.map_eq_some_iff.1 holds
    exact ⟨target, leads, rfl⟩
  rw [TypeShape.settle]
  split <;> exact ⟨rfl, rfl, found, rfl, rfl, rfl, rfl, plain, reference⟩

/-- The fields of a type that was flattened are those that its entry declares. -/
theorem TypeEntry.realizedBy_of_flatten {e : TypeEntry} {r : Repository} {ns name : String}
    {id : TypeId} {f : FieldEntry} (resolves : e.Resolves r ns id)
    (last : e.fields.reverse.find? (·.name == name) = some f) :
    ∃ g, (r.flatten id e.instantiable (e.shapeIn r ns id)).fields.find? name = some g ∧
      g.name = name ∧ f.RealizedBy r ns id g ∧ (g.isKey = true ↔ e.MakesKey r ns name) := by
  have mem : f ∈ e.fields := List.mem_reverse.1 (List.mem_of_find?_eq_some last)
  have named : f.name = name := by simpa using List.find?_some last
  obtain ⟨g, declares⟩ := Option.isSome_iff_exists.1 (resolves.fields f mem)
  have own : (e.shapeIn r ns id).fields.find? name = some g := by
    rw [find?_fields_shapeIn resolves, last]
    exact declares
  have keys : name ∈ (r.gathered id e.instantiable (e.shapeIn r ns id)).keyFields.names ↔
      e.MakesKey r ns name := by
    rw [FieldTable.mem_names_iff, find?_keyFields_gathered, Option.isSome_or, Bool.or_eq_true,
      ← FieldTable.mem_names_iff, mem_keyNames_shapeIn resolves, Option.isSome_map,
      List.findSome?_isSome_iff, or_comm, TypeEntry.MakesKey, TypeEntry.donors]
    refine or_congr_right ?_
    simp only [List.mem_reverse, Option.isSome_filter, Option.any_eq_true]
    rfl
  have name_g : g.name = name ∧ g.isKey = f.key := by
    obtain ⟨_, _, -, -, rfl⟩ := FieldEntry.exists_of_declared? declares
    exact ⟨named, rfl⟩
  refine ⟨_, by rw [find?_flatten, own]; rfl, ?_, f.realizedBy_settle declares _, ?_⟩
  · rw [TypeShape.name_settle, name_g.1]
  · rw [TypeShape.isKey_settle, name_g.1, keys, name_g.2]
    exact or_iff_left_of_imp fun key => .inl ⟨f, mem, named, key⟩

namespace Manifest

variable {m : Manifest} {c : Config} {model final : Model} {ids : List TypeId}

/-- A build that succeeds realises the manifest: its types come next, are found under their names
along with what was found before, and are what their entries describe. -/
theorem build_realizes (run : m.build c model = .ok ids final) :
    ids = model.repository.nextIds m.types.length ∧
    (∀ ns name id, model.repository.lookup ns name = some id →
      final.repository.lookup ns name = some id) ∧
    ∀ e id, (e, id) ∈ m.types.zip ids →
      final.repository.lookup (m.namespaceOf c.schema e) e.name = some id ∧
      ∃ t, final.repository.complex? id = some t ∧
        e.RealizedBy final.repository (m.namespaceOf c.schema e) c.defaultLocale id t := by
  obtain ⟨declared, order, D, freezes⟩ := isDeclaredBy_of_build run
  have same := freezes.evolves.1.sameHeaders
  refine ⟨D.consecutive, fun ns name id old => ?_, fun e id mem => ⟨?_, ?_⟩⟩
  · rw [lookup, same.names]
    exact (D.names _ _).2 (.inl old)
  · rw [lookup, same.names]
    exact (D.names _ _).2 (.inr ⟨e, mem, rfl⟩)
  · obtain ⟨-, moment, found⟩ := D.flattened freezes mem
    have resolves := (TypeEntry.resolves_congr same).2 (D.resolves e id mem)
    rw [← TypeEntry.shapeIn_congr same] at found
    exact ⟨_, found, rfl, rfl, rfl, rfl, rfl, e.get?_allLabels c.defaultLocale,
      fun name f last => e.realizedBy_of_flatten resolves last⟩

/-- A party with a key, and a person that declares a field of its name anew. -/
theorem build_realizes_parties : ∃ ids final,
    parties.build {} { repository := .initial "" } = .ok ids final ∧
      ∀ e id, (e, id) ∈ parties.types.zip ids → ∃ t, final.repository.complex? id = some t ∧
        e.RealizedBy final.repository (parties.namespaceOf {} e) "en" id t := by
  have succeeds : (parties.build {}).succeeds { repository := .initial "" } = true := by
    rw [Repository.initial_eq]
    cbv
  obtain ⟨ids, final, run⟩ := exists_of_succeeds succeeds
  obtain ⟨-, -, realized⟩ := build_realizes run
  exact ⟨ids, final, run, fun e id mem => (realized e id mem).2⟩

end Manifest

end EntityModel
