/-
What the entries of a manifest declare.

A type that is filled gets members: super types, and fields whose types are told that they
are embedded.  Which members an entry declares depends on where its names lead, and that does
not change while types are filled (`Repository.SameHeaders`).

* `FieldEntry.declared?` — the field that an entry declares, if its names lead somewhere;
* `Repository.Amends` — members added to one type, which is all that `fillEntry` does;
* `Manifest.fillEntry_adds` — it fails exactly if some name leads nowhere, or a field has none.
-/
import EntityModel.Proofs.BuiltModels
import EntityModel.Proofs.CopySteps
import EntityModel.Proofs.Immutability

namespace EntityModel

open Edit

/-! ### Where names lead -/

namespace Repository

/-- What a type name means in a namespace: a type of the namespace, or else a built-in one. -/
def named? (r : Repository) (ns name : String) : Option TypeId :=
  (r.lookup ns name).or (r.lookup r.builtinNamespace name)

theorem typeNamed_eq_ok {r : Repository} {ns owner name : String} {id : TypeId} :
    r.typeNamed ns owner name = .ok id ↔ r.named? ns name = some id := by
  rw [typeNamed, named?]
  split
  · next found => rw [found, Except.ok.injEq, Option.some.injEq]
  · next absent => simp [absent]

theorem typeNamed_eq_error {r : Repository} {ns owner name : String} {e : ModelError}
    (h : r.typeNamed ns owner name = .error e) : r.named? ns name = none := by
  rw [typeNamed] at h
  rw [named?]
  split at h
  · cases h
  · assumption

/-- Names lead to the same types, and the same types are complex. -/
structure SameHeaders (r r' : Repository) : Prop where
  names : r'.names = r.names
  builtinNamespace : r'.builtinNamespace = r.builtinNamespace
  complex : ∀ u, (r'.complex? u).isSome = (r.complex? u).isSome

namespace SameHeaders

variable {r r' : Repository}

theorem named? (h : r.SameHeaders r') (ns name : String) : r'.named? ns name = r.named? ns name := by
  rw [Repository.named?, Repository.named?, lookup, lookup, lookup, lookup, h.names,
    h.builtinNamespace]

end SameHeaders

/-- A freeze changes no headers. -/
theorem Evolves.sameHeaders {r r' : Repository} {order : List TypeId} (E : r.Evolves order r') :
    r.SameHeaders r' where
  names := E.names
  builtinNamespace := E.builtinNamespace
  complex u := by
    have related := E.types u
    rw [complex?, complex?]
    generalize r.get? u = before at related ⊢
    generalize r'.get? u = after at related ⊢
    cases related with
    | none => rfl
    | some h => cases h <;> rfl

end Repository

open Repository

/-! ### Declared fields -/

namespace FieldEntry

variable (e : FieldEntry) (r : Repository) (ns owner : String) (id : TypeId)

/-- What the declared field holds, if its reference leads somewhere. -/
def kind? (valueType : TypeId) : Option FieldKind :=
  match e.reference with
  | none => some (if (r.complex? valueType).isSome then .contained
      else if e.enumeration then .enumeration else .simple)
  | some reference => (r.named? ns reference.type).map fun target => .reference
      { target
        targetField := reference.field
        integrity := reference.integrity
        integrityOverride := reference.integrityOverride }

/-- The field that the entry declares on the type `id`, if it has a name and its names of
types lead somewhere. -/
def declared? : Option Field :=
  if e.name = "" then none
  else (r.named? ns e.type).bind fun valueType => (e.kind? r ns valueType).map fun kind =>
    { name := e.name
      valueType
      containingType := id
      declaringType := id
      kind
      isKey := e.key
      isMany := e.many
      isMandatory := e.mandatory
      labels := e.labels }

variable {e r ns owner id}

theorem isSome_declared? : (e.declared? r ns id).isSome ↔ e.name ≠ "" ∧
    (r.named? ns e.type).isSome ∧
      ∀ reference ∈ e.reference, (r.named? ns reference.type).isSome := by
  rw [declared?]
  by_cases named : e.name = ""
  · simp [named]
  · rw [if_neg named]
    cases r.named? ns e.type with
    | none => simp
    | some valueType =>
      simp only [Option.bind_some, Option.isSome_map, kind?]
      cases e.reference <;> simp [named]

theorem declared?_congr {r' : Repository} (h : r.SameHeaders r') :
    e.declared? r' ns id = e.declared? r ns id := by
  simp only [declared?, kind?, h.named?, h.complex]

theorem exists_of_declared? {f : Field} (h : e.declared? r ns id = some f) :
    ∃ valueType kind, r.named? ns e.type = some valueType ∧ e.kind? r ns valueType = some kind ∧
      f = { name := e.name
            valueType
            containingType := id
            declaringType := id
            kind
            isKey := e.key
            isMany := e.many
            isMandatory := e.mandatory
            labels := e.labels } := by
  rw [declared?] at h
  split at h
  · cases h
  · obtain ⟨valueType, found, h⟩ := Option.bind_eq_some_iff.1 h
    obtain ⟨kind, holds, rfl⟩ := Option.map_eq_some_iff.1 h
    exact ⟨valueType, kind, found, holds, rfl⟩

theorem declared?_of_namedTypes_error {err : ModelError}
    (h : e.namedTypes ns owner r = .error err) : e.declared? r ns id = none := by
  rw [← Option.not_isSome_iff_eq_none, isSome_declared?]
  rintro ⟨-, known, target⟩
  obtain ⟨valueType, found⟩ := Option.isSome_iff_exists.1 known
  rw [namedTypes, typeNamed_eq_ok.2 found] at h
  cases ref : e.reference with
  | none =>
    rw [ref] at h
    cases h
  | some reference =>
    obtain ⟨target, found'⟩ := Option.isSome_iff_exists.1 (target reference ref)
    rw [ref] at h
    change (r.typeNamed ns owner reference.type >>= fun t => pure (valueType, some t)) = _ at h
    rw [typeNamed_eq_ok.2 found'] at h
    cases h

/-- What the field of an entry holds, if its names lead somewhere.  It embeds its type if that
is complex and the field is no reference. -/
theorem kind?_of_namedTypes {valueType : TypeId} {target : Option TypeId}
    (h : e.namedTypes ns owner r = .ok (valueType, target)) : ∃ kind,
    e.kind? r ns valueType = some kind ∧
      (e.annotations valueType target).fieldKind e.name (r.complex? valueType).isSome = .ok kind ∧
      (kind = .contained ↔ ((r.complex? valueType).isSome && e.reference.isNone) = true) := by
  obtain ⟨_, -, h⟩ := except_bind_eq_ok.1 h
  rw [kind?, annotations]
  cases ref : e.reference with
  | none =>
    refine ⟨_, rfl, rfl, ?_⟩
    cases (r.complex? valueType).isSome <;> cases e.enumeration <;> simp
  | some reference =>
    rw [ref] at h
    obtain ⟨target', found, h⟩ := except_bind_eq_ok.1 h
    cases h
    refine ⟨_, congrArg (Option.map _) (typeNamed_eq_ok.1 found), rfl, by simp⟩

/-- The field that is built for an entry. -/
theorem field_of_fieldKind {valueType : TypeId} {target : Option TypeId} {contained : Bool}
    {kind : FieldKind}
    (h : (e.annotations valueType target).fieldKind e.name contained = .ok kind) :
    (e.annotations valueType target).field id e.name contained =
      .ok { Field.declare id e.name valueType kind with labels := e.labels } := by
  have typed : (e.annotations valueType target).fieldType = some valueType := by
    rw [annotations]
    cases e.reference <;> rfl
  have labels : (e.annotations valueType target).labels = e.labels := by
    rw [annotations]
    cases e.reference <;> rfl
  rw [Annotations.field, typed, h, labels]
  rfl

end FieldEntry

/-- The field embeds values of the type. -/
def Field.embeds (f : Field) (id : TypeId) : Bool := f.kind = .contained ∧ f.valueType = id

/-! ### Members -/

/-- Something that an entry declares on its type. -/
inductive Member where
  | superType (id : TypeId)
  | field (f : Field)

/-- The member is a field that embeds values of the type. -/
def Member.embeds : Member → TypeId → Bool
  | .superType _, _ => false
  | .field f, id => f.embeds id

/-- The shape with one more member. -/
def TypeShape.withMember (s : TypeShape) : Member → TypeShape
  | .superType id => s.withSuperType id
  | .field f => s.withField f

/-- The shape, as long as it can be changed, with more members. -/
def Lifecycle.extend (l : List Member) : Lifecycle → Lifecycle
  | .building s => .building (l.foldl .withMember s)
  | lifecycle => lifecycle

/-- What becomes of the type at `u` when the type at `id` gets more members. -/
def ComplexType.amend (t : ComplexType) (id : TypeId) (l : List Member) (u : TypeId) : ComplexType :=
  { t with
    lifecycle := if u = id then t.lifecycle.extend l else t.lifecycle
    usages := if l.any (·.embeds u) then appendNew t.usages id else t.usages }

/-- What the entry declares on the type `id`. -/
def TypeEntry.members (e : TypeEntry) (r : Repository) (ns : String) (id : TypeId) : List Member :=
  (e.superTypes.filterMap (r.named? ns)).map .superType ++
    (e.fields.filterMap (·.declared? r ns id)).map .field

/-- The names of the entry lead somewhere, and its fields have names. -/
structure TypeEntry.Resolves (e : TypeEntry) (r : Repository) (ns : String) (id : TypeId) : Prop where
  superTypes : ∀ name ∈ e.superTypes, (r.named? ns name).isSome
  fields : ∀ f ∈ e.fields, (f.declared? r ns id).isSome

section Congr

variable {e : TypeEntry} {r r' : Repository} {ns : String} {id : TypeId} (h : r.SameHeaders r')

include h

theorem TypeEntry.members_congr : e.members r' ns id = e.members r ns id := by
  simp only [members, h.named?, FieldEntry.declared?_congr h]

theorem TypeEntry.resolves_congr : e.Resolves r' ns id ↔ e.Resolves r ns id := by
  constructor
  · rintro ⟨superTypes, fields⟩
    simp only [h.named?, FieldEntry.declared?_congr h] at superTypes fields
    exact ⟨superTypes, fields⟩
  · rintro ⟨superTypes, fields⟩
    refine ⟨?_, ?_⟩ <;> simpa only [h.named?, FieldEntry.declared?_congr h]

end Congr

theorem TypeShape.foldl_withMember_eq (s : TypeShape) (superTypes : List TypeId)
    (fields : List Field) :
    (superTypes.map Member.superType ++ fields.map Member.field).foldl withMember s =
      { s with
        fields := s.fields.addAll fields
        keyFields := s.keyFields.addAll (fields.filter (·.isKey))
        superTypes := superTypes.foldl appendNew s.superTypes } := by
  rw [List.foldl_append, List.foldl_map, List.foldl_map]
  show fields.foldl withField (superTypes.foldl withSuperType s) = _
  rw [foldl_withSuperType_eq, foldl_withField_eq]

namespace Repository

variable {r r₁ r' : Repository} {id u : TypeId} {l l' : List Member}

/-- The type at `id` is complex and can be changed. -/
def IsBuilding (r : Repository) (id : TypeId) : Prop :=
  ∃ t s, r.get? id = some (.complex t) ∧ t.lifecycle = .building s

/-- The members are added to the type at `id`, and the types that they embed are told. -/
structure Amends (r : Repository) (id : TypeId) (l : List Member) (r' : Repository) : Prop where
  types : ∀ u, r'.get? u = (r.get? u).map (·.mapComplex (·.amend id l u))
  names : r'.names = r.names
  builtinNamespace : r'.builtinNamespace = r.builtinNamespace

theorem amend_nil (t : ComplexType) : t.amend id [] u = t := by
  obtain ⟨_, lifecycle⟩ := t
  cases lifecycle <;> simp [ComplexType.amend, Lifecycle.extend]

theorem amend_amend (t : ComplexType) :
    (t.amend id l u).amend id l' u = t.amend id (l ++ l') u := by
  obtain ⟨_, lifecycle⟩ := t
  simp only [ComplexType.amend, List.any_append]
  congr 1
  · cases lifecycle <;> by_cases here : u = id <;> simp [here, Lifecycle.extend]
  · cases l.any (·.embeds u) <;> cases l'.any (·.embeds u) <;> simp [appendNew_appendNew]

namespace Amends

theorem refl (r : Repository) (id : TypeId) : r.Amends id [] r where
  types u := by
    simp only [amend_nil, TypeNode.mapComplex_id]
    exact Option.map_id_apply.symm
  names := rfl
  builtinNamespace := rfl

theorem trans (first : r.Amends id l r₁) (second : r₁.Amends id l' r') :
    r.Amends id (l ++ l') r' where
  types u := by
    rw [second.types, first.types, Option.map_map]
    congr 1
    funext n
    rw [Function.comp_apply, TypeNode.mapComplex_mapComplex]
    simp only [amend_amend]
  names := second.names.trans first.names
  builtinNamespace := second.builtinNamespace.trans first.builtinNamespace

theorem sameHeaders (h : r.Amends id l r') : r.SameHeaders r' where
  names := h.names
  builtinNamespace := h.builtinNamespace
  complex u := by rw [complex?_eq_map (h.types u), Option.isSome_map]

theorem isBuilding (h : r.Amends id l r') (building : r.IsBuilding u) : r'.IsBuilding u := by
  obtain ⟨t, s, found, building⟩ := building
  refine ⟨t.amend id l u, if u = id then l.foldl .withMember s else s, ?_, ?_⟩
  · rw [h.types, found]
    rfl
  · rw [ComplexType.amend, building]
    split <;> rfl

end Amends

theorem set_eq_adjust {t : ComplexType} (f : ComplexType → ComplexType)
    (found : r.complex? id = some t) : r.set id (.complex (f t)) = r.adjust id f := by
  rw [adjust, found]

/-- One more super type. -/
theorem amends_superType {t : ComplexType} {s : TypeShape} (superType : TypeId)
    (found : r.complex? id = some t) (building : t.lifecycle = .building s) :
    r.Amends id [.superType superType]
      (r.set id (.complex (t.withDeclared (s.withSuperType superType)))) := by
  have same : t.withDeclared (s.withSuperType superType) = t.amend id [.superType superType] id := by
    rw [ComplexType.amend, if_pos rfl, building]
    rfl
  rw [same, set_eq_adjust (·.amend id [.superType superType] id) found]
  refine ⟨fun u => ?_, names_adjust _, builtinNamespace_adjust _⟩
  rw [get?_adjust]
  congr 2
  funext t
  by_cases here : u = id
  · simp [here]
  · simp [here, ComplexType.amend, Member.embeds]

/-- One more field, and the type that it embeds is told. -/
theorem amends_field {t : ComplexType} {s : TypeShape} (f : Field)
    (found : r.complex? id = some t) (building : t.lifecycle = .building s) :
    r.Amends id [.field f] (if f.kind = .contained
      then (r.set id (.complex (t.withDeclared (s.withField f)))).adjust f.valueType
        (·.declareUsage id)
      else r.set id (.complex (t.withDeclared (s.withField f)))) := by
  let extended : ComplexType → ComplexType :=
    fun t => { t with lifecycle := t.lifecycle.extend [.field f] }
  have same : t.withDeclared (s.withField f) = extended t := by
    show _ = { t with lifecycle := t.lifecycle.extend [.field f] }
    rw [building]
    rfl
  rw [same, set_eq_adjust extended found]
  split
  · next contained =>
    refine ⟨fun u => ?_, by simp, by simp⟩
    rw [get?_adjust, get?_adjust, Option.map_map]
    congr 1
    funext n
    rw [Function.comp_apply, TypeNode.mapComplex_mapComplex]
    congr 1
    funext t
    have told : [Member.field f].any (·.embeds u) = decide (u = f.valueType) := by
      simp [Member.embeds, Field.embeds, contained, eq_comm]
    simp only [ComplexType.amend, told, decide_eq_true_eq]
    split_ifs <;> rfl
  · next other =>
    refine ⟨fun u => ?_, names_adjust _, builtinNamespace_adjust _⟩
    rw [get?_adjust]
    congr 2
    funext t
    by_cases here : u = id <;>
      simp [here, ComplexType.amend, Member.embeds, Field.embeds, other, extended]

end Repository

/-! ### Running declarations -/

namespace Edit

variable {id : TypeId} {m : Model}

/-- The operation, carried out on `m`, adds members to the type `id` if that is `possible`, and
fails otherwise. -/
def Adds (e : Edit Unit) (m : Model) (id : TypeId) (possible : Prop) (l : List Member) : Prop :=
  e.Yields m fun out m' =>
    (out = .ok () ↔ possible) ∧ (out = .ok () → m.repository.Amends id l m'.repository)

theorem adds_bind {e e' : Edit Unit} {possible possible' : Prop} {l l' : List Member}
    (first : e.Adds m id possible l)
    (second : ∀ m₁, m.repository.Amends id l m₁.repository → e'.Adds m₁ id possible' l') :
    (e >>= fun _ => e').Adds m id (possible ∧ possible') (l ++ l') := by
  rw [Adds, yields_bind]
  refine first.mono fun out m₁ => ?_
  rintro ⟨ends, amends⟩
  cases out with
  | error err => exact ⟨⟨nofun, fun both => absurd (ends.2 both.1) (by simp)⟩, nofun⟩
  | ok _ =>
    have amends := amends rfl
    refine (second m₁ amends).mono fun out' m₂ => ?_
    rintro ⟨ends', amends'⟩
    refine ⟨ends'.trans ⟨fun holds => ⟨ends.1 rfl, holds⟩, And.right⟩, fun done => ?_⟩
    exact amends.trans (amends' done)

/-- Members declared one after the other, where what each of them is depends on headers only. -/
theorem adds_forM {β γ : Type} {f : β → Edit Unit} (find : Repository → β → Option γ)
    (member : γ → Member)
    (stable : ∀ {r r' : Repository}, r.SameHeaders r' → find r' = find r)
    (step : ∀ x m, m.repository.IsBuilding id →
      (f x).Adds m id (find m.repository x).isSome ((find m.repository x).toList.map member))
    (l : List β) (building : m.repository.IsBuilding id) :
    (l.forM f).Adds m id (∀ x ∈ l, (find m.repository x).isSome)
      ((l.filterMap (find m.repository)).map member) := by
  induction l generalizing m with
  | nil => exact ⟨⟨nofun, fun _ => rfl⟩, fun _ => .refl _ id⟩
  | cons x rest ih =>
    have both := adds_bind (step x m building) fun m₁ amends => by
      have others := ih (amends.isBuilding building)
      rw [stable amends.sameHeaders] at others
      exact others
    rw [List.forall_mem_cons, List.filterMap_cons]
    cases found : find m.repository x with
    | none => rwa [found] at both
    | some member => rwa [found] at both

end Edit

namespace Manifest

variable {m : Manifest} {c : Config} {e : TypeEntry} {ns owner : String} {id : TypeId} {model : Model}

/-- A super type is declared if its name leads somewhere. -/
theorem adds_superType (ns owner name : String) (building : model.repository.IsBuilding id) :
    (Edit.ask (·.typeNamed ns owner name) >>= fun superType =>
      Edit.modify id (·.addSuperType superType)).Adds model id
        (model.repository.named? ns name).isSome
        ((model.repository.named? ns name).toList.map .superType) := by
  rw [Adds, yields_bind, yields_ask]
  cases known : model.repository.typeNamed ns owner name with
  | error err => simp [typeNamed_eq_error known]
  | ok superType =>
    obtain ⟨t, s, found, building⟩ := building
    have found := complex?_eq_some.2 found
    rw [typeNamed_eq_ok.1 known]
    dsimp only
    rw [Yields, modify_run found (ComplexType.addSuperType_of_building building superType)]
    exact ⟨⟨fun _ => rfl, fun _ => rfl⟩, fun _ => amends_superType superType found building⟩

/-- A field with a name is added, and the type that it embeds is told. -/
theorem adds_built (f : Field) {embeds : Bool} (contained : f.kind = .contained ↔ embeds = true)
    (complex : embeds = true → (model.repository.complex? f.valueType).isSome)
    (building : model.repository.IsBuilding id) :
    (Edit.modify id (·.addField f) >>= fun _ =>
      if embeds = true then Edit.modify f.valueType fun t => .ok (t.declareUsage id)
      else pure ()).Adds model id (f.name ≠ "") [.field f] := by
  obtain ⟨t, s, found, building⟩ := building
  have found := complex?_eq_some.2 found
  by_cases named : f.name = ""
  · -- the type refuses a field without a name
    have refused := (ComplexType.addField_of_building building f).trans (if_pos named)
    have failed : Edit.modify id (·.addField f) model =
        .error (.illegalArgument .unnamedField) model :=
      attempt_eq_error (modify_eq_error found refused)
    rw [Adds, Yields, bind_eq_of_error failed]
    constructor
    · constructor
      · intro done
        cases done
      · intro nonempty
        exact absurd named nonempty
    · intro done
      cases done
  · have added := (ComplexType.addField_of_building building f).trans (if_neg named)
    have amends := amends_field f found building
    rw [Adds, yields_bind_of_ok (modify_run found added)]
    cases embeds with
    | false =>
      rw [if_neg (by simpa using contained)] at amends
      exact ⟨⟨fun _ => named, fun _ => rfl⟩, fun _ => amends⟩
    | true =>
      rw [if_pos (contained.2 rfl)] at amends
      have there : ((model.repository.set id (.complex (t.withDeclared (s.withField f)))).complex?
          f.valueType).isSome := by
        rw [complex?, get?_set]
        split
        · next same =>
          rw [same, complex?_eq_some.1 found]
          rfl
        · exact complex rfl
      obtain ⟨t', found'⟩ := Option.isSome_iff_exists.1 there
      have told : Edit.modify f.valueType (fun t => .ok (t.declareUsage id)) { model with
          repository := model.repository.set id (.complex (t.withDeclared (s.withField f))) } =
            .ok () _ := modify_run found' rfl
      rw [adjust, found'] at amends
      rw [if_pos rfl, Yields, told]
      exact ⟨⟨fun _ => named, fun _ => rfl⟩, fun _ => amends⟩

/-- A field is declared if it has a name and its names of types lead somewhere. -/
theorem adds_field (ns owner : String) (e : FieldEntry)
    (building : model.repository.IsBuilding id) :
    (declareField ns owner id e).Adds model id
      (e.declared? model.repository ns id).isSome
      ((e.declared? model.repository ns id).toList.map .field) := by
  rw [Adds, declareField, yields_bind, yields_ask]
  cases named : e.namedTypes ns owner model.repository with
  | error err => simp [FieldEntry.declared?_of_namedTypes_error named]
  | ok types =>
    obtain ⟨valueType, target⟩ := types
    obtain ⟨kind, holds, built, contained⟩ := FieldEntry.kind?_of_namedTypes named
    have known := typeNamed_eq_ok.1 (FieldEntry.typeNamed_of_namedTypes named)
    dsimp only
    rw [yields_bind, yields_get]
    dsimp only
    rw [yields_bind, yields_ask, FieldEntry.field_of_fieldKind built, FieldEntry.declared?, known,
      Option.bind_some, holds, Option.map_some]
    refine (adds_built _ contained (fun embeds => ?_) building).mono fun out m₁ => ?_
    · exact (Bool.and_eq_true _ _ ▸ embeds).1
    · rintro ⟨ends, amends⟩
      change out = .ok () ↔ e.name ≠ "" at ends
      by_cases nameless : e.name = ""
      · rw [if_pos nameless]
        exact ⟨by simpa [nameless] using ends, fun done => absurd nameless (ends.1 done)⟩
      · rw [if_neg nameless]
        exact ⟨by simpa [nameless] using ends, amends⟩

/-- The type of an entry is filled if the names of the entry lead somewhere and its fields have
names. -/
theorem fillEntry_adds (m : Manifest) (c : Config) (e : TypeEntry)
    (building : model.repository.IsBuilding id) :
    (m.fillEntry c e id).Adds model id
      (e.Resolves model.repository (m.namespaceOf c.schema e) id)
      (e.members model.repository (m.namespaceOf c.schema e) id) := by
  set ns := m.namespaceOf c.schema e
  have supers := adds_forM (fun r => r.named? ns) .superType (fun same => funext (same.named? ns))
    (fun name _ => adds_superType ns e.name name) e.superTypes building
  have both := adds_bind supers fun m₁ amends => by
    have same := amends.sameHeaders
    have fields := adds_forM (fun r f => f.declared? r ns id) .field
      (fun same => funext fun f => FieldEntry.declared?_congr same)
      (fun f _ => adds_field ns e.name f) e.fields (amends.isBuilding building)
    simp only [FieldEntry.declared?_congr same] at fields
    exact fields
  show (m.fillEntry c e id).Yields model _
  refine Yields.mono both fun out m₁ => ?_
  rintro ⟨ends, amends⟩
  exact ⟨ends.trans ⟨fun h => ⟨h.1, h.2⟩, fun h => ⟨h.superTypes, h.fields⟩⟩, amends⟩

end Manifest

end EntityModel
