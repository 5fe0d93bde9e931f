/-
The types of a manifest in a repository.

All types are registered before any of them is filled, so a type may name one
that comes later.  Then super types and fields are declared, entry by entry, and
last the types are frozen, in order.
-/
import EntityModel.Annotations
import EntityModel.Config
import EntityModel.Freeze

namespace EntityModel

/-- A type name used by `owner`: a type of the namespace, or else a built-in one. -/
def Repository.typeNamed (r : Repository) (ns owner name : String) : Except ModelError TypeId :=
  match (r.lookup ns name).or (r.lookup r.builtinNamespace name) with
  | some id => .ok id
  | none => .error (.unknownReference owner name)

/-! ### The parts of a manifest -/

namespace TypeEntry

/-- The display labels of the type; the label without a locale is for `defaultLocale`,
unless there is another one for it. -/
def allLabels (e : TypeEntry) (defaultLocale : Locale) : Table String :=
  match e.label with
  | some label => ((∅ : Table String).insert defaultLocale label).insertAll e.labels
  | none => e.labels

/-- What the entry says about the type itself. -/
def annotations (e : TypeEntry) (defaultLocale : Locale) : Annotations :=
  { directives :=
      { allowWrite := e.allowWrite
        denyCreate := e.denyCreate
        hide := e.hide
        denyPhysicalDelete := e.denyPhysicalDelete
        denyLogicalDelete := e.denyLogicalDelete
        workflowRights := e.workflowRights }
    schematron := e.schematron
    primaryKeyInfo := e.primaryKeyInfo.map .path
    lookupFields := e.lookupFields.map .path
    labels := e.allLabels defaultLocale }

end TypeEntry

namespace FieldEntry

/-- What the entry says about the field, given its type and the type it refers to. -/
def annotations (e : FieldEntry) (fieldType : TypeId) (referencedType : Option TypeId) :
    Annotations :=
  let plain : Annotations :=
    { fieldType := some fieldType, isEnumeration := e.enumeration, labels := e.labels }
  match e.reference with
  | none => plain
  | some reference =>
    { plain with
      isReference := true
      referencedType
      referencedField := reference.field
      integrity := reference.integrity
      integrityOverride := reference.integrityOverride }

/-- The types that the entry names: that of the field, and the one it refers to. -/
def namedTypes (e : FieldEntry) (ns owner : String) (r : Repository) :
    Except ModelError (TypeId × Option TypeId) := do
  let fieldType ← r.typeNamed ns owner e.type
  match e.reference with
  | none => return (fieldType, none)
  | some reference => return (fieldType, some (← r.typeNamed ns owner reference.type))

end FieldEntry

namespace Manifest

/-- The namespace of the types that do not name one. -/
def defaultNamespace (m : Manifest) (c : SchemaConfig) : String := m.ns.getD c.defaultNamespace

/-- The namespace of a type. -/
def namespaceOf (m : Manifest) (c : SchemaConfig) (e : TypeEntry) : String :=
  e.ns.getD (m.defaultNamespace c)

/-! ### Building -/

/-- The type of an entry is registered, still without fields. -/
def registerEntry (m : Manifest) (c : Config) (e : TypeEntry) : Edit TypeId :=
  let name : QualifiedName := ⟨m.namespaceOf c.schema e, e.name⟩
  Edit.register (.complex ((e.annotations c.defaultLocale).type name e.instantiable))

/-- A field of an entry `owner` is declared on the type `id`.  The type of the field
is told that it is embedded there, unless the field only refers to something. -/
def declareField (ns owner : String) (id : TypeId) (e : FieldEntry) : Edit Unit := do
  let (fieldType, referencedType) ← Edit.ask (e.namedTypes ns owner)
  let contained := ((← get).repository.complex? fieldType).isSome
  let field ← Edit.ask fun _ =>
    (e.annotations fieldType referencedType).field id e.name contained
  Edit.modify id (·.addField
    { field with isKey := e.key, isMany := e.many, isMandatory := e.mandatory })
  if contained && e.reference.isNone then
    Edit.modify fieldType fun t => .ok (t.declareUsage id)

/-- The super types and the fields of an entry are declared on its type. -/
def fillEntry (m : Manifest) (c : Config) (e : TypeEntry) (id : TypeId) : Edit Unit := do
  let ns := m.namespaceOf c.schema e
  e.superTypes.forM fun name => do
    let superType ← Edit.ask (·.typeNamed ns e.name name)
    Edit.modify id (·.addSuperType superType)
  e.fields.forM (declareField ns e.name id)

/-- The types of the manifest are registered, filled and frozen.  Their handles are
returned in the order of the entries. -/
def build (m : Manifest) (c : Config) : Edit (List TypeId) := do
  let ids ← m.types.mapM (m.registerEntry c)
  (m.types.zip ids).forM fun (e, id) => m.fillEntry c e id
  ids.forM Edit.freeze
  Edit.report [.built ids.length (m.defaultNamespace c.schema)]
  return ids

end Manifest

end EntityModel
