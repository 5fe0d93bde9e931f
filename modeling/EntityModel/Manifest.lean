/-
Model manifests.

A manifest lists complex types with their fields, super types and access
directives.  It is written as a JSON object that leaves out what is absent, and
read from any document, where almost everything may be left out.
-/
import EntityModel.Document

namespace EntityModel

/-- What a reference field of a manifest refers to. -/
structure ReferenceEntry where
  /-- The name of the referenced entity type. -/
  type : String
  /-- The key field of that type. -/
  field : Option String := none
  integrity : Bool := true
  integrityOverride : Bool := false
  deriving DecidableEq

/-- A field of a manifest. -/
structure FieldEntry where
  name : String
  /-- The name of the type of the field: one of the manifest, or a built-in one. -/
  type : String
  key : Bool := false
  many : Bool := false
  mandatory : Bool := false
  /-- The values of the field are restricted to a fixed set. -/
  enumeration : Bool := false
  reference : Option ReferenceEntry := none
  /-- Display labels by locale. -/
  labels : Table String := ∅
  deriving DecidableEq

/-- A complex type of a manifest. -/
structure TypeEntry where
  name : String
  /-- The namespace of the type, if it is not that of the manifest. -/
  ns : Option String := none
  instantiable : Bool := true
  superTypes : List String := []
  fields : List FieldEntry := []
  allowWrite : List String := []
  denyCreate : List String := []
  hide : List String := []
  denyLogicalDelete : List String := []
  denyPhysicalDelete : List String := []
  workflowRights : List String := []
  schematron : String := ""
  /-- Paths to the fields shown as primary key. -/
  primaryKeyInfo : List String := []
  /-- Paths to the fields used for lookups. -/
  lookupFields : List String := []
  /-- The display label in the default locale. -/
  label : Option String := none
  /-- Display labels by locale. -/
  labels : Table String := ∅
  deriving DecidableEq

/-- A model manifest. -/
structure Manifest where
  /-- The namespace of the types that do not name one. -/
  ns : Option String := none
  /-- The types in the order of their registration. -/
  types : List TypeEntry := []
  deriving DecidableEq

/-! ### Writing -/

namespace Json

/-- An object of the members that are present. -/
def ofMembers (members : List (String × Option Json)) : Json :=
  .object (members.filterMap fun m => m.2.map fun value => (m.1, value))

/-- An array of texts. -/
def ofTexts (texts : List String) : Json := .array (texts.map .string)

/-- An object of texts. -/
def ofTable (table : Table String) : Json :=
  .object (table.entries.map fun e => (e.1, .string e.2))

/-- A table that is left out if it is empty. -/
def ofTable? (table : Table String) : Option Json :=
  if table.isEmpty then none else some (ofTable table)

end Json

/-- A reference as JSON. -/
def ReferenceEntry.toJson (e : ReferenceEntry) : Json := .ofMembers
  [("type", some (.string e.type)),
   ("field", e.field.map .string),
   ("fk_integrity", some (.bool e.integrity)),
   ("fk_integrity_override", some (.bool e.integrityOverride))]

/-- A field as JSON. -/
def FieldEntry.toJson (e : FieldEntry) : Json := .ofMembers
  [("name", some (.string e.name)),
   ("type", some (.string e.type)),
   ("key", some (.bool e.key)),
   ("many", some (.bool e.many)),
   ("mandatory", some (.bool e.mandatory)),
   ("enumeration", some (.bool e.enumeration)),
   ("reference", e.reference.map (·.toJson)),
   ("labels", Json.ofTable? e.labels)]

/-- A type as JSON. -/
def TypeEntry.toJson (e : TypeEntry) : Json := .ofMembers
  [("name", some (.string e.name)),
   ("namespace", e.ns.map .string),
   ("instantiable", some (.bool e.instantiable)),
   ("super_types", some (.ofTexts e.superTypes)),
   ("fields", some (.array (e.fields.map (·.toJson)))),
   ("allow_write", some (.ofTexts e.allowWrite)),
   ("deny_create", some (.ofTexts e.denyCreate)),
   ("hide", some (.ofTexts e.hide)),
   ("deny_logical_delete", some (.ofTexts e.denyLogicalDelete)),
   ("deny_physical_delete", some (.ofTexts e.denyPhysicalDelete)),
   ("workflow_access_rights", some (.ofTexts e.workflowRights)),
   ("schematron", some (.string e.schematron)),
   ("primary_key_info", some (.ofTexts e.primaryKeyInfo)),
   ("lookup_fields", some (.ofTexts e.lookupFields)),
   ("label", e.label.map .string),
   ("labels", Json.ofTable? e.labels)]

/-- A manifest as JSON. -/
def Manifest.toJson (m : Manifest) : Json := .ofMembers
  [("namespace", m.ns.map .string),
   ("types", some (.array (m.types.map (·.toJson))))]

/-! ### Reading -/

open Decode in
/-- A reference read from a node. -/
def ReferenceEntry.decode (node : Node) : Decode ReferenceEntry := do
  let m ← record ["type", "field", "fk_integrity", "fk_integrity_override"] node
  return {
    type := ← required m "type" text
    field := ← withDefault m "field" (optional text) none
    integrity := ← withDefault m "fk_integrity" bool true
    integrityOverride := ← withDefault m "fk_integrity_override" bool false }

open Decode in
/-- A field read from a node. -/
def FieldEntry.decode (node : Node) : Decode FieldEntry := do
  let m ← record ["name", "type", "key", "many", "mandatory", "enumeration", "reference",
    "labels"] node
  return {
    name := ← required m "name" text
    type := ← required m "type" text
    key := ← withDefault m "key" bool false
    many := ← withDefault m "many" bool false
    mandatory := ← withDefault m "mandatory" bool false
    enumeration := ← withDefault m "enumeration" bool false
    reference := ← withDefault m "reference" (optional ReferenceEntry.decode) none
    labels := ← withDefault m "labels" (table text) ∅ }

open Decode in
/-- A type read from a node. -/
def TypeEntry.decode (node : Node) : Decode TypeEntry := do
  let m ← record ["name", "namespace", "instantiable", "super_types", "fields", "allow_write",
    "deny_create", "hide", "deny_logical_delete", "deny_physical_delete",
    "workflow_access_rights", "schematron", "primary_key_info", "lookup_fields", "label",
    "labels"] node
  return {
    name := ← required m "name" text
    ns := ← withDefault m "namespace" (optional text) none
    instantiable := ← withDefault m "instantiable" bool true
    superTypes := ← withDefault m "super_types" (list text) []
    fields := ← withDefault m "fields" (list FieldEntry.decode) []
    allowWrite := ← withDefault m "allow_write" (list text) []
    denyCreate := ← withDefault m "deny_create" (list text) []
    hide := ← withDefault m "hide" (list text) []
    denyLogicalDelete := ← withDefault m "deny_logical_delete" (list text) []
    denyPhysicalDelete := ← withDefault m "deny_physical_delete" (list text) []
    workflowRights := ← withDefault m "workflow_access_rights" (list text) []
    schematron := ← withDefault m "schematron" text ""
    primaryKeyInfo := ← withDefault m "primary_key_info" (list text) []
    lookupFields := ← withDefault m "lookup_fields" (list text) []
    label := ← withDefault m "label" (optional text) none
    labels := ← withDefault m "labels" (table text) ∅ }

open Decode in
/-- A manifest read from a node. -/
def Manifest.decode (node : Node) : Decode Manifest := do
  let m ← record ["namespace", "types"] node
  return {
    ns := ← withDefault m "namespace" (optional text) none
    types := ← withDefault m "types" (list TypeEntry.decode) [] }

/-- A manifest read from JSON. -/
def Manifest.ofJson (json : Json) : Except DecodeError Manifest :=
  (Document.ofJson json).decode Manifest.decode

/-- A type entry read from JSON. -/
def TypeEntry.ofJson (json : Json) : Except DecodeError TypeEntry :=
  (Document.ofJson json).decode TypeEntry.decode

end EntityModel
