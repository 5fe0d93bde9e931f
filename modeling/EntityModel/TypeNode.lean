/-
Simple and complex types.

A complex type is built, then frozen.  Its shape (fields, keys, super types and
field references) can be changed only while it is being built; while the freeze
works on it, it reads as empty.  Everything that says how a type is
used — its subtypes, usages, container, labels and side data — stays open.
-/
import EntityModel.Error
import EntityModel.FieldTable
import EntityModel.Json

namespace EntityModel

/-- A list of handles with `id` at its end, unless it is there already. -/
def appendNew (ids : List TypeId) (id : TypeId) : List TypeId :=
  if id ∈ ids then ids else ids ++ [id]

section AppendNew

variable {ids l : List TypeId} {id c : TypeId}

theorem mem_appendNew : c ∈ appendNew ids id ↔ c ∈ ids ∨ c = id := by
  rw [appendNew]
  split
  · next present =>
    refine ⟨.inl, ?_⟩
    rintro (old | rfl)
    · exact old
    · exact present
  · rw [List.mem_append, List.mem_singleton]

theorem mem_foldl_appendNew (l ids : List TypeId) :
    c ∈ l.foldl appendNew ids ↔ c ∈ ids ∨ c ∈ l := by
  induction l generalizing ids with
  | nil => simp
  | cons v rest ih => rw [List.foldl_cons, ih, mem_appendNew, List.mem_cons, or_assoc]

/-- Handles that are appended come after those that are there. -/
theorem exists_foldl_appendNew_eq (l ids : List TypeId) :
    ∃ rest, l.foldl appendNew ids = ids ++ rest ∧ ∀ v ∈ rest, v ∈ l := by
  induction l generalizing ids with
  | nil => exact ⟨[], by simp, by simp⟩
  | cons v others ih =>
    obtain ⟨rest, eq, sub⟩ := ih (appendNew ids v)
    rw [List.foldl_cons, eq]
    by_cases present : v ∈ ids
    · rw [appendNew, if_pos present]
      exact ⟨rest, rfl, fun w hw => List.mem_cons_of_mem v (sub w hw)⟩
    · rw [appendNew, if_neg present, List.append_assoc]
      refine ⟨[v] ++ rest, rfl, fun w hw => ?_⟩
      rcases List.mem_cons.1 hw with rfl | hw
      · exact List.mem_cons_self
      · exact List.mem_cons_of_mem v (sub w hw)

theorem prefix_foldl_appendNew (l ids : List TypeId) : ids <+: l.foldl appendNew ids := by
  obtain ⟨rest, eq, -⟩ := exists_foldl_appendNew_eq l ids
  exact ⟨rest, eq.symm⟩

theorem prefix_appendNew (ids : List TypeId) (id : TypeId) : ids <+: appendNew ids id :=
  prefix_foldl_appendNew [id] ids

theorem foldl_appendNew_of_nodup (distinct : (ids ++ l).Nodup) :
    l.foldl appendNew ids = ids ++ l := by
  induction l generalizing ids with
  | nil => rw [List.foldl_nil, List.append_nil]
  | cons id rest ih =>
    have fresh : id ∉ ids := fun mem =>
      (List.nodup_append.1 distinct).2.2 id mem id List.mem_cons_self rfl
    rw [List.foldl_cons, appendNew, if_neg fresh, ih (by simpa using distinct),
      List.append_assoc, List.singleton_append]

end AppendNew

/-- The kinds of delete operation that roles can be denied. -/
inductive DeleteKind where
  | logical
  | physical
  deriving DecidableEq

namespace DeleteKind

/-- The kind's name in capitals. -/
def name : DeleteKind → String
  | .logical => "LOGICAL"
  | .physical => "PHYSICAL"

/-- The kind called `text`, whose ASCII letters may be in either case. -/
def ofText (text : String) : Except ModelError DeleteKind :=
  match text.toUpper with
  | "LOGICAL" => .ok .logical
  | "PHYSICAL" => .ok .physical
  | _ => .error (.unknownDeleteKind text)

end DeleteKind

/-- The roles that an entity type grants or denies something. -/
structure AccessDirectives where
  allowWrite : List String := []
  denyCreate : List String := []
  hide : List String := []
  denyPhysicalDelete : List String := []
  denyLogicalDelete : List String := []
  workflowRights : List String := []
  deriving DecidableEq

/-- The roles that may not delete in the given way. -/
def AccessDirectives.denyDelete (d : AccessDirectives) : DeleteKind → List String
  | .logical => d.denyLogicalDelete
  | .physical => d.denyPhysicalDelete

/-- The field that embeds a type which is not an entity of its own. -/
structure ContainerRef where
  containingType : TypeId
  field : String
  deriving DecidableEq

/-- What the freeze makes final. -/
structure TypeShape where
  fields : FieldTable := ∅
  keyFields : FieldTable := ∅
  superTypes : List TypeId := []
  primaryKeyInfo : List FieldRef := []
  lookupFields : List FieldRef := []
  deriving DecidableEq

/-- How far a complex type is on its way to being read-only. -/
inductive Lifecycle where
  /-- The shape can be changed. -/
  | building (declared : TypeShape)
  /-- The freeze works on the shape, which cannot be seen. -/
  | freezing
  /-- The shape is final. -/
  | frozen (flat : TypeShape)
  deriving DecidableEq

namespace Lifecycle

/-- The shape that can be seen. -/
def shape : Lifecycle → TypeShape
  | .building s => s
  | .freezing => {}
  | .frozen s => s

/-- The shape is final. -/
def isFrozen : Lifecycle → Bool
  | .frozen _ => true
  | _ => false

end Lifecycle

/-- An entity type, or a structure embedded in entity types. -/
structure ComplexType where
  qualifiedName : QualifiedName
  lifecycle : Lifecycle := .building {}
  /-- The types known to extend this one. -/
  subTypes : List TypeId := []
  /-- The types that embed this one. -/
  usages : List TypeId := []
  container : Option ContainerRef := none
  directives : AccessDirectives := {}
  schematron : String := ""
  /-- Display labels by locale. -/
  labels : Table String := ∅
  /-- Opaque side data by key. -/
  data : Table Json := ∅
  /-- The type describes records of its own. -/
  instantiable : Bool := true

namespace ComplexType

/-- The name without its namespace. -/
def name (t : ComplexType) : String := t.qualifiedName.name

/-- The shape that can be seen. -/
def shape (t : ComplexType) : TypeShape := t.lifecycle.shape

/-- The type is read-only. -/
def isFrozen (t : ComplexType) : Bool := t.lifecycle.isFrozen

/-- The label for `locale`, or else the name. -/
def labelFor (t : ComplexType) (locale : Locale) : String := (t.labels.get? locale).getD t.name

/-- The field `name` of the type itself, whatever it inherits. -/
def ownField? (t : ComplexType) (name : String) : Option Field := t.shape.fields.find? name

/-- The field `name` is part of the key. -/
def isKey (t : ComplexType) (name : String) : Bool := t.shape.keyFields.contains name

/-- The shape of a type that is being built. -/
def declared (t : ComplexType) : Except ModelError TypeShape :=
  match t.lifecycle with
  | .building s => .ok s
  | _ => .error (.frozen t.name)

/-- The type with another shape, still being built. -/
def withDeclared (t : ComplexType) (s : TypeShape) : ComplexType :=
  { t with lifecycle := .building s }

/-- A field is added; one that is flagged as a key is registered as a key too. -/
def addField (t : ComplexType) (f : Field) : Except ModelError ComplexType := do
  let s ← t.declared
  if f.name.isEmpty then throw (.illegalArgument .unnamedField)
  let keyFields := if f.isKey then s.keyFields.add f else s.keyFields
  return t.withDeclared { s with fields := s.fields.add f, keyFields }

/-- A key field is registered. -/
def registerKey (t : ComplexType) (f : Field) : Except ModelError ComplexType := do
  let s ← t.declared
  if f.name.isEmpty then throw (.illegalArgument .unnamedKey)
  return t.withDeclared { s with keyFields := s.keyFields.add f }

/-- A super type is declared. -/
def addSuperType (t : ComplexType) (superType : TypeId) : Except ModelError ComplexType := do
  let s ← t.declared
  return t.withDeclared { s with superTypes := appendNew s.superTypes superType }

/-- The type describes records of its own, or no longer does. -/
def setInstantiable (t : ComplexType) (instantiable : Bool) : Except ModelError ComplexType := do
  let _ ← t.declared
  return { t with instantiable }

/-- The subtypes are replaced. -/
def setSubTypes (t : ComplexType) (subTypes : List TypeId) : Except ModelError ComplexType := do
  let _ ← t.declared
  return { t with subTypes := subTypes.foldl appendNew [] }

/-- The name is changed within its namespace. -/
def rename (t : ComplexType) (name : String) : Except ModelError ComplexType := do
  let _ ← t.declared
  return { t with qualifiedName := { t.qualifiedName with name } }

/-- The type is extended by `subType`. -/
def registerSubType (t : ComplexType) (subType : TypeId) : ComplexType :=
  { t with subTypes := appendNew t.subTypes subType }

/-- The type is embedded by `usage`. -/
def declareUsage (t : ComplexType) (usage : TypeId) : ComplexType :=
  { t with usages := appendNew t.usages usage }

/-- The label for `locale` is set. -/
def registerLabel (t : ComplexType) (locale : Locale) (label : String) : ComplexType :=
  { t with labels := t.labels.insert locale label }

/-- The side data at `key` is set. -/
def setData (t : ComplexType) (key : String) (value : Json) : ComplexType :=
  { t with data := t.data.insert key value }

end ComplexType

/-- A scalar type: it has no fields. -/
structure SimpleType where
  qualifiedName : QualifiedName
  /-- The types that this one restricts. -/
  superTypes : List TypeId := []
  isFrozen : Bool := false
  deriving DecidableEq

namespace SimpleType

/-- The name without its namespace. -/
def name (t : SimpleType) : String := t.qualifiedName.name

/-- The built-in type, read-only from the start. -/
def builtin (ns : String) (type : BuiltinType) : SimpleType :=
  { qualifiedName := ⟨ns, type.name⟩, isFrozen := true }

/-- The type that this one restricts is declared. -/
def addSuperType (t : SimpleType) (superType : TypeId) : Except ModelError SimpleType :=
  if t.isFrozen then .error (.frozen t.name)
  else .ok { t with superTypes := appendNew t.superTypes superType }

end SimpleType

/-- A type of a model. -/
inductive TypeNode where
  | simple (type : SimpleType)
  | complex (type : ComplexType)

namespace TypeNode

def qualifiedName : TypeNode → QualifiedName
  | .simple t => t.qualifiedName
  | .complex t => t.qualifiedName

/-- The name without its namespace. -/
def name (t : TypeNode) : String := t.qualifiedName.name

/-- The type describes records of its own; a simple type never does. -/
def instantiable : TypeNode → Bool
  | .simple _ => false
  | .complex t => t.instantiable

/-- The type is read-only. -/
def isFrozen : TypeNode → Bool
  | .simple t => t.isFrozen
  | .complex t => t.isFrozen

def superTypes : TypeNode → List TypeId
  | .simple t => t.superTypes
  | .complex t => t.shape.superTypes

/-- The type, if it is complex. -/
def complex? : TypeNode → Option ComplexType
  | .simple _ => none
  | .complex t => some t

/-- A super type is declared. -/
def addSuperType : TypeNode → TypeId → Except ModelError TypeNode
  | .simple t, superType => TypeNode.simple <$> t.addSuperType superType
  | .complex t, superType => TypeNode.complex <$> t.addSuperType superType

/-- Types are the same if they are of one sort and bear the same qualified name:
shape does not count. -/
def sameType : TypeNode → TypeNode → Bool
  | .simple s, .simple t => s.qualifiedName == t.qualifiedName
  | .complex s, .complex t => s.qualifiedName == t.qualifiedName
  | _, _ => false

end TypeNode

end EntityModel
