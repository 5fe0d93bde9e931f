/-
Fields of complex types.

A field is a named member of a type.  Its containing type is the type that owns
it now, its declaring type the one that first declared it: inheritance changes
the former and keeps the latter.
-/
import EntityModel.Name
import EntityModel.Table

namespace EntityModel

/-- The foreign key of a reference field. -/
structure ReferenceInfo where
  /-- The entity type that is referred to. -/
  target : TypeId
  /-- The field of that type that holds the key, if it is declared. -/
  targetField : Option String := none
  /-- Foreign key integrity is enforced. -/
  integrity : Bool := true
  /-- The integrity check may be overridden. -/
  integrityOverride : Bool := false
  deriving DecidableEq

/-- What a field holds. -/
inductive FieldKind where
  /-- A value of a simple type. -/
  | simple
  /-- A value of a simple type, out of a fixed set. -/
  | enumeration
  /-- An embedded complex structure. -/
  | contained
  /-- A foreign key to another entity. -/
  | reference (info : ReferenceInfo)
  deriving DecidableEq

/-- A named member of a complex type. -/
structure Field where
  name : String
  /-- The type of the value. -/
  valueType : TypeId
  /-- The type that owns the field. -/
  containingType : TypeId
  /-- The type that first declared the field. -/
  declaringType : TypeId
  kind : FieldKind := .simple
  isKey : Bool := false
  isMany : Bool := false
  isMandatory : Bool := false
  isFrozen : Bool := false
  /-- Display labels by locale. -/
  labels : Table String := ∅
  deriving DecidableEq

namespace Field

/-- A new field of `owner`, which is also its declaring type. -/
def declare (owner : TypeId) (name : String) (valueType : TypeId) (kind : FieldKind) : Field :=
  { name, valueType, containingType := owner, declaringType := owner, kind }

/-- The field with its label for `locale`. -/
def withLabel (f : Field) (locale : Locale) (label : String) : Field :=
  { f with labels := f.labels.insert locale label }

/-- The label for `locale`, or else the name. -/
def labelFor (f : Field) (locale : Locale) : String := (f.labels.get? locale).getD f.name

/-- The field owned by `owner`; the declaring type is kept. -/
def adopt (f : Field) (owner : TypeId) : Field := { f with containingType := owner }

/-- The field made read-only. -/
def freeze (f : Field) : Field := { f with isFrozen := true }

/-- The field made part of the key. -/
def promote (f : Field) : Field := { f with isKey := true }

/-- A copy that can be modified again. -/
def thawed (f : Field) : Field := { f with isFrozen := false }

@[simp] theorem name_adopt (f : Field) (owner : TypeId) : (f.adopt owner).name = f.name := rfl

@[simp] theorem name_freeze (f : Field) : f.freeze.name = f.name := rfl

@[simp] theorem name_promote (f : Field) : f.promote.name = f.name := rfl

@[simp] theorem name_thawed (f : Field) : f.thawed.name = f.name := rfl

end Field

/-- An entry of the primary key information or of the lookup fields of a type:
a field, or a path that is still to be resolved from the owning type. -/
inductive FieldRef where
  | field (field : Field)
  | path (path : String)
  deriving DecidableEq

namespace FieldRef

/-- The name of the field, or the unresolved path. -/
def name : FieldRef → String
  | .field f => f.name
  | .path p => p

/-- The field, once it is known. -/
def field? : FieldRef → Option Field
  | .field f => some f
  | .path _ => none

/-- A copy whose field can be modified again. -/
def thawed : FieldRef → FieldRef
  | .field f => .field f.thawed
  | .path p => .path p

end FieldRef

end EntityModel
