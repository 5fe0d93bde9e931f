/-
What can go wrong in a model.

Each error is a cause with the names that it concerns; `ModelError.message` is
the one place where causes are put into words.
-/
import EntityModel.BuiltinType
import EntityModel.Name

namespace EntityModel

/-- Why an argument is refused. -/
inductive ArgumentFault where
  /-- A field was looked up with an empty path. -/
  | emptyPath
  /-- A field to add has no name. -/
  | unnamedField
  /-- A key field to register has no name. -/
  | unnamedKey
  /-- A step of `path` has a type predicate that names no type. -/
  | emptyOverride (path : String)
  /-- The field `name` was declared without a type. -/
  | untypedField (name : String)
  /-- The reference field `name` was declared without the type it refers to. -/
  | untargetedReference (name : String)
  /-- The built-in type is not registered. -/
  | unregisteredBuiltin (type : BuiltinType)
  /-- Copying the type comes upon new copies without end.  It is never reported: it stands
  for an operation that does not return. -/
  | endlessCopy (id : TypeId)
  deriving DecidableEq

namespace ArgumentFault

/-- The fault in words. -/
def message : ArgumentFault → String
  | .emptyPath => "Field name can not be null nor empty."
  | .unnamedField => "Field can not be null."
  | .unnamedKey => "Key field can not be null."
  | .emptyOverride path => s!"Reusable type could not be null for fieldName '{path}'"
  | .untypedField name => s!"Field '{name}' has no declared type."
  | .untargetedReference name => s!"Reference field '{name}' does not name a referenced type."
  | .unregisteredBuiltin type => s!"Unknown built-in type '{type.name}'."
  | .endlessCopy id => s!"The copy of type {id.display} has no end."

end ArgumentFault

/-- An error of an operation on a model. -/
inductive ModelError where
  /-- The type `name` is read-only. -/
  | frozen (name : String)
  | illegalArgument (fault : ArgumentFault)
  /-- From the type, `path` does not lead to a field: nothing bears the name `step`. -/
  | unresolvedField (typeName path step : String)
  /-- The type `name` is simple where a complex one is needed. -/
  | notComplex (name : String)
  | unknownType (id : TypeId)
  | duplicateType (name : QualifiedName)
  | cyclicInheritance (name : String)
  /-- No kind of delete operation is called `text`. -/
  | unknownDeleteKind (text : String)
  /-- A manifest entry `owner` uses a type name that nothing bears. -/
  | unknownReference (owner name : String)
  deriving DecidableEq

namespace ModelError

/-- The error in words. -/
def message : ModelError → String
  | .frozen name => s!"Type '{name}' is frozen and can not be modified."
  | .illegalArgument fault => s!"Illegal argument: {fault.message}"
  | .unresolvedField typeName path step =>
    s!"Type '{typeName}' does not own field '{path}' (could not find '{step}')."
  | .notComplex name => s!"Type '{name}' is not a complex type."
  | .unknownType id => s!"No type registered with id {id.display}."
  | .duplicateType name => s!"Type {name.display} is already registered."
  | .cyclicInheritance name => s!"Type '{name}' inherits from itself."
  | .unknownDeleteKind text =>
    s!"Not implemented: Security information parsing for delete type '{text}'"
  | .unknownReference owner name =>
    s!"Invalid model manifest: Type '{owner}' refers to unknown type '{name}'."

end ModelError

end EntityModel
