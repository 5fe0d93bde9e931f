/-
What the annotations of a schema element say.

The annotations of an element are collected first; a complex type or a field is
then made from them.
-/
import EntityModel.TypeNode

namespace EntityModel

/-- The annotations of a schema element.  Those that concern a field of it are
`fieldType` and what follows. -/
structure Annotations where
  directives : AccessDirectives := {}
  schematron : String := ""
  primaryKeyInfo : List FieldRef := []
  lookupFields : List FieldRef := []
  /-- Display labels by locale. -/
  labels : Table String := ∅
  fieldType : Option TypeId := none
  isReference : Bool := false
  /-- The simple type of the field restricts its values to a fixed set. -/
  isEnumeration : Bool := false
  referencedType : Option TypeId := none
  referencedField : Option String := none
  integrity : Bool := true
  integrityOverride : Bool := false

namespace Annotations

/-- The complex type that the annotations describe. -/
def type (a : Annotations) (qualifiedName : QualifiedName) (instantiable : Bool) : ComplexType :=
  { qualifiedName
    lifecycle := .building { primaryKeyInfo := a.primaryKeyInfo, lookupFields := a.lookupFields }
    directives := a.directives
    schematron := a.schematron
    labels := a.labels
    instantiable }

/-- What the described field holds.  A reference is one whether it is said to be
contained or not, and only a field that is neither can be an enumeration. -/
def fieldKind (a : Annotations) (name : String) (contained : Bool) :
    Except ModelError FieldKind :=
  if a.isReference then
    match a.referencedType with
    | none => .error (.illegalArgument (.untargetedReference name))
    | some target =>
      .ok (.reference
        { target
          targetField := a.referencedField
          integrity := a.integrity
          integrityOverride := a.integrityOverride })
  else .ok (if contained then .contained else if a.isEnumeration then .enumeration else .simple)

/-- The field of `owner` that the annotations describe. -/
def field (a : Annotations) (owner : TypeId) (name : String) (contained : Bool) :
    Except ModelError Field :=
  match a.fieldType with
  | none => .error (.illegalArgument (.untypedField name))
  | some valueType => do
    let kind ← a.fieldKind name contained
    return { Field.declare owner name valueType kind with labels := a.labels }

end Annotations

end EntityModel
