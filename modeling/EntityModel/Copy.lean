/-
Copies of types.

A copy has the name of its source and can be modified.  It owns copies of the
fields and keys, extends the same types as the source and is extended by copies
of its subtypes, which extend the copy instead of the source.  A copy is not
registered.

A copy becomes a subtype of types that may be yet to be visited, and is then copied
itself.  Where super types and subtypes go round in circles this need not end: if R lists
Z and W as subtypes, Z extends W and W extends Z, then each copy made under R becomes a
subtype of the type that is copied next, and so is copied after it: the copy of R never
returns.  The depth of `copyTree` is bounded so that it is a function; what it answers
where the bound is hit, `endlessCopy`, stands for a copy that does not return.
-/
import EntityModel.Edit

namespace EntityModel

namespace ComplexType

/-- The names, directives, labels and field references of a type, without its fields. -/
def shallowCopy (t : ComplexType) : ComplexType :=
  { qualifiedName := t.qualifiedName
    lifecycle := .building
      { primaryKeyInfo := t.shape.primaryKeyInfo.map FieldRef.thawed
        lookupFields := t.shape.lookupFields.map FieldRef.thawed }
    directives := t.directives
    schematron := t.schematron
    labels := t.labels
    instantiable := t.instantiable }

end ComplexType

namespace Edit

/-- A shallow copy of a complex type is added. -/
def copyShallow (id : TypeId) : Edit TypeId := do
  push (.complex (← ask (·.complex id)).shallowCopy)

/-- The copy made of a type, if there is one, or else the type itself. -/
def copyOr (copies : List (TypeId × TypeId)) (id : TypeId) : TypeId :=
  (copies.lookup id).getD id

/-- The fields, keys, super types, usages and side data of `source` are given to the
fresh copy `copy`. -/
def fillCopy (source : ComplexType) (copy : TypeId) (superTypes : List TypeId) : Edit Unit := do
  source.shape.fields.fields.forM fun f => modify copy (·.addField (f.thawed.adopt copy))
  source.shape.keyFields.fields.forM fun f => modify copy (·.registerKey (f.thawed.adopt copy))
  superTypes.forM fun superType => modify copy (·.addSuperType superType)
  modify copy fun t => .ok { t with data := source.data, usages := source.usages }

/-- A type and its subtypes are copied; `copies` are the copies made before, by source.
The copies made in all are returned with the handle of the copy.  A copy that goes more
than `depth` types deep is taken for one without end. -/
def copyTree : (depth : Nat) → TypeId → List (TypeId × TypeId) →
    Edit (TypeId × List (TypeId × TypeId))
  | 0, id, _ => throw (.illegalArgument (.endlessCopy id))
  | depth + 1, id, copies => do
    let source ← ask (·.complex id)
    let copy ← push (.complex source.shallowCopy)
    let copies := (id, copy) :: copies
    let superTypes := source.shape.superTypes.map (copyOr copies)
    fillCopy source copy superTypes
    superTypes.forM fun superType => update (·.adjust superType (·.registerSubType copy))
    let copies ← source.subTypes.foldlM (fun copies subType => do
      if (copies.lookup subType).isSome then return copies
      let (subCopy, copies) ← copyTree depth subType copies
      modify copy fun t => .ok (t.registerSubType subCopy)
      return copies) copies
    return (copy, copies)

/-- How deep a tree of subtypes is copied before it is taken for one without end.  Copies
may become subtypes of types that are yet to be visited, so the number of types alone is
no bound. -/
def copyDepth (r : Repository) : Nat := (r.types.size + 1) * (r.types.size + 1)

/-- A complex type is copied with its subtypes. -/
def copy (id : TypeId) : Edit TypeId := do
  let r := (← get).repository
  let (copy, _) ← copyTree (copyDepth r) id []
  let type ← ask (·.complex copy)
  report [.copied type.qualifiedName copy]
  return copy

end Edit

end EntityModel
