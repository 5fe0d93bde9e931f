/-
The freeze.

Freezing a type makes it read-only.  Its super types are frozen first and what
they have is flattened into it: their fields come before its own, an own field
takes the place of an inherited one, and keys that have no field become fields.
Of several super types only those are kept that agree with the type in being
instantiable.  A type whose freeze fails is left as it was declared.

The recursion ends because each type on the way is either frozen already or is
marked before its super types are visited; so the number of types bounds its depth.
-/
import EntityModel.Edit
import EntityModel.Resolution

namespace EntityModel

namespace TypeShape

/-- The fields of a super type inherited by `heir`, over what is there; those that
are keys are keys of the heir too. -/
def inherit (s : TypeShape) (heir : TypeId) (fields : List Field) : TypeShape :=
  fields.foldl (fun s f =>
    let adopted := f.adopt heir
    { s with
      keyFields :=
        if adopted.isKey then s.keyFields.add adopted else s.keyFields
      fields := s.fields.add adopted }) s

/-- A field made read-only, and a key if it bears the name of one. -/
def settle (keys : FieldTable) (f : Field) : Field :=
  if f.name ∈ keys.names then f.freeze.promote else f.freeze

theorem name_settle (keys : FieldTable) (f : Field) : (settle keys f).name = f.name := by
  unfold settle
  split <;> rfl

/-- The field that a table has under the map key `name`, or else the key field itself. -/
def refresh (fields : FieldTable) (name : String) (key : Field) : Field :=
  (fields.find? name).getD key

theorem name_refresh (fields : FieldTable) (name : String) (key : Field) (named : key.name = name) :
    (refresh fields name key).name = name := by
  unfold refresh
  cases found : fields.find? name with
  | none => exact named
  | some f => exact FieldTable.name_of_find? found

/-- The shape made final: keys without a field become fields, every field is frozen,
and keys and fields of one name become the same. -/
def finish (s : TypeShape) : TypeShape :=
  let fields := (s.fields.insertMissing s.keyFields).mapFields (settle s.keyFields)
    (name_settle s.keyFields)
  { s with fields, keyFields := s.keyFields.mapEntries (refresh fields) (name_refresh fields) }

end TypeShape

namespace Repository

/-- The type is made a subtype of its complex super types and gets their usages. -/
def linkSuperTypes (r : Repository) (id : TypeId) (superTypes : List TypeId) : Repository :=
  let linked := superTypes.foldl (fun r s => r.adjust s (·.registerSubType id)) r
  let usages := superTypes.flatMap fun s => ((linked.complex? s).map (·.usages)).getD []
  linked.adjust id fun t => usages.foldl ComplexType.declareUsage t

/-- A field reference bound to a frozen field; a path that leads nowhere is dropped. -/
def bindRef (r : Repository) (id : TypeId) : FieldRef → Option FieldRef × List Event
  | .field f => (some (.field f.freeze), [])
  | .path p =>
    let resolution := r.resolve id p
    (resolution.outcome.toOption.map fun f => .field f.freeze, resolution.reports)

/-- Field references bound one after the other. -/
def bindRefs (r : Repository) (id : TypeId) (refs : List FieldRef) : List FieldRef × List Event :=
  let bound := refs.map (r.bindRef id)
  (bound.filterMap Prod.fst, bound.flatMap Prod.snd)

end Repository

namespace Edit

/-- The shape of the complex type is taken out, to be made final. -/
def beginFreeze (id : TypeId) : Edit TypeShape := do
  let type ← ask (·.complex id)
  match type.lifecycle with
  | .building declared =>
    update (·.adjust id fun t => { t with lifecycle := .freezing })
    return declared
  | .freezing => throw (.cyclicInheritance type.name)
  | .frozen _ => throw (.frozen type.name)

/-- The complex type gets a shape. -/
def setLifecycle (id : TypeId) (lifecycle : Lifecycle) : Edit Unit :=
  update (·.adjust id fun t => { t with lifecycle })

/-- The super types that a type keeps.  An only one is kept; of several, those that
agree with it in being instantiable, and the others are reported. -/
def keepSuperTypes (type : TypeNode) (superTypes : List TypeId) : Edit (List TypeId) := do
  if superTypes.length ≤ 1 then return superTypes
  superTypes.filterM fun id => do
    let superType ← ask (·.get id)
    if superType.instantiable = type.instantiable then return true
    report [.droppedSuperType superType.qualifiedName type.qualifiedName superType.instantiable
      type.instantiable]
    return false

/-- A super type is frozen and its fields are inherited; it stays a super type if it
agrees with the heir in being instantiable. -/
def inheritFrom (freezeSuper : TypeId → Edit Unit) (heir : TypeId) (instantiable : Bool)
    (s : TypeShape) (superType : TypeId) : Edit TypeShape := do
  freezeSuper superType
  let type ← ask (·.get superType)
  let s := if type.instantiable = instantiable
    then { s with superTypes := s.superTypes ++ [superType] } else s
  match type with
  | .complex t => return s.inherit heir t.shape.fields.fields
  | .simple _ => return s

/-- The declared shape of a type with what it inherits. -/
def flatten (freezeSuper : TypeId → Edit Unit) (id : TypeId) (declared : TypeShape) :
    Edit TypeShape := do
  let type ← ask (·.get id)
  if declared.superTypes.isEmpty then return declared.finish
  let kept ← keepSuperTypes type declared.superTypes
  let inherited ← kept.foldlM (inheritFrom freezeSuper id type.instantiable)
    { declared with fields := ∅, superTypes := [] }
  return { inherited with fields := inherited.fields.insertAll declared.fields }.finish

/-- The field references of a frozen type are bound to fields. -/
def bindFieldRefs (id : TypeId) : Edit Unit := do
  let r := (← get).repository
  let type ← ask (·.complex id)
  let (primaryKeyInfo, reports) := r.bindRefs id type.shape.primaryKeyInfo
  let (lookupFields, moreReports) := r.bindRefs id type.shape.lookupFields
  report (reports ++ moreReports)
  setLifecycle id (.frozen { type.shape with primaryKeyInfo, lookupFields })

/-- The freeze of a complex type that is not frozen, given the freeze of its super types. -/
def freezeComplex (freezeSuper : TypeId → Edit Unit) (id : TypeId) : Edit Unit := do
  let declared ← beginFreeze id
  let flat ← tryCatch (flatten freezeSuper id declared) fun e => do
    -- the type goes back to what it was; super types that were frozen stay frozen
    setLifecycle id (.building declared)
    throw e
  setLifecycle id (.frozen flat)
  update (·.linkSuperTypes id flat.superTypes)
  bindFieldRefs id
  let type ← ask (·.complex id)
  report [.froze type.qualifiedName type.shape.fields.size type.shape.keyFields.size
    type.shape.superTypes.length]

/-- The freeze of a type, at most `depth` super types deep.  No chain of types that are
not frozen is longer than the number of types. -/
def freezeWithin : (depth : Nat) → TypeId → Edit Unit
  | 0, id => throw (.unknownType id)
  | depth + 1, id => do
    match ← ask (·.get id) with
    | .simple type =>
      if type.isFrozen then return
      update (·.set id (.simple { type with isFrozen := true }))
      type.superTypes.forM (freezeWithin depth)
    | .complex type =>
      if type.isFrozen then return
      freezeComplex (freezeWithin depth) id

/-- A type is made read-only, after its super types. -/
def freeze (id : TypeId) : Edit Unit := do
  let r := (← get).repository
  freezeWithin (r.types.size + 1) id

/-- Every type is frozen, in order, up to the first that fails. -/
def freezeAll : Edit Unit := do
  let r := (← get).repository
  r.ids.forM freeze

end Edit

end EntityModel
