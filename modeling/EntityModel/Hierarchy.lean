/-
Inheritance and containment among the types of a repository.

Each question is a traversal of one kind of edge: to super types, to subtypes or
to the containing type.  Edges may form cycles and may lead nowhere.
-/
import EntityModel.Repository
import EntityModel.Traversal

namespace EntityModel

namespace Repository

/-! ### Super types -/

/-- The super types of a type of either sort. -/
def superTypesOf (r : Repository) (id : TypeId) : List TypeId :=
  match r.get? id with
  | some t => t.superTypes
  | none => []

/-- The super types of a complex type; any other has none. -/
def complexSuperTypesOf (r : Repository) (id : TypeId) : List TypeId :=
  match r.complex? id with
  | some t => t.shape.superTypes
  | none => []

/-- The type and what it inherits from through complex types, nearest first. -/
def lineage (r : Repository) (id : TypeId) : List TypeId :=
  visit r.ids r.complexSuperTypesOf [] [id]

/-- The field `name` of the type itself, or else of the first in its lineage that
has one. -/
def inheritedField? (r : Repository) (id : TypeId) (name : String) : Option Field :=
  (r.lineage id).findSome? fun t => (r.complex? t).bind (·.ownField? name)

/-- The type and what it inherits from, through types of either sort. -/
def ancestry (r : Repository) (id : TypeId) : List TypeId := visit r.ids r.superTypesOf [] [id]

/-- Whether one of the types is called `name`; all up to that one must exist. -/
def anyNamed (r : Repository) (name : String) (ids : List TypeId) : Except ModelError Bool :=
  ids.anyM fun id => do return (← r.get id).name == name

/-- Whether `other` bears the name of the type or of one that it inherits from. -/
def isAssignable (r : Repository) (id other : TypeId) : Except ModelError Bool := do
  let type ← r.get id
  let name := (← r.get other).name
  if ← (r.ancestry id).anyM fun t => r.anyNamed name (r.superTypesOf t) then return true
  return type.name == name

/-! ### Subtypes -/

/-- The direct subtypes that exist and are complex. -/
def complexSubTypesOf (r : Repository) (id : TypeId) : List TypeId :=
  match r.complex? id with
  | some t => t.subTypes.filter fun s => (r.complex? s).isSome
  | none => []

/-- The types that extend the type at any depth, in depth-first order. -/
def subTypes (r : Repository) (id : TypeId) : List TypeId :=
  visit r.ids r.complexSubTypesOf [id] (r.complexSubTypesOf id)

/-! ### Containers -/

/-- The direct subtypes as they are declared, last first. -/
def declaredSubTypesOf (r : Repository) (id : TypeId) : List TypeId :=
  match r.complex? id with
  | some t => t.subTypes.reverse
  | none => []

/-- The type and its subtypes at any depth, known or not, in the order in which they
get a container. -/
def family (r : Repository) (id : TypeId) : List TypeId :=
  visit r.ids r.declaredSubTypesOf [] [id]

/-- The type that contains the type directly. -/
def containingTypesOf (r : Repository) (id : TypeId) : List TypeId :=
  match (r.complex? id).bind (·.container) with
  | some container => [container.containingType]
  | none => []

/-- The type, the type that contains it, and so on, up to the first repetition. -/
def containers (r : Repository) (id : TypeId) : List TypeId :=
  visit r.ids r.containingTypesOf [] [id]

/-- The outermost type that contains the complex type. -/
def entity (r : Repository) (id : TypeId) : Except ModelError TypeId :=
  (r.containers id).foldlM (fun _ container => do
    let _ ← r.complex container
    return container) id

end Repository

end EntityModel
