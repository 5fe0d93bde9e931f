/-
Outlines of types.

The outline of a complex type lists the paths of its fields, depth first: the path
of a field comes before those of the fields of its type.  A type is not entered again
inside of itself.
-/
import EntityModel.Hierarchy

namespace EntityModel

namespace Repository

/-- The paths of the fields of `type` and of the types in them, each after `start`.  The
types in `inside` are not entered. -/
def pathsOf (r : Repository) (inside : List TypeId) (start : String) (type : ComplexType) :
    List String :=
  type.shape.fields.fields.flatMap fun f =>
    let path := start ++ f.name
    match found : r.complex? f.valueType with
    | none => [path]
    | some valueType =>
      if entered : f.valueType ∈ inside then [path]
      else
        have := length_unseen_cons_lt (mem_ids_of_complex? found) entered
        path :: r.pathsOf (f.valueType :: inside) (path ++ "/") valueType
termination_by (unseen r.ids inside).length

/-- The outline of a type; a simple type is an outline of its own. -/
def outline (r : Repository) (id : TypeId) : Except ModelError (List String) := do
  match ← r.get id with
  | .simple type => return [s!"simple {type.qualifiedName.display}"]
  | .complex type => return r.pathsOf [id] "" type

end Repository

end EntityModel
