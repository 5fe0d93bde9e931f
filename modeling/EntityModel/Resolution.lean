/-
Resolution of field paths.

A path without a slash is a name that the type has or inherits.  A nested path is
followed step by step: each step names a field of the current type, what it
inherits or what one of its direct subtypes has, and the type of that field is
where the next step starts, narrowed to a subtype if the step names one.  Naming
a subtype that does not exist is reported, and has no other effect.
-/
import EntityModel.Event
import EntityModel.Hierarchy
import EntityModel.Path

namespace EntityModel

/-- What comes of following a path: a field or an error, and the reports on the way. -/
structure Resolution where
  outcome : Except ModelError Field
  reports : List Event := []

namespace Resolution

/-- The path leads to no field. -/
def failure (e : ModelError) : Resolution := { outcome := .error e }

/-- The resolution with `reports` made before. -/
def after (reports : List Event) (rest : Resolution) : Resolution :=
  { rest with reports := reports ++ rest.reports }

end Resolution

namespace Repository

/-- The field `name` that a step finds at the type: its own, an inherited one, or that
of the first direct subtype that has or inherits one. -/
def stepField? (r : Repository) (id : TypeId) (name : String) : Option Field :=
  (r.inheritedField? id name).or
    ((r.complexSubTypesOf id).findSome? fun s => r.inheritedField? s name)

/-- The subtype of `id` that a step names, if there is one. -/
def subTypeNamed? (r : Repository) (id : TypeId) (name : String) : Option TypeId :=
  (r.subTypes id).find? fun s => ((r.complex? s).map (·.name)) == some name

/-- Where the next step starts if the field has the type `declared`, called
`declaredName`, and the step names `typeOverride`. -/
def narrow (r : Repository) (declared : TypeId) (declaredName : String) :
    Option String → TypeId × List Event
  | none => (declared, [])
  | some requested =>
    if requested = declaredName then (declared, [])
    else match r.subTypeNamed? declared requested with
      | some subType => (subType, [])
      | none => (declared, [.unknownSubType requested declaredName])

/-- The field that a step names at `current`, and the subtype that it names for the
next step; `origin` is the name of the type where the whole path starts. -/
def step (r : Repository) (origin path : String) (current : TypeId) (text : String) :
    Except ModelError (Field × Option String) := do
  let step ← PathStep.parse text path
  match r.stepField? current step.field with
  | some field => return (field, step.typeOverride)
  | none => throw (.unresolvedField origin path step.field)

/-- The first step and the steps after it, followed from `current`. -/
def follow (r : Repository) (origin path : String) (current : TypeId) (text : String) :
    List String → Resolution
  | [] => { outcome := Prod.fst <$> r.step origin path current text }
  | next :: others =>
    match r.step origin path current text with
    | .error e => .failure e
    | .ok (field, typeOverride) =>
      match r.complex field.valueType with
      | .error e => .failure e
      | .ok type =>
        let (target, reports) := r.narrow field.valueType type.name typeOverride
        .after reports (r.follow origin path target next others)

/-- A path resolved from the type `id`, which is called `origin`. -/
def resolveFrom (r : Repository) (id : TypeId) (origin path : String) : Resolution :=
  if path.isEmpty then .failure (.illegalArgument .emptyPath)
  else if Path.isNested path then
    match Path.steps path with
    | [] => .failure (.unresolvedField origin path path)
    | step :: rest => r.follow origin path id step rest
  else match r.inheritedField? id path with
    | some field => { outcome := .ok field }
    | none => .failure (.unresolvedField origin path path)

/-- A path resolved from the complex type `id`. -/
def resolve (r : Repository) (id : TypeId) (path : String) : Resolution :=
  match r.complex id with
  | .error e => .failure e
  | .ok type => r.resolveFrom id type.name path

/-- The field that a path leads to from the complex type `id`. -/
def field (r : Repository) (id : TypeId) (path : String) : Except ModelError Field :=
  (r.resolve id path).outcome

end Repository

end EntityModel
