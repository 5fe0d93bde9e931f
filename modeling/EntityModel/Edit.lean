/-
Operations that change a model.

An operation runs on a model — a repository and the events reported so far — and
either returns a value or fails.  Either way the model that it leaves is kept: an
operation made of several steps does not undo the steps before the one that fails.
-/
import EntityModel.Event
import EntityModel.Hierarchy

namespace EntityModel

/-- A repository and what operations on it have reported, in order. -/
structure Model where
  repository : Repository
  events : List Event := []

/-- An operation on a model. -/
abbrev Edit (α : Type) : Type := EStateM ModelError Model α

namespace Edit

/-- A question to the repository. -/
def ask {α : Type} (question : Repository → Except ModelError α) : Edit α := fun m =>
  match question m.repository with
  | .ok a => .ok a m
  | .error e => .error e m

/-- A change of the repository that cannot fail. -/
def update (change : Repository → Repository) : Edit Unit := fun m =>
  .ok () { m with repository := change m.repository }

/-- A change of the repository; if it fails, nothing has changed. -/
def attempt (change : Repository → Except ModelError Repository) : Edit Unit := fun m =>
  match change m.repository with
  | .ok r => .ok () { m with repository := r }
  | .error e => .error e m

/-- Something is reported. -/
def report (events : List Event) : Edit Unit := fun m =>
  .ok () { m with events := m.events ++ events }

/-- A type is added without being registered; its handle is returned. -/
def push (type : TypeNode) : Edit TypeId := fun m =>
  .ok m.repository.nextId { m with repository := m.repository.push type }

/-- A type is registered; its handle is returned. -/
def register (type : TypeNode) : Edit TypeId := do
  let id ← ask fun r => .ok r.nextId
  attempt (·.register type)
  return id

/-- A complex type is changed. -/
def modify (id : TypeId) (f : ComplexType → Except ModelError ComplexType) : Edit Unit :=
  attempt (·.modify id f)

/-- The field that embeds a type and all its subtypes is recorded. -/
def setContainer (id : TypeId) (container : Option ContainerRef) : Edit Unit := do
  let members ← ask fun r => .ok (r.family id)
  members.forM fun member => modify member fun t => .ok { t with container }

end Edit

end EntityModel
