/-
Sessions.

A session works on one repository and can go back to earlier states of it.
-/
import EntityModel.Operation
import EntityModel.Text.Quoted

namespace EntityModel

/-- A repository that is worked on, and its saved states, the last one first. -/
structure Session where
  repository : Repository
  saved : List Repository := []

namespace Session

/-- A session that starts with the built-in types. -/
def start (c : SchemaConfig) : Session := { repository := .initial c.builtinNamespace }

/-- What came of an operation, what it reported, and the session after it. -/
structure Step where
  outcome : Except ModelError Answer
  events : List Event
  session : Session

/-- An operation carried out.  If it fails, what it changed before is kept. -/
def perform (s : Session) (operation : Operation) : Step :=
  match operation.run.run { repository := s.repository } with
  | .ok answer m => ⟨.ok answer, m.events, { s with repository := m.repository }⟩
  | .error e m => ⟨.error e, m.events, { s with repository := m.repository }⟩

/-- The state of the repository is saved. -/
def save (s : Session) : Session := { s with saved := s.repository :: s.saved }

/-- The state that was saved last is restored, if there is one. -/
def restore (s : Session) : Session :=
  match s.saved with
  | [] => s
  | repository :: saved => { repository, saved }

end Session

/-! ### How a type is shown with its handle -/

/-- The handle, spelled out. -/
def TypeId.spelled (id : TypeId) : String := s!"TypeId({id.index})"

/-- The name, spelled out. -/
def QualifiedName.spelled (q : QualifiedName) : String :=
  s!"QualifiedName \x7b namespace: {Text.quoted q.ns}, name: {Text.quoted q.name} \x7d"

/-- A type with its handle, spelled out. -/
def ComplexType.spelled (t : ComplexType) (id : TypeId) : String :=
  s!"ComplexTypeRef \x7b id: {id.spelled}, name: {t.qualifiedName.spelled} \x7d"

end EntityModel
