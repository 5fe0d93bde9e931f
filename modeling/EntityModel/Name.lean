/-
Handles and names of types.

A type is referred to by its place in the repository (`TypeId`) and known by its
namespace and name (`QualifiedName`).  Names are ordered by namespace, then by
name, each by code point.
-/

namespace EntityModel

/-- The place of a type in its repository. -/
structure TypeId where
  index : Nat
  deriving DecidableEq, Repr, Inhabited

/-- A handle is shown as `#` and its index. -/
def TypeId.display (id : TypeId) : String := s!"#{id.index}"

/-- A locale tag, such as `en` or `zh_CN`. -/
abbrev Locale := String

/-- A namespace and a name in it: what makes a type that type. -/
structure QualifiedName where
  ns : String
  name : String
  deriving DecidableEq, Repr, Inhabited

namespace QualifiedName

/-- The name in brackets, after its namespace unless that is empty. -/
def display (q : QualifiedName) : String :=
  if q.ns.isEmpty then s!"[{q.name}]" else s!"[{q.ns}:{q.name}]"

/-- Namespaces are compared first. -/
def compare (p q : QualifiedName) : Ordering :=
  (Ord.compare p.ns q.ns).then (Ord.compare p.name q.name)

end QualifiedName

end EntityModel
