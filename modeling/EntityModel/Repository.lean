/-
The repository of the types of a model.

Types live at fixed places and refer to each other by handle.  Registered types
are also found by their qualified name; copies are not.  Every operation here
either succeeds or leaves the repository as it was.
-/
import EntityModel.TypeNode

namespace EntityModel

/-- The registered types by qualified name; of several entries the first counts. -/
structure NameIndex where
  entries : List (QualifiedName × TypeId) := []

namespace NameIndex

/-- The type registered as `name`. -/
def find? (index : NameIndex) (name : QualifiedName) : Option TypeId :=
  (index.entries.find? fun e => e.1 == name).map Prod.snd

/-- The index without `name`. -/
def erase (index : NameIndex) (name : QualifiedName) : NameIndex :=
  ⟨index.entries.filter fun e => e.1 != name⟩

/-- The index with `name` leading to `id` alone. -/
def insert (index : NameIndex) (name : QualifiedName) (id : TypeId) : NameIndex :=
  ⟨(name, id) :: (index.erase name).entries⟩

theorem find?_erase (index : NameIndex) (name other : QualifiedName) :
    (index.erase name).find? other = if other = name then none else index.find? other := by
  simp only [find?, erase, List.find?_filter]
  by_cases same : other = name
  · subst same
    simp
  · rw [if_neg same]
    congr 2
    funext e
    by_cases h : e.1 = other
    · simp [h, same]
    · simp [h]

theorem find?_insert (index : NameIndex) (name other : QualifiedName) (id : TypeId) :
    (index.insert name id).find? other = if other = name then some id else index.find? other := by
  by_cases same : other = name
  · subst same
    simp [insert, find?]
  · have rest := find?_erase index name other
    simp only [find?] at rest ⊢
    simp [insert, same, Ne.symm same, rest]

end NameIndex

/-- The types of a model. -/
structure Repository where
  types : Array TypeNode := #[]
  names : NameIndex := {}
  /-- The namespace of the built-in types. -/
  builtinNamespace : String

namespace Repository

/-- The handle that the next type gets. -/
def nextId (r : Repository) : TypeId := ⟨r.types.size⟩

/-- The handles of all types, in order. -/
def ids (r : Repository) : List TypeId := (List.range r.types.size).map TypeId.mk

/-- The type at `id`, if there is one. -/
def get? (r : Repository) (id : TypeId) : Option TypeNode := r.types[id.index]?

/-- The type at `id`. -/
def get (r : Repository) (id : TypeId) : Except ModelError TypeNode :=
  match r.get? id with
  | some t => .ok t
  | none => .error (.unknownType id)

/-- The complex type at `id`, if there is one. -/
def complex? (r : Repository) (id : TypeId) : Option ComplexType := (r.get? id).bind (·.complex?)

theorem mem_ids_of_complex? {r : Repository} {id : TypeId} {t : ComplexType}
    (h : r.complex? id = some t) : id ∈ r.ids := by
  have found : id.index < r.types.size := by
    rcases Nat.lt_or_ge id.index r.types.size with lt | ge
    · exact lt
    · simp [complex?, get?, Array.getElem?_eq_none ge] at h
  exact List.mem_map.2 ⟨id.index, List.mem_range.2 found, rfl⟩

/-- The complex type at `id`. -/
def complex (r : Repository) (id : TypeId) : Except ModelError ComplexType :=
  match r.get? id with
  | some (.complex t) => .ok t
  | some (.simple t) => .error (.notComplex t.name)
  | none => .error (.unknownType id)

/-- The type registered as `name` in the namespace `ns`. -/
def lookup (r : Repository) (ns name : String) : Option TypeId := r.names.find? ⟨ns, name⟩

/-- The handle of a built-in type. -/
def builtin (r : Repository) (type : BuiltinType) : Except ModelError TypeId :=
  match r.lookup r.builtinNamespace type.name with
  | some id => .ok id
  | none => .error (.illegalArgument (.unregisteredBuiltin type))

/-- The type at `id` replaced; nothing happens where there is none. -/
def set (r : Repository) (id : TypeId) (t : TypeNode) : Repository :=
  { r with types := r.types.setIfInBounds id.index t }

/-- The complex type at `id` changed by `f`; nothing happens to other types. -/
def adjust (r : Repository) (id : TypeId) (f : ComplexType → ComplexType) : Repository :=
  match r.complex? id with
  | some t => r.set id (.complex (f t))
  | none => r

/-- The complex type at `id` changed by `f`, which may refuse. -/
def modify (r : Repository) (id : TypeId) (f : ComplexType → Except ModelError ComplexType) :
    Except ModelError Repository := do
  return r.set id (.complex (← f (← r.complex id)))

/-- A type is added without being registered. -/
def push (r : Repository) (t : TypeNode) : Repository := { r with types := r.types.push t }

/-- A type is added under its name, which must be free. -/
def register (r : Repository) (t : TypeNode) : Except ModelError Repository :=
  match r.names.find? t.qualifiedName with
  | some _ => .error (.duplicateType t.qualifiedName)
  | none =>
    .ok { r.push t with names := r.names.insert t.qualifiedName r.nextId }

/-- A built-in type is added; it takes over its name. -/
def pushBuiltin (r : Repository) (type : BuiltinType) : Repository :=
  let t := TypeNode.simple (.builtin r.builtinNamespace type)
  { r.push t with names := r.names.insert t.qualifiedName r.nextId }

/-- The repository of the built-in types alone, in the given namespace. -/
def initial (builtinNamespace : String) : Repository :=
  BuiltinType.all.foldl pushBuiltin { builtinNamespace }

/-- A super type of any type is declared. -/
def addSuperType (r : Repository) (id superType : TypeId) : Except ModelError Repository := do
  return r.set id (← (← r.get id).addSuperType superType)

/-- A type that is being built gets another name.  If it is registered, it is
found under the new name from now on, which it takes over. -/
def rename (r : Repository) (id : TypeId) (name : String) : Except ModelError Repository := do
  let old ← r.complex id
  let new ← old.rename name
  let r := r.set id (.complex new)
  if r.names.find? old.qualifiedName = some id then
    return { r with names := (r.names.erase old.qualifiedName).insert new.qualifiedName id }
  else return r

end Repository

end EntityModel
