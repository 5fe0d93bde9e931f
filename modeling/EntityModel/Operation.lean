/-
The operations that change a model.

`Operation` lists them, so that sequences of operations are values;
`Operation.run` carries one out.  An operation that fails keeps what it had changed
before.
-/
import EntityModel.Copy
import EntityModel.Manifest.Build

namespace EntityModel

/-- An operation on a model. -/
inductive Operation where
  /-- A type is registered as it is, be it new or taken from this or another repository: it
  may be read-only, and list types of the repository that it was taken from. -/
  | register (type : TypeNode)
  | addField (type : TypeId) (field : Field)
  | registerKey (type : TypeId) (field : Field)
  /-- A field is made from annotations, and added to the type if `isAdded`. -/
  | buildField (type : TypeId) (name : String) (contained : Bool) (annotations : Annotations)
      (isAdded : Bool)
  | addSuperType (type superType : TypeId)
  | setInstantiable (type : TypeId) (instantiable : Bool)
  | setSubTypes (type : TypeId) (subTypes : List TypeId)
  | rename (type : TypeId) (name : String)
  | registerLabel (type : TypeId) (locale : Locale) (label : String)
  | declareUsage (type usage : TypeId)
  | setContainer (type : TypeId) (container : Option ContainerRef)
  | setData (type : TypeId) (key : String) (value : Json)
  | freeze (type : TypeId)
  | freezeAll
  | copy (type : TypeId)
  | copyShallow (type : TypeId)
  /-- The types of a manifest are registered, filled and frozen. -/
  | build (manifest : Manifest) (config : Config)

/-- What an operation returns. -/
inductive Answer where
  | done
  | type (id : TypeId)
  | types (ids : List TypeId)
  | field (field : Field)

namespace Operation

/-- A new complex type is registered. -/
def addComplexType (name : QualifiedName) (instantiable : Bool) (annotations : Annotations) :
    Operation := .register (.complex (annotations.type name instantiable))

/-- A new simple type is registered. -/
def addSimpleType (name : QualifiedName) : Operation :=
  .register (.simple { qualifiedName := name })

/-- A field is made from annotations. -/
def makeField (type : TypeId) (name : String) (contained : Bool) (a : Annotations)
    (isAdded : Bool) : Edit Field := do
  let field ← Edit.ask fun _ => a.field type name contained
  if isAdded then Edit.modify type (·.addField field)
  return field

/-- The operation carried out. -/
def run : Operation → Edit Answer
  | .register type => Answer.type <$> Edit.register type
  | .addField type field => done <| Edit.modify type (·.addField field)
  | .registerKey type field => done <| Edit.modify type (·.registerKey field)
  | .buildField type name contained annotations isAdded =>
    Answer.field <$> makeField type name contained annotations isAdded
  | .addSuperType type superType => done <| Edit.attempt (·.addSuperType type superType)
  | .setInstantiable type instantiable => done <| Edit.modify type (·.setInstantiable instantiable)
  | .setSubTypes type subTypes => done <| Edit.modify type (·.setSubTypes subTypes)
  | .rename type name => done <| Edit.attempt (·.rename type name)
  | .registerLabel type locale label =>
    done <| Edit.modify type fun t => .ok (t.registerLabel locale label)
  | .declareUsage type usage => done <| Edit.modify type fun t => .ok (t.declareUsage usage)
  | .setContainer type container => done <| Edit.setContainer type container
  | .setData type key value => done <| Edit.modify type fun t => .ok (t.setData key value)
  | .freeze type => done <| Edit.freeze type
  | .freezeAll => done Edit.freezeAll
  | .copy type => Answer.type <$> Edit.copy type
  | .copyShallow type => Answer.type <$> Edit.copyShallow type
  | .build manifest config => Answer.types <$> manifest.build config
where
  /-- An operation that returns nothing. -/
  done (edit : Edit Unit) : Edit Answer := edit >>= fun _ => return .done

end Operation

end EntityModel
