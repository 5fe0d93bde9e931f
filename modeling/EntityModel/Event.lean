/-
What an operation reports while it runs.

Events are values; `Event.level` and `Event.message` say how a log shows them.
-/
import EntityModel.Name

namespace EntityModel

/-- How severe an event is, the most severe first. -/
inductive Level where
  | error
  | warn
  | info
  | debug
  | trace
  deriving DecidableEq

/-- The word for a level in a log. -/
def Level.name : Level → String
  | .error => "ERROR"
  | .warn => "WARN"
  | .info => "INFO"
  | .debug => "DEBUG"
  | .trace => "TRACE"

/-- Something that an operation reports. -/
inductive Event where
  /-- A type was frozen, with these many fields, keys and super types. -/
  | froze (type : QualifiedName) (fields keys superTypes : Nat)
  /-- A type was copied. -/
  | copied (type : QualifiedName) (copy : TypeId)
  /-- The types of a manifest were built. -/
  | built (count : Nat) (ns : String)
  /-- A super type was dropped because it differs from `type` in being instantiable. -/
  | droppedSuperType (superType type : QualifiedName) (instantiable expected : Bool)
  /-- A path names a subtype that does not exist; the declared type is used. -/
  | unknownSubType (requested declared : String)
  deriving DecidableEq

namespace Event

/-- How severe the event is. -/
def level : Event → Level
  | .froze .. | .copied .. | .built .. => .debug
  | .droppedSuperType .. => .warn
  | .unknownSubType .. => .error

/-- The event in words. -/
def message : Event → String
  | .froze type fields keys superTypes =>
    s!"Froze type {type.display} ({fields} fields, {keys} keys, {superTypes} super types)."
  | .copied type copy => s!"Copied type {type.display} to {copy.display}."
  | .built count ns => s!"Built {count} types from model manifest (namespace '{ns}')."
  | .droppedSuperType superType type instantiable expected =>
    s!"Dropped super type {superType.display} of {type.display}: " ++
      s!"instantiable is {instantiable} (expected {expected})."
  | .unknownSubType requested declared =>
    s!"Type '{requested}' does not exist. Assuming '{declared}' has field type."

/-- The event as a line of a log. -/
def line (e : Event) : String := s!"{e.level.name} {e.message}"

end Event

end EntityModel
