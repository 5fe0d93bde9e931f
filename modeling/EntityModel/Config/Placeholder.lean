/-
Environment variables in a configuration.

A value that starts with a dollar sign stands for the value of an environment
variable, written `$NAME` or `${NAME}` with a name that is not empty and has no
braces.  The values are replaced in a fixed order; the first that cannot be
replaced is an error, and what was replaced before stays replaced.
-/
import EntityModel.Config
import EntityModel.Config.Environment

namespace EntityModel

/-- Why a configuration cannot be used. -/
inductive ConfigError where
  /-- The environment variable is not set to a text. -/
  | unsetVariable (cause : VariableError)
  /-- The text starts with a dollar sign and is no placeholder. -/
  | invalidPlaceholder (text : String)
  | unreadableFile
  /-- The text is no configuration. -/
  | malformed (cause : DecodeError)

/-- The error in words; the last two are told by their kind alone. -/
def ConfigError.message : ConfigError → String
  | .unsetVariable cause => s!"Error parsing env variables from config: {cause.spelled}"
  | .invalidPlaceholder text =>
    s!"Invalid environment variable reference in config: {Text.quoted text}"
  | .unreadableFile => "Error processing file"
  | .malformed _ => "Error processing YAML file"

namespace Placeholder

/-- The value is meant as a placeholder. -/
def isPlaceholder (value : String) : Bool := value.toList.head? == some '$'

/-- A text without the closing brace at its end. -/
def beforeBrace? (text : List Char) : Option (List Char) :=
  if text.getLast? = some '\x7d' then some text.dropLast else none

/-- What stands for the name in a placeholder, which may still have braces. -/
def rawName? : List Char → Option (List Char)
  | '$' :: '\x7b' :: rest => beforeBrace? rest
  | '$' :: rest => some rest
  | _ => none

/-- The characters can be the name of a variable in a placeholder. -/
def isName (name : List Char) : Bool :=
  !name.isEmpty && name.all fun c => c != '\x7b' && c != '\x7d'

/-- The name of the variable that a placeholder stands for. -/
def name (value : String) : Except ConfigError String :=
  match rawName? value.toList with
  | some name => if isName name then .ok (.ofList name) else .error (.invalidPlaceholder value)
  | none => .error (.invalidPlaceholder value)

/-- A value of the configuration with its placeholder replaced.  The result is not
looked at again. -/
def expand (env : Environment) (value : String) : Except ConfigError String :=
  if isPlaceholder value then
    match name value with
    | .error e => .error e
    | .ok name =>
      match env.read name with
      | .ok result => .ok result
      | .error e => .error (.unsetVariable e)
  else .ok value

end Placeholder

namespace Config

/-- One value of a configuration with its placeholder replaced. -/
def expandAt (env : Environment) (read : Config → String) (write : Config → String → Config) :
    EStateM ConfigError Config Unit := fun c =>
  match Placeholder.expand env (read c) with
  | .ok value => .ok () (write c value)
  | .error e => .error e c

/-- The placeholders of a configuration replaced, in order. -/
def expand (env : Environment) : EStateM ConfigError Config Unit := do
  expandAt env (·.logLevel) fun c v => { c with logLevel := v }
  expandAt env (·.defaultLocale) fun c v => { c with defaultLocale := v }
  expandAt env (·.schema.builtinNamespace) fun c v =>
    { c with schema := { c.schema with builtinNamespace := v } }
  expandAt env (·.schema.defaultNamespace) fun c v =>
    { c with schema := { c.schema with defaultNamespace := v } }

/-- A configuration with all its placeholders replaced. -/
def expanded (env : Environment) (c : Config) : Except ConfigError Config :=
  match (expand env).run c with
  | .ok _ c => .ok c
  | .error e _ => .error e

end Config

end EntityModel
