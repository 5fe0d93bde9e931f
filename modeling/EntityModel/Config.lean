/-
The configuration of a metadata model.

It says in which namespaces types are registered, for which locale plain labels
count, and how much is logged.  It is written as JSON with all its members and
read from any document; what is left out keeps its default.
-/
import EntityModel.Manifest
import EntityModel.Name

namespace EntityModel

/-- The namespaces used when a repository is filled. -/
structure SchemaConfig where
  /-- The namespace of the built-in types. -/
  builtinNamespace : String := "http://www.w3.org/2001/XMLSchema"
  /-- The namespace of the manifest types that do not have one. -/
  defaultNamespace : String := ""
  deriving DecidableEq

/-- The configuration of a metadata model. -/
structure Config where
  logLevel : String := "info"
  /-- The model reports its own steps whatever the log level. -/
  verbose : Bool := false
  defaultLocale : Locale := "en"
  schema : SchemaConfig := {}
  deriving DecidableEq

namespace SchemaConfig

/-- The namespaces as JSON. -/
def toJson (c : SchemaConfig) : Json := .ofMembers
  [("builtin_namespace", some (.string c.builtinNamespace)),
   ("default_namespace", some (.string c.defaultNamespace))]

open Decode in
/-- The namespaces read from a node. -/
def decode (node : Node) : Decode SchemaConfig := do
  let m ← record ["builtin_namespace", "default_namespace"] node
  let standard : SchemaConfig := {}
  return {
    builtinNamespace := ← withDefault m "builtin_namespace" text standard.builtinNamespace
    defaultNamespace := ← withDefault m "default_namespace" text standard.defaultNamespace }

/-- The namespaces read from JSON. -/
def ofJson (json : Json) : Except DecodeError SchemaConfig := (Document.ofJson json).decode decode

end SchemaConfig

namespace Config

/-- The configuration as JSON. -/
def toJson (c : Config) : Json := .ofMembers
  [("log_level", some (.string c.logLevel)),
   ("verbose", some (.bool c.verbose)),
   ("default_locale", some (.string c.defaultLocale)),
   ("schema", some c.schema.toJson)]

open Decode in
/-- A configuration read from a node. -/
def decode (node : Node) : Decode Config := do
  let m ← record ["log_level", "verbose", "default_locale", "schema"] node
  let standard : Config := {}
  return {
    logLevel := ← withDefault m "log_level" text standard.logLevel
    verbose := ← withDefault m "verbose" bool standard.verbose
    defaultLocale := ← withDefault m "default_locale" text standard.defaultLocale
    schema := ← withDefault m "schema" SchemaConfig.decode standard.schema }

/-- A configuration read from JSON. -/
def ofJson (json : Json) : Except DecodeError Config := (Document.ofJson json).decode decode

end Config

end EntityModel
