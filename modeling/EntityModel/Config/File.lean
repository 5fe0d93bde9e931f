/-
Configurations in YAML files.

Once a configuration has been read, its placeholders are replaced.
-/
import EntityModel.Config.Placeholder
import EntityModel.Yaml.OpenDocument

namespace EntityModel.Config

/-- A configuration read from a YAML text. -/
def ofYaml (env : Environment) (text : String) : Except ConfigError Config := do
  let c ← (Document.decodeYaml text Config.decode).mapError .malformed
  c.expanded env

/-- A configuration read from what a file holds, if it exists. -/
def ofFile (env : Environment) (content : Option ByteArray) : Except ConfigError Config :=
  match content with
  | none => .error .unreadableFile
  | some bytes =>
    match String.fromUTF8? bytes with
    | some text => ofYaml env text
    | none => .error (.malformed .malformed)

end EntityModel.Config
