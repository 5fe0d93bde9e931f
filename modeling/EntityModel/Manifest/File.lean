/-
Manifests in YAML files.
-/
import EntityModel.Manifest
import EntityModel.Yaml.OpenDocument

namespace EntityModel

/-- Why a manifest cannot be read. -/
inductive ManifestError where
  /-- The file does not exist or does not hold text. -/
  | unreadableFile
  /-- The text is no manifest. -/
  | malformed (cause : DecodeError)
  deriving DecidableEq

namespace Manifest

/-- A manifest read from a YAML text. -/
def ofYaml (text : String) : Except ManifestError Manifest :=
  (Document.decodeYaml text Manifest.decode).mapError .malformed

/-- A manifest read from what a file holds, if it exists. -/
def ofFile (content : Option ByteArray) : Except ManifestError Manifest :=
  match content.bind String.fromUTF8? with
  | some text => ofYaml text
  | none => .error .unreadableFile

/-- The manifest with one more type at its end. -/
def addType (m : Manifest) (e : TypeEntry) : Manifest := { m with types := m.types ++ [e] }

end Manifest

end EntityModel
