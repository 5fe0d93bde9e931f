/-
The tokens of a YAML text.

Indentation shows in the tokens as the start and the end of block collections, so
what is made of them need not know about columns.
-/
import EntityModel.Document

namespace EntityModel.Yaml

/-- A token of a YAML text. -/
inductive Token where
  | directive
  | documentStart
  | documentEnd
  | textEnd
  | blockSequenceStart
  | blockMappingStart
  /-- The innermost block collection ends. -/
  | blockEnd
  | flowSequenceStart
  | flowSequenceEnd
  | flowMappingStart
  | flowMappingEnd
  /-- An item of a block sequence follows. -/
  | blockEntry
  /-- An item or an entry of a flow collection is over. -/
  | flowEntry
  /-- A key follows. -/
  | key
  /-- A value follows. -/
  | value
  | alias (name : String)
  | anchor (name : String)
  | tag (tag : Tag)
  | scalar (text : String) (isPlain : Bool)
  deriving DecidableEq

end EntityModel.Yaml
