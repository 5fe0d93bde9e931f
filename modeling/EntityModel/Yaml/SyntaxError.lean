/-
Why a text is not a YAML document.
-/

namespace EntityModel.Yaml

/-- A fault in the text of a YAML document. -/
inductive SyntaxError where
  /-- A quoted scalar has no end. -/
  | unclosedQuote
  /-- A line inside a quoted scalar looks like the mark between two documents. -/
  | documentMarkInQuotes
  /-- A backslash in a quoted scalar starts no escape. -/
  | badEscape
  /-- A tab stands where a line has to be indented. -/
  | tabIndentation
  /-- Something is wrong in the line that opens a block scalar. -/
  | badBlockHeader
  /-- An anchor or an alias has no name, or something clings to the name. -/
  | badAnchor
  | badTag
  | badDirective
  /-- The character can only stand in a quoted scalar. -/
  | reservedCharacter
  /-- A mark of a block collection stands where none can start. -/
  | misplacedMark
  /-- A text in the indentation of a flow collection is not followed by a colon. -/
  | keyWanted
  /-- Flow collections are nested too deep. -/
  | tooDeep
  /-- Nothing of the text could be read. -/
  | stuck
  /-- A collection or a document cannot go on like this. -/
  | unexpectedToken
  | unknownAnchor
  | noDocument
  | severalDocuments
  deriving DecidableEq

end EntityModel.Yaml
