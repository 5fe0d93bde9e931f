/-
From a YAML text to its tokens.

Whether a text is the key of a mapping shows only at the colon after it.  So a
place where a key could start is remembered, as a candidate, and the tokens that
make it a key are inserted there when the colon comes.  A candidate is given up at
the end of its line or after 1024 characters.
-/
import EntityModel.Yaml.ScalarText
import EntityModel.Yaml.Tag
import EntityModel.Yaml.Token

namespace EntityModel.Yaml

/-- A place where a key could start. -/
structure KeyCandidate where
  /-- How many tokens come before it. -/
  place : Nat
  position : Position
  /-- It has to become a key. -/
  isRequired : Bool

/-- The state of a reading: the tokens so far and what decides about the next ones. -/
structure Tokenizer where
  cursor : Cursor
  tokens : Array Token := #[]
  /-- A key can start here. -/
  keyAllowed : Bool := true
  /-- The candidate in the innermost flow collection, or outside of all. -/
  candidate : Option KeyCandidate := none
  /-- The candidates in the flow collections around it, innermost first. -/
  outer : List (Option KeyCandidate) := []
  /-- One more than the column of the innermost block collection; zero outside of all. -/
  margin : Nat := 0
  /-- The margins of the block collections around it, innermost first. -/
  margins : List Nat := []
  /-- The place after the last quoted scalar, where a colon in a flow collection needs no
  space. -/
  quotedEnd : Nat := 0

namespace Tokenizer

/-- The cursor is inside a flow collection. -/
def inFlow (s : Tokenizer) : Bool := !s.outer.isEmpty

/-- A token is added at the end. -/
def push (s : Tokenizer) (t : Token) : Tokenizer := { s with tokens := s.tokens.push t }

/-- A token is added, and the cursor moved behind its mark. -/
def pushMark (s : Tokenizer) (t : Token) : Tokenizer :=
  { s.push t with cursor := s.cursor.drop 1 }

/-- A key can or cannot start here. -/
def allowKey (s : Tokenizer) (keyAllowed : Bool) : Tokenizer := { s with keyAllowed }

/-! ### Candidates for keys -/

/-- A candidate that has to become a key cannot be given up. -/
def giveUp : Option KeyCandidate → Except SyntaxError (Option KeyCandidate)
  | none => .ok none
  | some k => if k.isRequired then .error .keyWanted else .ok none

/-- The innermost candidate is given up. -/
def dropCandidate (s : Tokenizer) : Except SyntaxError Tokenizer := do
  return { s with candidate := ← giveUp s.candidate }

/-- A candidate that is too far behind is given up. -/
def refresh (now : Position) (k : Option KeyCandidate) : Except SyntaxError (Option KeyCandidate) :=
  if k.any fun k => k.position.line < now.line || k.position.index + 1024 < now.index then giveUp k
  else .ok k

/-- All candidates that are too far behind are given up. -/
def refreshCandidates (s : Tokenizer) : Except SyntaxError Tokenizer := do
  let now := s.cursor.position
  return { s with
    candidate := ← refresh now s.candidate
    outer := ← s.outer.mapM (refresh now) }

/-- The next token could start a key. -/
def noteCandidate (s : Tokenizer) : Except SyntaxError Tokenizer := do
  if !s.keyAllowed then return s
  let s ← s.dropCandidate
  let isRequired := s.inFlow && s.margin == s.cursor.column + 1
  return { s with candidate := some ⟨s.tokens.size, s.cursor.position, isRequired⟩ }

/-! ### Block collections -/

/-- A block collection is opened by `start` if one that is indented by `column` is not
open yet; the token is inserted after `place` others. -/
def openBlock (s : Tokenizer) (column place : Nat) (start : Token) : Tokenizer :=
  if s.inFlow || column < s.margin then s
  else
    { s with
      tokens := s.tokens.insertIdxIfInBounds place start
      margin := column + 1
      margins := s.margin :: s.margins }

/-- The block collections that are left when the margin falls to `limit`, given those
around the current one. -/
def closeBlocksTo (limit : Nat) (tokens : Array Token) :
    Nat → List Nat → Array Token × Nat × List Nat
  | margin, [] => (tokens, margin, [])
  | margin, outer :: margins =>
    if limit < margin then closeBlocksTo limit (tokens.push .blockEnd) outer margins
    else (tokens, margin, outer :: margins)

/-- The block collections with a margin beyond `limit` are closed. -/
def closeBlocks (s : Tokenizer) (limit : Nat) : Tokenizer :=
  if s.inFlow then s
  else
    let (tokens, margin, margins) := closeBlocksTo limit s.tokens s.margin s.margins
    { s with tokens, margin, margins }

/-! ### Space between tokens -/

/-- Space, line breaks and comments are passed over.  A tab cannot stand where a key of a
block can start. -/
def skipSpace (s : Tokenizer) : Tokenizer :=
  if h : s.cursor.rest = [] then s
  else
    let ch := s.cursor.rest.head h
    if isBreak ch then
      skipSpace { s with cursor := s.cursor.dropBreak, keyAllowed := s.keyAllowed || !s.inFlow }
    else if ch = ' ' || (ch = '\t' && (s.inFlow || !s.keyAllowed)) then
      skipSpace { s with cursor := s.cursor.drop 1 }
    else if ch = '#' then skipSpace { s with cursor := s.cursor.drop (1 + commentLength s.cursor) }
    else s
termination_by s.cursor.rest.length
decreasing_by
  · exact Cursor.length_dropBreak_lt h
  · exact Cursor.length_drop_lt h Nat.one_pos
  · exact Cursor.length_drop_lt h (by omega)
where
  /-- How many characters a comment has after its mark. -/
  commentLength (c : Cursor) : Nat := ((c.drop 1).takeWhile fun ch => !isBreak ch).length

/-! ### Tokens -/

/-- A mark between documents or a directive: every block collection ends before it. -/
def beforeDocumentMark (s : Tokenizer) : Except SyntaxError Tokenizer := do
  return (← (s.closeBlocks 0).dropCandidate).allowKey false

/-- The start of a flow collection. -/
def openFlow (s : Tokenizer) (start : Token) : Except SyntaxError Tokenizer := do
  let s ← s.noteCandidate
  if 255 ≤ s.outer.length then throw .tooDeep
  let nested := { s with candidate := none, outer := s.candidate :: s.outer }
  return (nested.allowKey true).pushMark start

/-- The end of a flow collection. -/
def closeFlow (s : Tokenizer) (final : Token) : Except SyntaxError Tokenizer := do
  let s := (← s.dropCandidate).allowKey false
  match s.outer with
  | [] => return s.pushMark final
  | candidate :: outer => return { s with candidate, outer }.pushMark final

/-- The comma in a flow collection. -/
def flowEntry (s : Tokenizer) : Except SyntaxError Tokenizer := do
  return ((← s.dropCandidate).allowKey true).pushMark .flowEntry

/-- A mark of a block collection that is opened by `start`: it stands where a key could. -/
def blockMark (s : Tokenizer) (start : Token) : Except SyntaxError Tokenizer :=
  if s.keyAllowed then .ok (s.openBlock s.cursor.column s.tokens.size start)
  else .error .misplacedMark

/-- The mark of an item of a block sequence. -/
def blockEntry (s : Tokenizer) : Except SyntaxError Tokenizer := do
  if s.inFlow then throw .misplacedMark
  let s ← (← s.blockMark .blockSequenceStart).dropCandidate
  return (s.allowKey true).pushMark .blockEntry

/-- The mark of a key. -/
def explicitKey (s : Tokenizer) : Except SyntaxError Tokenizer := do
  let s ← if s.inFlow then .ok s else s.blockMark .blockMappingStart
  return ((← s.dropCandidate).allowKey !s.inFlow).pushMark .key

/-- The colon before a value.  It makes the candidate a key, if there is one. -/
def value (s : Tokenizer) : Except SyntaxError Tokenizer :=
  match s.candidate with
  | some k =>
    -- the key stands before what was read since; a mapping that it opens, before the key
    let s := { s with candidate := none, tokens := s.tokens.insertIdxIfInBounds k.place .key }
    let s := s.openBlock k.position.column k.place .blockMappingStart
    .ok ((s.allowKey false).pushMark .value)
  | none => do
    let s ← if s.inFlow then .ok s else s.blockMark .blockMappingStart
    return (s.allowKey !s.inFlow).pushMark .value

/-- An anchor or an alias. -/
def anchor (s : Tokenizer) (token : String → Token) : Except SyntaxError Tokenizer := do
  let s := (← s.noteCandidate).allowKey false
  let (name, cursor) ← anchorName s.cursor
  return { s.push (token name) with cursor }

/-- A tag. -/
def tag (s : Tokenizer) : Except SyntaxError Tokenizer := do
  let s := (← s.noteCandidate).allowKey false
  let (tag, cursor) ← Yaml.tag s.cursor
  return { s.push (.tag tag) with cursor }

/-- A quoted scalar. -/
def quoted (s : Tokenizer) (quote : Char) : Except SyntaxError Tokenizer := do
  let s := (← s.noteCandidate).allowKey false
  let reading ← quotedScalar quote s.cursor
  return { s.push (.scalar reading.text false) with
    cursor := reading.cursor, quotedEnd := reading.cursor.position.index }

/-- A block scalar; a key can start after it. -/
def block (s : Tokenizer) (folded : Bool) : Except SyntaxError Tokenizer := do
  let s := (← s.noteCandidate).allowKey true
  let reading ← blockScalar folded s.margin s.cursor
  return { s.push (.scalar reading.text false) with cursor := reading.cursor }

/-- A plain scalar; a key can start after it in a new line. -/
def plain (s : Tokenizer) : Except SyntaxError Tokenizer := do
  let s := (← s.noteCandidate).allowKey false
  let reading ← plainScalar s.margin s.inFlow s.cursor
  return { s.push (.scalar reading.text true) with
    cursor := reading.cursor, keyAllowed := reading.endsLine }

/-- A colon is followed by a value. -/
def atValue (s : Tokenizer) : Bool :=
  let next := s.cursor.second?
  endsWord next ||
    (s.inFlow && (next.any isFlowMark || s.cursor.position.index == s.quotedEnd))

/-- The token that starts with `first`, at the cursor. -/
def token (s : Tokenizer) (first : Char) : Except SyntaxError Tokenizer :=
  let apart := endsWord s.cursor.second?
  match first with
  | '[' => s.openFlow .flowSequenceStart
  | '\x7b' => s.openFlow .flowMappingStart
  | ']' => s.closeFlow .flowSequenceEnd
  | '\x7d' => s.closeFlow .flowMappingEnd
  | ',' => s.flowEntry
  | '-' => if apart then s.blockEntry else s.plain
  | '?' => if apart then s.explicitKey else s.plain
  | ':' => if s.atValue then s.value else s.plain
  | '*' => s.anchor .alias
  | '&' => s.anchor .anchor
  | '!' => s.tag
  | '|' => if s.inFlow then s.plain else s.block false
  | '>' => if s.inFlow then s.plain else s.block true
  | '\'' => s.quoted '\''
  | '"' => s.quoted '"'
  | '%' | '@' | '\x60' => .error .reservedCharacter
  | _ => s.plain

/-- A mark at the start of a line that concerns whole documents. -/
def documentMark? (s : Tokenizer) : Option (Except SyntaxError Tokenizer) :=
  let mark (token : Token) : Except SyntaxError Tokenizer := do
    let s ← s.beforeDocumentMark
    return { s.push token with cursor := s.cursor.drop 3 }
  if s.cursor.column == 0 && s.cursor.peek? == some '%' then some do
    let s ← s.beforeDocumentMark
    return { s.push .directive with cursor := ← directive s.cursor }
  else if s.cursor.atMark '-' then some (mark .documentStart)
  else if s.cursor.atMark '.' then some (mark .documentEnd)
  else none

/-- The space before the next token is passed over, and with it what ends there. -/
def approach (s : Tokenizer) : Except SyntaxError Tokenizer := do
  let s ← s.skipSpace.refreshCandidates
  return s.closeBlocks (s.cursor.column + 1)

/-- The end of the text: all block collections end. -/
def finish (s : Tokenizer) : Except SyntaxError (Array Token) := do
  let s ← (s.closeBlocks 0).dropCandidate
  return s.tokens.push .textEnd

/-- The tokens of the rest of the text, after those so far. -/
def run (s : Tokenizer) : Except SyntaxError (Array Token) := do
  let ready ← s.approach
  match ready.cursor.peek? with
  | none => ready.finish
  | some first =>
    let next ← (ready.documentMark?.getD (ready.token first))
    -- every token takes at least one character
    if next.cursor.rest.length < s.cursor.rest.length then run next else throw .stuck
termination_by s.cursor.rest.length

end Tokenizer

/-- The tokens of a text, up to its first null character. -/
def tokens (text : String) : Except SyntaxError (List Token) := do
  return (← Tokenizer.run { cursor := .ofText text }).toList

end EntityModel.Yaml
