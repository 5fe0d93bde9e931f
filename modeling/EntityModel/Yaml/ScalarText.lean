/-
The text of YAML scalars.

A scalar is plain, quoted or a block of lines.  In the first two styles a single
line break between two words counts as a space, and of several all but the first
count as they are; a block keeps its lines or folds them in a similar way.

Each reading returns the text with the cursor after it.
-/
import EntityModel.Yaml.Cursor
import EntityModel.Yaml.SyntaxError

namespace EntityModel.Yaml

/-! ### Space between words -/

/-- The space between two words of a scalar that may run over several lines. -/
structure Interval where
  /-- The gap before the first line break. -/
  gap : List Char := []
  breaks : Nat := 0
  /-- The interval starts with a line break that is escaped. -/
  escaped : Bool := false

namespace Interval

/-- What an interval contributes to the text. -/
def text (i : Interval) : List Char :=
  if i.escaped then .replicate i.breaks '\n'
  else match i.breaks with
    | 0 => i.gap
    | 1 => [' ']
    | n + 2 => .replicate (n + 1) '\n'

/-- The interval goes over to another line. -/
def breaksLine (i : Interval) : Bool := i.escaped || 0 < i.breaks

/-- A space or a tab more: it counts only in the line where the interval starts. -/
def addGap (i : Interval) (c : Char) : Interval :=
  if i.breaksLine then i else { i with gap := i.gap ++ [c] }

/-- A line break more. -/
def addBreak (i : Interval) : Interval := { i with breaks := i.breaks + 1 }

end Interval

/-- A scalar's text and what follows it. -/
structure ScalarReading where
  text : String
  cursor : Cursor
  /-- Line breaks were read after the text. -/
  endsLine : Bool := false

/-! ### Plain scalars -/

/-- A plain scalar ends before this character, although no space stands here. -/
def endsPlain (inFlow : Bool) (c : Cursor) : Bool :=
  match c.peek? with
  | none => true
  | some ':' => endsWord c.second? || (inFlow && c.second?.any isFlowMark)
  | some ch => inFlow && isFlowMark ch

/-- No word of a plain scalar starts here: the line is not indented enough, a document
mark or a comment starts. -/
def endsPlainLine (margin : Nat) (inFlow : Bool) (c : Cursor) : Bool :=
  (!inFlow && c.column < margin) || c.atDocumentMark || c.peek? == some '#'

/-- The rest of a plain scalar after `text` and the interval `i`.  In a block, the lines
after the first start at the column `margin` or after it. -/
def plainRest (margin : Nat) (inFlow : Bool) (text : List Char) (i : Interval) (c : Cursor) :
    Except SyntaxError ScalarReading :=
  let done : ScalarReading := ⟨.ofList text, c, i.breaksLine⟩
  if h : c.rest = [] then .ok done
  else
    let ch := c.rest.head h
    if isBreak ch then plainRest margin inFlow text i.addBreak c.dropBreak
    else if isGap ch then
      if ch = '\t' && i.breaksLine && c.column < margin then .error .tabIndentation
      else plainRest margin inFlow text (i.addGap ch) (c.drop 1)
    else
      let wordStarts := i.breaksLine || !i.gap.isEmpty
      if (wordStarts && endsPlainLine margin inFlow c) || endsPlain inFlow c then .ok done
      else plainRest margin inFlow (text ++ i.text ++ [ch]) {} (c.drop 1)
termination_by c.rest.length
decreasing_by
  · exact Cursor.length_dropBreak_lt h
  · exact Cursor.length_drop_lt h Nat.one_pos
  · exact Cursor.length_drop_lt h Nat.one_pos

/-- A plain scalar. -/
def plainScalar (margin : Nat) (inFlow : Bool) (c : Cursor) : Except SyntaxError ScalarReading :=
  plainRest margin inFlow [] {} c

/-! ### Quoted scalars -/

/-- The character that an escape of one letter stands for. -/
def escapedChar? : Char → Option Char
  | '0' => some '\x00'
  | 'a' => some '\x07'
  | 'b' => some '\x08'
  | 't' => some '\t'
  | '\t' => some '\t'
  | 'n' => some '\n'
  | 'v' => some '\x0b'
  | 'f' => some '\x0c'
  | 'r' => some '\r'
  | 'e' => some '\x1b'
  | ' ' => some ' '
  | '"' => some '"'
  | '\'' => some '\''
  | '\\' => some '\\'
  | 'N' => some '\u0085'
  | '_' => some '\u00a0'
  | 'L' => some '\u2028'
  | 'P' => some '\u2029'
  | _ => none

/-- How many hexadecimal digits follow the letter of an escape. -/
def escapeDigits? : Char → Option Nat
  | 'x' => some 2
  | 'u' => some 4
  | 'U' => some 8
  | _ => none

/-- The character that an escape stands for, given what follows the backslash, and how
many characters that takes. -/
def escape? (after : List Char) : Option (Char × Nat) :=
  match after with
  | [] => none
  | letter :: rest =>
    match escapeDigits? letter with
    | none => (escapedChar? letter).map (·, 1)
    | some count =>
      if rest.length < count then none
      else ((hexNumber? (rest.take count)).bind charOfCode?).map (·, count + 1)

/-- The rest of a quoted scalar after `text` and the interval `i`. -/
def quotedRest (quote : Char) (text : List Char) (i : Interval) (c : Cursor) :
    Except SyntaxError ScalarReading :=
  if h : c.rest = [] then .error .unclosedQuote
  else
    let ch := c.rest.head h
    let before := text ++ i.text
    if isBreak ch then quotedRest quote text i.addBreak c.dropBreak
    else if isGap ch then quotedRest quote text (i.addGap ch) (c.drop 1)
    -- a word starts here, or goes on
    else if c.atDocumentMark then .error .documentMarkInQuotes
    else if ch = quote then
      if quote = '\'' && c.second? = some '\'' then
        quotedRest quote (before ++ ['\'']) {} (c.drop 2)
      else .ok ⟨.ofList before, c.drop 1, false⟩
    else if quote = '"' && ch = '\\' then
      if c.second?.any isBreak then
        quotedRest quote before { escaped := true } (c.drop (1 + (c.drop 1).breakLength))
      else match escape? (c.rest.drop 1) with
        | some (escaped, count) => quotedRest quote (before ++ [escaped]) {} (c.drop (1 + count))
        | none => .error .badEscape
    else quotedRest quote (before ++ [ch]) {} (c.drop 1)
termination_by c.rest.length
decreasing_by
  · exact Cursor.length_dropBreak_lt h
  · exact Cursor.length_drop_lt h Nat.one_pos
  · exact Cursor.length_drop_lt h Nat.two_pos
  · exact Cursor.length_drop_lt h (by omega)
  · exact Cursor.length_drop_lt h (by omega)
  · exact Cursor.length_drop_lt h Nat.one_pos

/-- A scalar in quotes; the cursor is at the first of them. -/
def quotedScalar (quote : Char) (c : Cursor) : Except SyntaxError ScalarReading :=
  quotedRest quote [] {} (c.drop 1)

/-! ### Block scalars -/

/-- What becomes of the line breaks at the end of a block. -/
inductive Chomping where
  | strip
  | clip
  | keep

namespace Chomping

/-- The mark of a treatment other than the usual one. -/
def ofMark? : Char → Option Chomping
  | '-' => some .strip
  | '+' => some .keep
  | _ => none

end Chomping

/-- The line that opens a block. -/
structure BlockHeader where
  chomping : Chomping := .clip
  /-- How far the block is indented, if the line says so. -/
  indentation : Option Nat := none

/-- The indentation in the line that opens a block, which is not zero. -/
def indentation? (c : Char) : Except SyntaxError (Option Nat) :=
  if c = '0' then .error .badBlockHeader
  else if c.isDigit then .ok (some (c.toNat - '0'.toNat))
  else .ok none

/-- A header read after the mark of the block: at most one sign and one digit, in
either order. -/
def blockHeader (c : Cursor) : Except SyntaxError (BlockHeader × Cursor) := do
  match c.peek? with
  | none => return ({}, c)
  | some ch =>
    match Chomping.ofMark? ch with
    | some chomping =>
      match ← (c.second?.elim (.ok none) indentation? : Except SyntaxError _) with
      | some n => return (⟨chomping, some n⟩, c.drop 2)
      | none => return (⟨chomping, none⟩, c.drop 1)
    | none =>
      match ← indentation? ch with
      | none => return ({}, c)
      | some n =>
        match c.second?.bind Chomping.ofMark? with
        | some chomping => return (⟨chomping, some n⟩, c.drop 2)
        | none => return (⟨.clip, some n⟩, c.drop 1)

/-- The rest of the header's line is passed over: it may hold a comment. -/
def blockHeaderEnd (c : Cursor) : Except SyntaxError Cursor :=
  let c := (c.dropWhile isGap).dropComment
  match c.peek? with
  | none => .ok c
  | some ch => if isBreak ch then .ok c.dropBreak else .error .badBlockHeader

/-- The start of a line of a block. -/
structure LineStart where
  cursor : Cursor
  /-- How many lines without text were passed over. -/
  breaks : Nat
  /-- The furthest column that was reached. -/
  reach : Nat

/-- The next line of a block that has text.  Spaces are passed over up to the column
`indent`, or all of them if that is not known. -/
def lineStart (indent : Option Nat) (breaks reach : Nat) (c : Cursor) :
    Except SyntaxError LineStart :=
  if h : c.rest = [] then .ok ⟨c, breaks, max reach c.column⟩
  else
    let ch := c.rest.head h
    let indenting := indent.all fun n => decide (c.column < n)
    if ch = ' ' && indenting then lineStart indent breaks reach (c.drop 1)
    else if ch = '\t' && indenting then .error .tabIndentation
    else if isBreak ch then lineStart indent (breaks + 1) (max reach c.column) c.dropBreak
    else .ok ⟨c, breaks, max reach c.column⟩
termination_by c.rest.length
decreasing_by
  · exact Cursor.length_drop_lt h Nat.one_pos
  · exact Cursor.length_dropBreak_lt h

theorem length_lineStart {indent : Option Nat} {breaks reach : Nat} {c : Cursor} {s : LineStart}
    (found : lineStart indent breaks reach c = .ok s) :
    s.cursor.rest.length ≤ c.rest.length := by
  fun_induction lineStart indent breaks reach c with
  | case1 => cases found; exact Nat.le_refl _
  | case2 _ _ c h _ _ _ ih => exact Nat.le_trans (ih found) (Cursor.length_drop_le _ _)
  | case3 => cases found
  | case4 _ _ c h _ _ _ _ _ ih => exact Nat.le_trans (ih found) (Cursor.length_drop_le _ _)
  | case5 => cases found; exact Nat.le_refl _

/-- The text of a block as far as it has been read. -/
structure BlockText where
  text : List Char := []
  /-- The last line ended with a line break. -/
  lineBroken : Bool := false
  /-- How many lines without text followed it. -/
  breaks : Nat := 0
  /-- The last line started with a space or a tab. -/
  indented : Bool := false

namespace BlockText

/-- What stands between the lines so far and a line that starts with `first`. -/
def separator (b : BlockText) (folded : Bool) (first : Char) : List Char :=
  let joined :=
    if !b.lineBroken then []
    else if folded && !b.indented && !isGap first then (if b.breaks = 0 then [' '] else [])
    else ['\n']
  joined ++ .replicate b.breaks '\n'

/-- The line breaks that are kept at the end. -/
def tail (b : BlockText) (chomping : Chomping) : List Char :=
  let last := if b.lineBroken then ['\n'] else []
  match chomping with
  | .strip => []
  | .clip => last
  | .keep => last ++ .replicate b.breaks '\n'

end BlockText

/-- The lines of a block that is indented by `indent`, after what was read before. -/
def blockLines (folded : Bool) (indent : Nat) (b : BlockText) (c : Cursor) :
    Except SyntaxError (BlockText × Cursor) :=
  if h : c.rest = [] then .ok (b, c)
  else if c.column ≠ indent then .ok (b, c)
  else
    let first := c.rest.head h
    let line := c.takeWhile fun ch => !isBreak ch
    let text := b.text ++ b.separator folded first ++ line
    -- a last line without a line break ends the block
    let after := c.drop line.length
    if hAfter : after.rest = [] then .ok ({ text }, after)
    else match found : lineStart (some indent) 0 0 after.dropBreak with
      | .error e => .error e
      | .ok start =>
        have : start.cursor.rest.length < c.rest.length :=
          Nat.lt_of_lt_of_le
            (Nat.lt_of_le_of_lt (length_lineStart found) (Cursor.length_dropBreak_lt hAfter))
            (Cursor.length_drop_le c line.length)
        blockLines folded indent ⟨text, true, start.breaks, isGap first⟩ start.cursor
termination_by c.rest.length

/-- A block scalar; the cursor is at its mark.  It is indented by at least `margin` and
at least one column. -/
def blockScalar (folded : Bool) (margin : Nat) (c : Cursor) : Except SyntaxError ScalarReading := do
  let (header, c) ← blockHeader (c.drop 1)
  let c ← blockHeaderEnd c
  let known := header.indentation.map (margin - 1 + ·)
  let start ← lineStart known 0 0 c
  let indent := known.getD (max start.reach (max margin 1))
  let (b, c) ← blockLines folded indent { breaks := start.breaks } start.cursor
  return ⟨.ofList (b.text ++ b.tail header.chomping), c, false⟩

end EntityModel.Yaml
