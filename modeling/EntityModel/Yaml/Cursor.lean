/-
A place in a YAML text.

A cursor is the text that is still to be read, with the place where it starts.
Columns count from the last line feed: a carriage return alone ends a line
without starting a new count.

* `length_drop_lt` — moving a cursor forward leaves less to read.
-/

namespace EntityModel.Yaml

/-! ### Classes of characters -/

/-- The character separates words in a line. -/
def isGap (c : Char) : Bool := c == ' ' || c == '\t'

/-- The character ends a line. -/
def isBreak (c : Char) : Bool := c == '\n' || c == '\r'

/-- The character is not part of a word. -/
def isSpace (c : Char) : Bool := isGap c || isBreak c

/-- The character is a mark of flow collections. -/
def isFlowMark (c : Char) : Bool :=
  c == ',' || c == '[' || c == ']' || c == '\x7b' || c == '\x7d'

/-- The character can be part of the name of an anchor. -/
def isNameChar (c : Char) : Bool := c.isAlphanum || c == '-' || c == '_'

/-- No word goes on with what follows: a space, a line break or the end. -/
def endsWord : Option Char → Bool
  | none => true
  | some c => isSpace c

/-! ### Hexadecimal digits -/

/-- The value of a hexadecimal digit. -/
def hexDigit? (c : Char) : Option Nat :=
  if c.isDigit then some (c.toNat - '0'.toNat)
  else if 'a' ≤ c && c ≤ 'f' then some (c.toNat - 'a'.toNat + 10)
  else if 'A' ≤ c && c ≤ 'F' then some (c.toNat - 'A'.toNat + 10)
  else none

/-- The number that hexadecimal digits stand for. -/
def hexNumber? (digits : List Char) : Option Nat :=
  digits.foldlM (fun n c => (hexDigit? c).map (16 * n + ·)) 0

/-- The character with a code point, unless there is none. -/
def charOfCode? (code : Nat) : Option Char :=
  if code.isValidChar then some (Char.ofNat code) else none

/-! ### Cursors -/

/-- Where a character stands. -/
structure Position where
  index : Nat := 0
  line : Nat := 0
  column : Nat := 0

/-- The position after a character. -/
def Position.after (p : Position) (c : Char) : Position :=
  if c = '\n' then ⟨p.index + 1, p.line + 1, 0⟩ else ⟨p.index + 1, p.line, p.column + 1⟩

/-- The text that is still to be read. -/
structure Cursor where
  rest : List Char
  position : Position := {}

namespace Cursor

/-- The start of a text, which ends before its first null character. -/
def ofText (text : String) : Cursor := { rest := text.toList.takeWhile (· ≠ '\x00') }

/-- The next character. -/
def peek? (c : Cursor) : Option Char := c.rest.head?

/-- The character after the next one. -/
def second? (c : Cursor) : Option Char := c.rest[1]?

/-- The column of the next character. -/
def column (c : Cursor) : Nat := c.position.column

/-- The cursor after `n` characters. -/
def drop (c : Cursor) (n : Nat) : Cursor :=
  ⟨c.rest.drop n, (c.rest.take n).foldl Position.after c.position⟩

/-- How many characters the line break here consists of. -/
def breakLength (c : Cursor) : Nat := if ['\r', '\n'].isPrefixOf c.rest then 2 else 1

/-- The cursor after the line break here. -/
def dropBreak (c : Cursor) : Cursor := c.drop c.breakLength

/-- The characters from here on that `p` holds for. -/
def takeWhile (c : Cursor) (p : Char → Bool) : List Char := c.rest.takeWhile p

/-- The cursor after those characters. -/
def dropWhile (c : Cursor) (p : Char → Bool) : Cursor := c.drop (c.takeWhile p).length

/-- The cursor at the end of a comment, or here if there is none. -/
def dropComment (c : Cursor) : Cursor :=
  if c.peek? = some '#' then c.dropWhile fun ch => !isBreak ch else c

/-- The line ends here. -/
def atLineEnd (c : Cursor) : Bool :=
  match c.peek? with
  | none => true
  | some ch => isBreak ch

/-- A line starts here with three times `mark` as a word. -/
def atMark (c : Cursor) (mark : Char) : Bool :=
  c.column == 0 && [mark, mark, mark].isPrefixOf c.rest && endsWord c.rest[3]?

/-- A document starts or ends here. -/
def atDocumentMark (c : Cursor) : Bool := c.atMark '-' || c.atMark '.'

theorem length_drop_lt {c : Cursor} {n : Nat} (h : c.rest ≠ []) (hn : 0 < n) :
    (c.drop n).rest.length < c.rest.length := by
  have := List.length_pos_iff.2 h
  simp only [drop, List.length_drop]
  omega

theorem length_drop_le (c : Cursor) (n : Nat) : (c.drop n).rest.length ≤ c.rest.length := by
  simp [drop]

theorem length_dropBreak_lt {c : Cursor} (h : c.rest ≠ []) :
    c.dropBreak.rest.length < c.rest.length :=
  length_drop_lt h (by unfold breakLength; split <;> decide)

end Cursor

end EntityModel.Yaml
