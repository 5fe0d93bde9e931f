/-
Anchors, tags and directives.

An anchor or an alias is a name after a mark.  A tag is a handle and a suffix;
characters of the suffix may be written as octets after percent signs.  What a
directive says has no effect, but it has to be well formed.
-/
import EntityModel.Document
import EntityModel.Yaml.Cursor
import EntityModel.Yaml.SyntaxError

namespace EntityModel.Yaml

/-! ### Anchors -/

/-- The name of an anchor can be followed by this. -/
def endsAnchor (next : Option Char) : Bool :=
  endsWord next || next.any fun c => ['?', ':', ',', ']', '\x7d', '%', '@', '\x60'].contains c

/-- The name of an anchor or an alias; the cursor is at its mark. -/
def anchorName (c : Cursor) : Except SyntaxError (String × Cursor) :=
  let start := c.drop 1
  let name := start.takeWhile isNameChar
  let rest := start.drop name.length
  if name.isEmpty || !endsAnchor rest.peek? then .error .badAnchor
  else .ok (.ofList name, rest)

/-! ### Tags -/

/-- The character can be part of a tag as it is. -/
def isUriChar (c : Char) : Bool :=
  isNameChar c || [';', '/', '?', ':', '@', '&', '=', '+', '$', ',', '.', '!', '~', '*', '\'',
    '(', ')', '[', ']'].contains c

/-- The octet written at the start of a text. -/
def octet? : List Char → Option Nat
  | '%' :: high :: low :: _ => hexNumber? [high, low]
  | _ => none

/-- How many octets belong together if this is the first. -/
def octetCount? (first : Nat) : Option Nat :=
  if first < 0x80 then some 1
  else if first < 0xC0 then none
  else if first < 0xE0 then some 2
  else if first < 0xF0 then some 3
  else if first < 0xF8 then some 4
  else none

/-- The number that `count` octets form as its digits; all but the first are between
0x80 and 0xBF. -/
def octets? (code : Nat) : (count : Nat) → List Char → Option Nat
  | 0, _ => some code
  | count + 1, text => do
    let octet ← octet? text
    if octet < 0x80 || 0xC0 ≤ octet then none
    else octets? (256 * code + octet) count (text.drop 3)

/-- The character that octets stand for, and how many characters they are written with
after the first percent sign. -/
def uriEscape? (text : List Char) : Option (Char × Nat) := do
  let first ← octet? text
  let count ← octetCount? first
  let code ← octets? first (count - 1) (text.drop 3)
  return (← charOfCode? code, 3 * count - 1)

/-- The rest of a tag's suffix after `text`. -/
def uriRest (text : List Char) (c : Cursor) : Except SyntaxError (List Char × Cursor) :=
  if h : c.rest = [] then .ok (text, c)
  else
    let ch := c.rest.head h
    if ch = '%' then
      match uriEscape? c.rest with
      | some (escaped, count) => uriRest (text ++ [escaped]) (c.drop (1 + count))
      | none => .error .badTag
    else if isUriChar ch then uriRest (text ++ [ch]) (c.drop 1)
    else .ok (text, c)
termination_by c.rest.length
decreasing_by
  · exact Cursor.length_drop_lt h (by omega)
  · exact Cursor.length_drop_lt h Nat.one_pos

/-- A suffix, which may not be empty. -/
def uri (c : Cursor) : Except SyntaxError (String × Cursor) := do
  let (text, rest) ← uriRest [] c
  if text.isEmpty then throw .badTag
  return (.ofList text, rest)

/-- The handle of a tag: a name between exclamation marks, the latter of which may be
missing. -/
def tagHandle (c : Cursor) : Except SyntaxError (List Char × Cursor) :=
  if c.peek? ≠ some '!' then .error .badTag
  else
    let name := (c.drop 1).takeWhile isNameChar
    let rest := c.drop (1 + name.length)
    if rest.peek? = some '!' then .ok ('!' :: name ++ ['!'], rest.drop 1)
    else .ok ('!' :: name, rest)

/-- The handle is closed by a second exclamation mark. -/
def isClosed (handle : List Char) : Bool := 2 ≤ handle.length && handle.getLast? == some '!'

/-- A tag without its delimiters; the cursor is at its mark. -/
def tagBody (c : Cursor) : Except SyntaxError (Tag × Cursor) := do
  if c.second? = some '<' then
    let (suffix, rest) ← uri (c.drop 2)
    if rest.peek? ≠ some '>' then throw .badTag
    return (⟨"", suffix⟩, rest.drop 1)
  else
    let (handle, rest) ← tagHandle c
    if isClosed handle then
      let (suffix, rest) ← uri rest
      return (⟨.ofList handle, suffix⟩, rest)
    else
      match ← uriRest (handle.drop 1) rest with
      | ([], rest) => return (⟨"", "!"⟩, rest)
      | (suffix, rest) => return (⟨"!", .ofList suffix⟩, rest)

/-- A tag, after which a word ends. -/
def tag (c : Cursor) : Except SyntaxError (Tag × Cursor) := do
  let (tag, rest) ← tagBody c
  if endsWord rest.peek? then return (tag, rest) else throw .badTag

/-! ### Directives -/

/-- A number of at most nine digits is passed over. -/
def versionNumber (c : Cursor) : Except SyntaxError Cursor :=
  let digits := c.takeWhile Char.isDigit
  if digits.isEmpty || 9 < digits.length then .error .badDirective
  else .ok (c.drop digits.length)

/-- The version of a document is passed over. -/
def version (c : Cursor) : Except SyntaxError Cursor := do
  let rest ← versionNumber (c.dropWhile isGap)
  if rest.peek? ≠ some '.' then throw .badDirective
  versionNumber (rest.drop 1)

/-- The declaration of a handle is passed over. -/
def handleDeclaration (c : Cursor) : Except SyntaxError Cursor := do
  let (handle, rest) ← tagHandle (c.dropWhile isGap)
  if handle ≠ ['!'] && !isClosed handle then throw .badTag
  let (_, rest) ← uri (rest.dropWhile isGap)
  if endsWord rest.peek? then return rest else throw .badTag

/-- The rest of a directive after its name is passed over. -/
def directiveValue (name : List Char) (c : Cursor) : Except SyntaxError Cursor :=
  if name = "YAML".toList then version c
  else if name = "TAG".toList then handleDeclaration c
  else .ok (c.dropWhile fun ch => !isBreak ch)

/-- A directive is passed over; the cursor is at its mark. -/
def directive (c : Cursor) : Except SyntaxError Cursor := do
  let start := c.drop 1
  let name := start.takeWhile isNameChar
  let rest := start.drop name.length
  if name.isEmpty || !endsWord rest.peek? then throw .badDirective
  let rest ← directiveValue name rest
  let rest := (rest.dropWhile isGap).dropComment
  if !rest.atLineEnd then throw .badDirective
  return if rest.rest.isEmpty then rest else rest.dropBreak

end EntityModel.Yaml
