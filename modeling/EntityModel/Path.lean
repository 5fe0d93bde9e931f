/-
Paths to fields.

The steps of a nested path are separated by slashes.  A step names a field, up
to the first `[`, and may name the subtype that the next step starts from after
`@xsi:type`; around that name, white space and the characters `=`, `"`, `'`, `[`
and `]` do not count.
-/
import EntityModel.Error
import EntityModel.Text.Blank

namespace EntityModel

namespace Path

/-- What separates the steps of a path. -/
def separator : Char := '/'

/-- The attribute that names a subtype. -/
def typeAttribute : List Char := "@xsi:type".toList

/-- The path leads through nested types. -/
def isNested (path : String) : Bool := path.toList.contains separator

/-- The pieces of a text between separators, the empty ones included. -/
def pieces : List Char → List (List Char)
  | [] => [[]]
  | c :: rest =>
    if c = separator then [] :: pieces rest
    else match pieces rest with
      | [] => [[c]]
      | piece :: others => (c :: piece) :: others

/-- The steps of a path: its pieces that are not empty. -/
def steps (path : String) : List String :=
  (pieces path.toList).filterMap fun piece =>
    if piece.isEmpty then none else some (String.ofList piece)

/-- What follows the first occurrence of `pattern` in a text. -/
def after? (pattern : List Char) : List Char → Option (List Char)
  | [] => if pattern.isEmpty then some [] else none
  | c :: rest =>
    if pattern.isPrefixOf (c :: rest) then some ((c :: rest).drop pattern.length)
    else after? pattern rest

/-- The characters around the name of a subtype that do not belong to it. -/
def isPadding (c : Char) : Bool :=
  c == '=' || c == '"' || c == '\'' || c == '[' || c == ']' || Text.isBlank c

/-- A text without the padding at its ends. -/
def trim (text : List Char) : List Char :=
  ((text.dropWhile isPadding).reverse.dropWhile isPadding).reverse

end Path

/-- A step of a path: the name of a field and, if the step has a type predicate, the
name of the subtype that follows. -/
structure PathStep where
  field : String
  typeOverride : Option String := none
  deriving DecidableEq

/-- A step read from its text; `path` is the whole path, for the error message. -/
def PathStep.parse (step path : String) : Except ModelError PathStep :=
  let field := String.ofList (step.toList.takeWhile (· ≠ '['))
  match Path.after? Path.typeAttribute step.toList with
  | none => .ok { field }
  | some predicate =>
    match Path.trim predicate with
    | [] => .error (.illegalArgument (.emptyOverride path))
    | name => .ok { field, typeOverride := some (String.ofList name) }

end EntityModel
