/-
Documents and how values are read from them.

A document is a tree of scalars, sequences and mappings, as JSON and YAML have
them; a node may stand for another one by an alias, even for one that it is part
of, so aliases are followed only where a value is read, and there as often as they
are met.

A record is read from a mapping or, by position, from a sequence.  Keys that the
record does not have are passed over, a key may not be repeated, and a sequence
may end early but not be too long.
-/
import EntityModel.Json
import EntityModel.Table

namespace EntityModel

/-- The type tag of a scalar, such as `!!str`. -/
structure Tag where
  handle : String
  suffix : String
  deriving DecidableEq

/-- A tag of the core schema. -/
def Tag.core (suffix : String) : Tag := ⟨"!!", suffix⟩

/-- A text in a document. -/
structure Scalar where
  text : String
  /-- The text is not quoted, so it may stand for something else. -/
  isPlain : Bool := false
  tag : Option Tag := none

/-- A node of a document. -/
inductive Node where
  | null
  | bool (value : Bool)
  | number
  | scalar (scalar : Scalar)
  | sequence (items : List Node)
  | mapping (entries : List (Node × Node))
  | alias (anchor : Nat)
  deriving Inhabited

/-- A document: its tree and the nodes that aliases stand for. -/
structure Document where
  root : Node
  anchors : List (Nat × Node) := []

/-! ### JSON as a document -/

mutual

/-- A JSON value as a node. -/
def Node.ofJson : Json → Node
  | .null => .null
  | .bool b => .bool b
  | .integer _ => .number
  | .decimal .. => .number
  | .string s => .scalar { text := s }
  | .array items => .sequence (Node.ofItems items)
  | .object members => .mapping (Node.ofMembers members)

/-- The items of a JSON array as nodes. -/
def Node.ofItems : List Json → List Node
  | [] => []
  | item :: rest => Node.ofJson item :: Node.ofItems rest

/-- The members of a JSON object as nodes. -/
def Node.ofMembers : List (String × Json) → List (Node × Node)
  | [] => []
  | (key, value) :: rest =>
    (.scalar { text := key }, Node.ofJson value) :: Node.ofMembers rest

end

/-- A JSON value as a document. -/
def Document.ofJson (json : Json) : Document := { root := .ofJson json }

theorem Node.ofItems_eq_map (items : List Json) : Node.ofItems items = items.map Node.ofJson := by
  induction items with
  | nil => rfl
  | cons item rest ih => simp [Node.ofItems, ih]

/-! ### Reading values -/

/-- Why a value cannot be read from a document. -/
inductive DecodeError where
  /-- The text is no document. -/
  | malformed
  | missing (key : String)
  | repeated (key : String)
  /-- A sequence has more items than the record has members. -/
  | surplus
  /-- Something else stands where a value of this sort is needed. -/
  | mismatch (expected : String)
  | unknownAlias
  deriving DecidableEq

/-- A reading, given the nodes that aliases stand for. -/
abbrev Decode (α : Type) : Type := ReaderT (List (Nat × Node)) (Except DecodeError) α

namespace Decode

/-- The node, or the one that it stands for. -/
def resolve : Node → Decode Node
  | .alias anchor => do
    match (← read).lookup anchor with
    | some node => return node
    | none => throw .unknownAlias
  | node => return node

/-- Any scalar, by its text. -/
def text (node : Node) : Decode String := do
  match ← resolve node with
  | .scalar s => return s.text
  | _ => throw (.mismatch "text")

/-- The truth value that a text is the word for. -/
def boolOfText (text : String) : Decode Bool :=
  if text = "true" then return true
  else if text = "false" then return false
  else throw (.mismatch "truth value")

/-- A truth value. -/
def bool (node : Node) : Decode Bool := do
  match ← resolve node with
  | .bool b => return b
  | .scalar s =>
    if s.tag = some (.core "bool") ∨ (s.tag = none ∧ s.isPlain) then boolOfText s.text
    else throw (.mismatch "truth value")
  | _ => throw (.mismatch "truth value")

/-- The scalar stands for no value. -/
def isNull (s : Scalar) : Decode Bool :=
  let word := s.text == "~" || s.text == "null"
  if !s.isPlain then return false
  else match s.tag with
    | none => return word
    | some tag =>
      if tag = .core "null" then
        if word then return true else throw (.mismatch "null")
      else return false

/-- A value or none. -/
def optional {α : Type} (decode : Node → Decode α) (node : Node) : Decode (Option α) := do
  match ← resolve node with
  | .null => return none
  | .scalar s => if ← isNull s then return none else return some (← decode (.scalar s))
  | node => return some (← decode node)

/-- A sequence of values. -/
def list {α : Type} (decode : Node → Decode α) (node : Node) : Decode (List α) := do
  match ← resolve node with
  | .sequence items => items.mapM decode
  | _ => throw (.mismatch "sequence")

/-- The entries of a mapping from texts. -/
def pairs {α : Type} (decode : Node → Decode α) :
    List (Node × Node) → Decode (List (String × α))
  | [] => return []
  | (key, value) :: rest => do
    let entry := (← text key, ← decode value)
    return entry :: (← pairs decode rest)

/-- A mapping from texts; of two entries of a key the later counts. -/
def table {α : Type} (decode : Node → Decode α) (node : Node) : Decode (Table α) := do
  match ← resolve node with
  | .mapping entries => return .ofList (← pairs decode entries)
  | _ => throw (.mismatch "mapping")

/-- The members of a record among the entries of a mapping. -/
def members (keys : List String) : List (Node × Node) → Decode (List (String × Node))
  | [] => return []
  | (key, value) :: rest => do
    let name ← text key
    let others ← members keys rest
    if name ∉ keys then return others
    if (others.lookup name).isSome then throw (.repeated name)
    return (name, value) :: others

/-- The members of a record with the given keys, in the order of their declaration. -/
def record (keys : List String) (node : Node) : Decode (List (String × Node)) := do
  match ← resolve node with
  | .mapping entries => members keys entries
  | .sequence items =>
    if items.length ≤ keys.length then return keys.zip items else throw .surplus
  | _ => throw (.mismatch "record")

/-- A member that must be there. -/
def required {α : Type} (members : List (String × Node)) (key : String)
    (decode : Node → Decode α) : Decode α :=
  match members.lookup key with
  | some node => decode node
  | none => throw (.missing key)

/-- A member that has a default. -/
def withDefault {α : Type} (members : List (String × Node)) (key : String)
    (decode : Node → Decode α) (default : α) : Decode α :=
  match members.lookup key with
  | some node => decode node
  | none => return default

end Decode

/-- A value read from a document. -/
def Document.decode {α : Type} (document : Document) (decode : Node → Decode α) :
    Except DecodeError α :=
  (decode document.root).run document.anchors

end EntityModel
