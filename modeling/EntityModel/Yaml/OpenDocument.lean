/-
From tokens to a document.

A document under construction is a stack of open collections.  A token either
belongs to the innermost collection, starts a node in it, or shows that the
collection is over; then the finished collection is put into the one around it,
which may have to deal with the same token.  What is left out — a value, a key, an
item — is the plain scalar `~`.
-/
import EntityModel.Yaml.SyntaxError
import EntityModel.Yaml.Tokens

namespace EntityModel.Yaml

/-- The node that stands for something left out. -/
def leftOut : Node := .scalar { text := "~", isPlain := true }

/-! ### Open collections -/

/-- How the items of a sequence are written. -/
inductive SequenceStyle where
  | block
  /-- A block sequence as the value of a mapping, with no indentation of its own. -/
  | indentless
  | flow
  deriving DecidableEq

/-- How the entries of a mapping are written. -/
inductive MappingStyle where
  | block
  | flow
  /-- The only entry of a mapping, as an item of a flow sequence. -/
  | pair
  deriving DecidableEq

/-- What comes next in a mapping. -/
inductive MappingPhase where
  /-- An entry is over. -/
  | between
  /-- An entry of a flow mapping can start. -/
  | entry
  /-- A key. -/
  | key
  /-- A key that has no value because nothing marks it as a key. -/
  | bareKey
  /-- The colon after a key. -/
  | colon (key : Node)
  /-- The value of a key. -/
  | value (key : Node)

/-- A collection that is not complete; the last item or entry comes first. -/
inductive Frame where
  /-- An item comes next if `atItem` says so. -/
  | sequence (style : SequenceStyle) (items : List Node) (atItem : Bool)
  | mapping (style : MappingStyle) (entries : List (Node × Node)) (phase : MappingPhase)

/-- What can stand in the place of a node. -/
structure Slot where
  /-- A block collection. -/
  block : Bool
  /-- A sequence with no indentation of its own. -/
  indentless : Bool

namespace Frame

/-- The collection as a node. -/
def node : Frame → Node
  | .sequence _ items _ => .sequence items.reverse
  | .mapping _ entries _ => .mapping entries.reverse

/-- The collection with a node in the place that comes next. -/
def put (f : Frame) (n : Node) : Frame :=
  match f with
  | .sequence style items _ => .sequence style (n :: items) false
  | .mapping style entries phase =>
    match phase with
    | .between | .entry | .key => .mapping style entries (.colon n)
    | .bareKey => .mapping style ((n, leftOut) :: entries) .between
    | .colon key | .value key => .mapping style ((key, n) :: entries) .between

/-- The place that comes next in the collection. -/
def slot : Frame → Slot
  | .sequence .flow .. => ⟨false, false⟩
  | .sequence .. => ⟨true, false⟩
  | .mapping .block .. => ⟨true, true⟩
  | .mapping .. => ⟨false, false⟩

/-- The node that comes next is left out before this token. -/
def isLeftOut (f : Frame) (t : Token) : Bool :=
  match f with
  | .sequence .block _ true => t == .blockEntry || t == .blockEnd
  | .sequence .indentless _ true =>
    t == .blockEntry || t == .key || t == .value || t == .blockEnd
  | .sequence .. => false
  | .mapping .block _ .key | .mapping .block _ (.value _) =>
    t == .key || t == .value || t == .blockEnd
  | .mapping .flow _ .key => t == .value || t == .flowEntry || t == .flowMappingEnd
  | .mapping .flow _ (.value _) => t == .flowEntry || t == .flowMappingEnd
  | .mapping .pair _ (.value _) => t == .flowEntry || t == .flowSequenceEnd
  | .mapping _ _ (.colon _) => t != .value
  | .mapping .. => false

/-- The collection with what is left out before this token: at most a key and then its
value. -/
def settle (f : Frame) (t : Token) : Frame :=
  let once (f : Frame) : Frame := if f.isLeftOut t then f.put leftOut else f
  -- a key that is left out may be followed by a value that is left out
  once (once f)

end Frame

/-- What an open collection makes of a token. -/
inductive Response where
  /-- The token is a mark of the collection, which goes on. -/
  | goOn (frame : Frame)
  /-- The token opens a collection in the collection. -/
  | nest (frame inner : Frame)
  /-- The token starts the node that comes next. -/
  | node (frame : Frame)
  /-- The collection is over, with the token or before it. -/
  | over (isMark : Bool)
  | refuse

namespace Frame

/-- The answer of a sequence to a token. -/
def ofSequence (style : SequenceStyle) (items : List Node) (atItem : Bool) (t : Token) : Response :=
  match style, atItem, t with
  | .block, false, .blockEntry => .goOn (.sequence .block items true)
  | .block, false, .blockEnd => .over true
  | .indentless, false, .blockEntry => .goOn (.sequence .indentless items true)
  | .indentless, false, _ => .over false
  | .flow, _, .flowSequenceEnd => .over true
  | .flow, false, .flowEntry => .goOn (.sequence .flow items true)
  | .flow, true, .key => .nest (.sequence .flow items true) (.mapping .pair [] .key)
  | _, true, _ => .node (.sequence style items true)
  | _, _, _ => .refuse

/-- The answer of a mapping to a token, between two entries. -/
def ofMapping (style : MappingStyle) (entries : List (Node × Node)) (t : Token) : Response :=
  match style, t with
  | .block, .key => .goOn (.mapping .block entries .key)
  | .block, .value => .goOn (.mapping .block entries (.value leftOut))
  | .block, .blockEnd => .over true
  | .flow, .flowEntry => .goOn (.mapping .flow entries .entry)
  | .flow, .flowMappingEnd => .over true
  | .pair, _ => .over false
  | _, _ => .refuse

/-- The answer of a collection to a token, once what is left out is filled in. -/
def respond (f : Frame) (t : Token) : Response :=
  match f with
  | .sequence style items atItem => ofSequence style items atItem t
  | .mapping style entries .between => ofMapping style entries t
  | .mapping style entries .entry =>
    match t with
    | .key => .goOn (.mapping style entries .key)
    | .value => .goOn (.mapping style entries (.value leftOut))
    | .flowMappingEnd => .over true
    | _ => .node (.mapping style entries .bareKey)
  | .mapping .pair entries .key =>
    match t with
    | .value | .flowEntry | .flowSequenceEnd => .goOn (.mapping .pair entries (.colon leftOut))
    | _ => .node f
  | .mapping style entries (.colon key) =>
    if t = .value then .goOn (.mapping style entries (.value key)) else .refuse
  | .mapping .. => .node f

end Frame

/-! ### Open documents -/

/-- What is written before a node. -/
structure Properties where
  anchor : Option Nat := none
  tag : Option Tag := none

/-- An open collection with its anchor. -/
structure Level where
  frame : Frame
  anchor : Option Nat := none

/-- How far a document is. -/
inductive Progress where
  /-- Nothing has been read. -/
  | start
  /-- A directive has been read, so the document needs a mark. -/
  | directives
  /-- The mark of the document has been read, and nothing else. -/
  | marked
  /-- The root has been started. -/
  | inside
  | complete (root : Node)

/-- The anchors of a document, the last one first. -/
structure Anchors where
  names : List (String × Nat) := []
  nodes : List (Nat × Node) := []

/-- A document under construction. -/
structure OpenDocument where
  /-- The open collections, innermost first. -/
  levels : List Level := []
  /-- The place of the next node and what is written before it so far. -/
  pending : Option (Slot × Properties) := none
  anchors : Anchors := {}
  progress : Progress := .start

namespace OpenDocument

/-- A complete node is put into its place. -/
def put (d : OpenDocument) (n : Node) : OpenDocument :=
  match d.levels with
  | [] => { d with progress := .complete n }
  | level :: outer => { d with levels := { level with frame := level.frame.put n } :: outer }

/-- The anchor, if there is one, stands for the node. -/
def bind (a : Anchors) (anchor : Option Nat) (n : Node) : Anchors :=
  match anchor with
  | some id => { a with nodes := (id, n) :: a.nodes }
  | none => a

/-- A scalar is put into its place. -/
def putScalar (d : OpenDocument) (props : Properties) (text : String) (isPlain : Bool) :
    OpenDocument :=
  let n := Node.scalar { text, isPlain, tag := props.tag }
  { d with anchors := bind d.anchors props.anchor n }.put n

/-- A collection is opened. -/
def nest (d : OpenDocument) (anchor : Option Nat) (frame : Frame) : OpenDocument :=
  { d with levels := ⟨frame, anchor⟩ :: d.levels }

/-- A scalar or a collection that starts with the token. -/
def content? (d : OpenDocument) (slot : Slot) (props : Properties) (t : Token) :
    Option OpenDocument :=
  match t with
  | .scalar text isPlain => some (d.putScalar props text isPlain)
  | .flowSequenceStart => some (d.nest props.anchor (.sequence .flow [] true))
  | .flowMappingStart => some (d.nest props.anchor (.mapping .flow [] .entry))
  | .blockEntry =>
    if slot.indentless then some (d.nest props.anchor (.sequence .indentless [] true)) else none
  | .blockSequenceStart =>
    if slot.block then some (d.nest props.anchor (.sequence .block [] false)) else none
  | .blockMappingStart =>
    if slot.block then some (d.nest props.anchor (.mapping .block [] .between)) else none
  | _ => none

/-- The document expects a node after these properties. -/
def describe (d : OpenDocument) (slot : Slot) (props : Properties) : OpenDocument :=
  { d with pending := some (slot, props) }

/-- A name is given to the next anchor. -/
def nameAnchor (d : OpenDocument) (name : String) : OpenDocument × Nat :=
  let id := d.anchors.names.length + 1
  ({ d with anchors := { d.anchors with names := (name, id) :: d.anchors.names } }, id)

/-- The first token of a node. -/
def startNode (d : OpenDocument) (slot : Slot) (t : Token) : Except SyntaxError OpenDocument :=
  match t with
  | .alias name =>
    match d.anchors.names.lookup name with
    | some id => .ok (d.put (.alias id))
    | none => .error .unknownAnchor
  | .anchor name =>
    let (d, id) := d.nameAnchor name
    .ok (d.describe slot { anchor := some id })
  | .tag tag => .ok (d.describe slot { tag := some tag })
  | _ =>
    match d.content? slot {} t with
    | some d => .ok d
    | none => .error .unexpectedToken

/-- The place of the root of a document. -/
def rootSlot : Slot := ⟨true, false⟩

/-- A token outside of all collections. -/
def takeOutside (d : OpenDocument) (t : Token) : Except SyntaxError OpenDocument :=
  let startRoot := { d with progress := .inside }.startNode rootSlot t
  match d.progress, t with
  | .start, .textEnd => .error .noDocument
  | .start, .directive | .directives, .directive => .ok { d with progress := .directives }
  | .start, .documentStart | .directives, .documentStart => .ok { d with progress := .marked }
  | .start, _ => startRoot
  | .directives, _ => .error .unexpectedToken
  | .marked, .textEnd | .marked, .documentEnd => .ok { d with progress := .complete leftOut }
  | .marked, .directive | .marked, .documentStart => .error .severalDocuments
  | .marked, _ => startRoot
  | .complete _, .textEnd | .complete _, .documentEnd => .ok d
  | _, _ => .error .severalDocuments

/-- A token at the innermost of the open collections `levels`, after the node `done` has
been put there, if there is one. -/
def takeInside (anchors : Anchors) (progress : Progress) (done : Option Node) (t : Token) :
    List Level → Except SyntaxError OpenDocument
  | [] =>
    let progress := match done with
      | some root => .complete root
      | none => progress
    takeOutside { anchors, progress } t
  | level :: outer =>
    let filled := match done with
      | some n => level.frame.put n
      | none => level.frame
    let frame := filled.settle t
    let within (f : Frame) : OpenDocument :=
      { levels := { level with frame := f } :: outer, anchors, progress }
    match frame.respond t with
    | .goOn f => .ok (within f)
    | .nest f inner => .ok ((within f).nest none inner)
    | .node f => (within f).startNode f.slot t
    | .refuse => .error .unexpectedToken
    | .over isMark =>
      -- an anchor stands for the whole collection, so it is bound only now
      let anchors := bind anchors level.anchor frame.node
      let around : OpenDocument := { levels := outer, anchors, progress }
      if isMark then .ok (around.put frame.node)
      else takeInside anchors progress (some frame.node) t outer

/-- A token after the properties of a node: the other property, or the node itself.  A
node that does not follow is an empty scalar. -/
def takePending (d : OpenDocument) (slot : Slot) (props : Properties) (t : Token) :
    Except SyntaxError OpenDocument :=
  let free := { d with pending := none }
  match props.anchor, props.tag, t with
  | none, some _, .anchor name =>
    let (d, id) := free.nameAnchor name
    .ok (d.describe slot { props with anchor := some id })
  | some _, none, .tag tag => .ok (free.describe slot { props with tag := some tag })
  | _, _, _ =>
    match free.content? slot props t with
    | some d => .ok d
    | none =>
      let empty := Node.scalar { text := "", isPlain := true, tag := props.tag }
      takeInside (bind d.anchors props.anchor empty) d.progress (some empty) t d.levels

/-- The document after one more token. -/
def take (d : OpenDocument) (t : Token) : Except SyntaxError OpenDocument :=
  match d.pending with
  | some (slot, props) => d.takePending slot props t
  | none => takeInside d.anchors d.progress none t d.levels

/-- The document that all tokens make up. -/
def ofTokens (tokens : List Token) : Except SyntaxError Document := do
  let d ← tokens.foldlM take {}
  match d.progress with
  | .complete root => return { root, anchors := d.anchors.nodes }
  | _ => throw .noDocument

end OpenDocument

end EntityModel.Yaml

namespace EntityModel

/-- The only document of a YAML text. -/
def Document.ofYaml (text : String) : Except Yaml.SyntaxError Document := do
  Yaml.OpenDocument.ofTokens (← Yaml.tokens text)

/-- A value read from the only document of a YAML text. -/
def Document.decodeYaml {α : Type} (text : String) (decode : Node → Decode α) :
    Except DecodeError α :=
  match Document.ofYaml text with
  | .ok document => document.decode decode
  | .error _ => .error .malformed

end EntityModel
