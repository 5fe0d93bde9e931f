/-
What is logged.

A filter is a list of directives separated by commas.  A directive is a level for
everything, or a target with the level for the events of the targets that start
with it; a target alone stands for every level of it.  Of the directives that
concern an event the one with the longest target decides.  Without a directive
nothing is logged.

White space belongs to the directive that it stands in.
-/
import EntityModel.Config.Placeholder
import EntityModel.Event
import EntityModel.Text.Alphanumeric
import EntityModel.Text.Blank

namespace EntityModel

/-- Up to which level events are logged. -/
inductive Verbosity where
  | off
  | upTo (level : Level)
  deriving DecidableEq

/-- The place of a level, the most severe first. -/
def Level.rank : Level → Nat
  | .error => 1
  | .warn => 2
  | .info => 3
  | .debug => 4
  | .trace => 5

namespace Verbosity

/-- How many levels are logged. -/
def rank : Verbosity → Nat
  | .off => 0
  | .upTo level => level.rank

/-- The word for a verbosity. -/
def name : Verbosity → String
  | .off => "off"
  | .upTo .error => "error"
  | .upTo .warn => "warn"
  | .upTo .info => "info"
  | .upTo .debug => "debug"
  | .upTo .trace => "trace"

/-- All verbosities, by rank. -/
def all : List Verbosity :=
  [.off, .upTo .error, .upTo .warn, .upTo .info, .upTo .debug, .upTo .trace]

/-- The number that a text of decimal digits stands for; a plus sign may precede them. -/
def number? (text : List Char) : Option Nat :=
  let digits := match text with
    | '+' :: rest => rest
    | _ => text
  if !digits.isEmpty && digits.all Char.isDigit then
    some (digits.foldl (fun n c => 10 * n + (c.toNat - '0'.toNat)) 0)
  else none

/-- A verbosity by its rank in digits or by its word in either case. -/
def ofText? (text : String) : Option Verbosity :=
  match number? text.toList with
  | some rank => all[rank]?
  | none => all.find? fun v => v.name == text.toLower

/-- Everything is logged that either logs. -/
def max (a b : Verbosity) : Verbosity := if a.rank < b.rank then b else a

end Verbosity

/-- Why logging cannot be set up. -/
inductive LoggingError where
  | unknownLevel
  | invalidDirective
  /-- The switch for readable output is neither on nor off. -/
  | invalidSwitch
  /-- Logging has been set up before. -/
  | alreadySet
  deriving DecidableEq

/-- The error in words. -/
def LoggingError.message : LoggingError → String
  | .unknownLevel =>
    "error parsing level filter: expected one of \"off\", \"error\", \"warn\", \"info\", " ++
      "\"debug\", \"trace\", or a number 0-5"
  | .invalidDirective => "invalid filter directive"
  | .invalidSwitch => "provided string was not `true` or `false`"
  | .alreadySet => "a global default trace dispatcher has already been set"

/-- How much is logged of a target, or of everything. -/
structure Directive where
  target : Option String := none
  verbosity : Verbosity
  deriving DecidableEq

namespace Directive

/-- A character that a directive can start with. -/
def isStart (c : Char) : Bool :=
  Text.isAlphanumeric c || c == '-' || c == ':' || c == '_'

/-- A text without white space at its ends. -/
def trim (text : List Char) : List Char :=
  ((text.dropWhile Text.isBlank).reverse.dropWhile Text.isBlank).reverse

/-- A text cut in two, where the first part has as many characters as go into `size` bytes. -/
def cut (size : Nat) : List Char → List Char × List Char
  | [] => ([], [])
  | c :: rest =>
    if c.utf8Size ≤ size then
      let (start, remainder) := cut (size - c.utf8Size) rest
      (c :: start, remainder)
    else ([], c :: rest)

/-- A level, or else a target with every level of it. -/
def ofWord (text : String) : Directive :=
  match Verbosity.ofText? text with
  | some verbosity => { verbosity }
  | none => { target := some text, verbosity := .upTo .trace }

/-- A target with the level that is written for it; none written stands for every level. -/
def ofPair (target level : String) : Except LoggingError Directive :=
  if level.isEmpty then .ok { target := some target, verbosity := .upTo .trace }
  else match Verbosity.ofText? level with
    | some verbosity => .ok { target := some target, verbosity }
    | none => .error .unknownLevel

/-- A directive read from its text.  The equals sign is looked for in the text without
white space at its ends, but its distance is then counted off in the text with it, so
white space before a target moves the cut. -/
def ofText (text : String) : Except LoggingError Directive :=
  let trimmed := trim text.toList
  if !trimmed.head?.any isStart then .error .invalidDirective
  else
    let name := trimmed.takeWhile fun c => c != '=' && c != '['
    match trimmed.drop name.length with
    | [] => .ok (ofWord text)
    | '=' :: _ =>
      let size := (String.ofList name).utf8ByteSize
      ofPair (.ofList (cut size text.toList).1) (.ofList (cut (size + 1) text.toList).2)
    | _ => .error .invalidDirective

/-- The directive concerns the events of `target`. -/
def concerns (d : Directive) (target : String) : Bool :=
  match d.target with
  | none => true
  | some start => start.toList.isPrefixOf target.toList

/-- How closely the directive names its target. -/
def precision (d : Directive) : Nat :=
  match d.target with
  | none => 0
  | some start => start.utf8ByteSize + 1

end Directive

/-- What is logged: directives in the order in which they were given. -/
structure LogFilter where
  directives : List Directive
  deriving DecidableEq

namespace LogFilter

/-- The pieces of a text between commas that are not empty. -/
def pieces (text : String) : List String :=
  (text.splitOn ",").filter fun piece => !piece.isEmpty

/-- A filter read from its text. -/
def ofText (text : String) : Except LoggingError LogFilter := do
  return ⟨← (pieces text).mapM Directive.ofText⟩

/-- The most that any directive lets through. -/
def maxVerbosity (f : LogFilter) : Verbosity :=
  f.directives.foldl (fun v d => v.max d.verbosity) .off

/-- The directive that decides about a target: of those that name it most closely, the
last one given. -/
def deciding? (f : LogFilter) (target : String) : Option Directive :=
  (f.directives.filter (·.concerns target)).foldl (fun best d =>
    match best with
    | some b => if b.precision ≤ d.precision then some d else some b
    | none => some d) none

/-- Events of the target and the level are logged. -/
def logs (f : LogFilter) (target : String) (level : Level) : Bool :=
  match f.deciding? target with
  | some d => level.rank ≤ d.verbosity.rank
  | none => false

end LogFilter

namespace Config

/-- The target of the events of this library. -/
def logTarget : String := "mdm_metadata"

/-- The text occurs in another one. -/
def occurs (pattern : List Char) : List Char → Bool
  | [] => pattern.isEmpty
  | c :: rest => pattern.isPrefixOf (c :: rest) || occurs pattern rest

/-- The filter in words: the environment goes before the configured level, and a verbose
model logs its own steps unless the filter mentions it. -/
def filterText (env : Environment) (c : Config) : String :=
  let text := env.getOr "RUST_LOG" c.logLevel
  if c.verbose && !occurs logTarget.toList text.toList then s!"{text},{logTarget}=debug" else text

/-- What is logged under a configuration; the switch for readable output must be sound. -/
def logFilter (env : Environment) (c : Config) : Except LoggingError LogFilter := do
  let filter ← LogFilter.ofText (c.filterText env)
  match env.getOr "HUMAN_LOGGING" "true" with
  | "true" | "false" => return filter
  | _ => throw .invalidSwitch

end Config

/-- The environment variables that logging depends on. -/
inductive LogVariable where
  | filter
  | readable
  deriving DecidableEq

namespace LogVariable

/-- The name of the variable. -/
def name : LogVariable → String
  | .filter => "RUST_LOG"
  | .readable => "HUMAN_LOGGING"

/-- The variable called `text`. -/
def ofName? (text : String) : Option LogVariable :=
  [filter, readable].find? fun v => v.name == text

end LogVariable

end EntityModel
