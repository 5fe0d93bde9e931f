/-
Validation of types.

A rule set has a rule for a type and one for each field.  A validation runs all of
them, whatever the first ones say, and passes if each rule does.  What rules find is
collected by location.
-/
import EntityModel.TypeNode

namespace EntityModel

/-! ### Issues -/

/-- How severe an issue is. -/
inductive Severity where
  | error
  | warning
  deriving DecidableEq

/-- The messages about each location, in the order of their report. -/
structure Issues where
  errors : Table (List String) := ∅
  warnings : Table (List String) := ∅
  deriving DecidableEq

namespace Issues

/-- A message more about a location. -/
def record (messages : Table (List String)) (location message : String) : Table (List String) :=
  messages.alter location fun earlier => earlier.getD [] ++ [message]

/-- An issue is reported. -/
def report (i : Issues) (severity : Severity) (location message : String) : Issues :=
  match severity with
  | .error => { i with errors := record i.errors location message }
  | .warning => { i with warnings := record i.warnings location message }

/-- The number of errors at all locations. -/
def errorCount (i : Issues) : Nat := i.errors.entries.foldl (fun n e => n + e.2.length) 0

/-- Nothing was reported. -/
def isEmpty (i : Issues) : Bool := i.errors.isEmpty && i.warnings.isEmpty

end Issues

/-! ### Rules -/

/-- A rule says whether something passes, and may report to a state. -/
abbrev Rule (σ : Type) : Type := σ → Bool × σ

/-- The rules for types and their fields. -/
structure RuleSet (σ : Type) where
  typeRule : ComplexType → Rule σ
  fieldRule : ComplexType → Field → Rule σ

namespace RuleSet

variable {σ : Type}

/-- The rules under which everything passes. -/
def lenient : RuleSet σ where
  typeRule _ s := (true, s)
  fieldRule _ _ s := (true, s)

/-- The rule of the type is run, then that of each field in order. -/
def validate (rules : RuleSet σ) (t : ComplexType) : Rule σ := fun s =>
  t.shape.fields.fields.foldl (fun (valid, s) f =>
    let (fieldValid, s) := rules.fieldRule t f s
    (valid && fieldValid, s)) (rules.typeRule t s)

end RuleSet

/-! ### Marked locations -/

/-- Locations that are known to be bad or dubious. -/
structure Marks where
  failing : List String := []
  dubious : List String := []

/-- What a validation by marks leaves: the issues, and the locations in the order in
which they were visited. -/
structure Review where
  issues : Issues := {}
  visited : List String := []

namespace Marks

/-- The rule for a location.  Messages are numbered by the errors before them. -/
def rule (m : Marks) (location : String) : Rule Review := fun i =>
  let count := i.issues.errorCount
  let issues := if location ∈ m.dubious
    then i.issues.report .warning location s!"warning {count}" else i.issues
  let issues := if location ∈ m.failing
    then issues.report .error location s!"error {count}" else issues
  (location ∉ m.failing, { issues, visited := i.visited ++ [location] })

/-- A type is located by its name, a field by the names of its type and itself. -/
def rules (m : Marks) : RuleSet Review where
  typeRule t := m.rule t.name
  fieldRule t f := m.rule s!"{t.name}/{f.name}"

end Marks

end EntityModel
