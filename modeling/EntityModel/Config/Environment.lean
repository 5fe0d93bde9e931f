/-
The environment of a program.

A variable is set to bytes, which need not be text.  Read as text, it has a value, or
it is not set, or what it is set to is not valid Unicode.  Variables whose names are
not text cannot be asked for and are left out.

* `read_eq_ok_iff` — what is read of a variable is the text whose bytes it is set to;
* `read_eq_error_iff` — why nothing is read.
-/
import EntityModel.Table
import EntityModel.Text.Quoted

namespace EntityModel

/-- The environment variables that are set, with the bytes of their values. -/
structure Environment where
  values : Table ByteArray

/-- Why a variable has no value that is a text. -/
inductive VariableError where
  /-- The variable is not set. -/
  | notPresent
  /-- It is set to bytes that are not valid Unicode. -/
  | notUnicode (value : ByteArray)

/-- The error spelled out. -/
def VariableError.spelled : VariableError → String
  | .notPresent => "NotPresent"
  | .notUnicode value => s!"NotUnicode({Text.quotedBytes value})"

namespace Environment

/-- The environment in which the variables are set to texts. -/
def ofTexts (texts : Table String) : Environment :=
  ⟨.ofList (texts.entries.map fun e => (e.1, e.2.toUTF8))⟩

instance : Coe (Table String) Environment := ⟨ofTexts⟩

/-- The value of a variable as text. -/
def read (env : Environment) (name : String) : Except VariableError String :=
  match env.values.get? name with
  | none => .error .notPresent
  | some value =>
    match String.fromUTF8? value with
    | some text => .ok text
    | none => .error (.notUnicode value)

/-- The value of a variable as text, or else a default. -/
def getOr (env : Environment) (name default : String) : String :=
  match env.read name with
  | .ok text => text
  | .error _ => default

/-! ### What is read -/

theorem fromUTF8?_eq_some_iff {value : ByteArray} {text : String} :
    String.fromUTF8? value = some text ↔ value = text.toUTF8 := by
  rw [String.fromUTF8?]
  constructor
  · intro h
    split at h
    · obtain rfl := Option.some.inj h
      rfl
    · cases h
  · rintro rfl
    exact dif_pos text.isValidUTF8

theorem fromUTF8?_eq_none_iff {value : ByteArray} :
    String.fromUTF8? value = none ↔ ∀ text : String, value ≠ text.toUTF8 := by
  simp only [Option.eq_none_iff_forall_ne_some, ne_eq, fromUTF8?_eq_some_iff]

variable {env : Environment} {name text : String} {e : VariableError}

theorem read_eq_ok_iff : env.read name = .ok text ↔ env.values.get? name = some text.toUTF8 := by
  rw [read]
  cases env.values.get? name with
  | none => simp
  | some value =>
    dsimp only
    rw [Option.some.injEq, ← fromUTF8?_eq_some_iff]
    cases String.fromUTF8? value <;> simp

theorem read_eq_error_iff : env.read name = .error e ↔
    env.values.get? name = none ∧ e = .notPresent ∨
      ∃ value, env.values.get? name = some value ∧ (∀ text : String, value ≠ text.toUTF8) ∧
        e = .notUnicode value := by
  rw [read]
  cases env.values.get? name with
  | none => simp [eq_comm]
  | some value =>
    simp only [Option.some.injEq, exists_eq_left', ← fromUTF8?_eq_none_iff]
    cases String.fromUTF8? value <;> simp [eq_comm]

end Environment

end EntityModel
