/-
Placeholders in a configuration.

What becomes of a single value is told without the reading of its text: it is kept, or it gives way
to the value of the variable that it stands for (`Placeholder.Gives`), or it is at fault
(`Placeholder.Offends`).  The values of a configuration are replaced in order up to the first that
is at fault: `Config.expand_values`.
-/
import EntityModel.Config.Placeholder
import Mathlib.Data.List.Forall2

namespace EntityModel

namespace Placeholder

/-- The value starts as a placeholder does. -/
def IsMeant (value : String) : Prop := ∃ rest, value = "$" ++ rest

/-- The value is a placeholder for the variable `name`. -/
structure StandsFor (value name : String) : Prop where
  written : value = "$" ++ name ∨ value = "$\x7b" ++ name ++ "\x7d"
  nonempty : name ≠ ""
  noOpening : '\x7b' ∉ name.toList
  noClosing : '\x7d' ∉ name.toList

/-- The variable `name` is set, and what it is set to is valid Unicode. -/
def IsText (env : Environment) (name : String) : Prop :=
  ∃ text : String, env.values.get? name = some text.toUTF8

/-- The value is replaced by `result`. -/
inductive Gives (env : Environment) (value : String) : (result : String) → Prop
  | kept (plain : ¬ IsMeant value) : Gives env value value
  | replaced {name result} (stands : StandsFor value name)
      (found : env.values.get? name = some result.toUTF8) : Gives env value result

/-- The value cannot be replaced, for the reason `e`. -/
inductive Offends (env : Environment) (value : String) : (e : ConfigError) → Prop
  | malformed (meant : IsMeant value) (none : ∀ name, ¬ StandsFor value name) :
      Offends env value (.invalidPlaceholder value)
  | unset {name} (stands : StandsFor value name) (absent : env.values.get? name = none) :
      Offends env value (.unsetVariable .notPresent)
  | notUnicode {name bytes} (stands : StandsFor value name)
      (found : env.values.get? name = some bytes) (invalid : ∀ text : String, bytes ≠ text.toUTF8) :
      Offends env value (.unsetVariable (.notUnicode bytes))

variable {env : Environment} {value result : String} {e : ConfigError}

/-! ### The name in a placeholder -/

theorem isPlaceholder_iff : isPlaceholder value = true ↔ IsMeant value := by
  rw [isPlaceholder, beq_iff_eq, List.head?_eq_some_iff]
  constructor
  · rintro ⟨rest, whole⟩
    refine ⟨String.ofList rest, ?_⟩
    rw [← String.toList_inj, whole]
    simp
  · rintro ⟨rest, rfl⟩
    exact ⟨rest.toList, by simp⟩

theorem beforeBrace?_eq_some_iff {l raw : List Char} :
    beforeBrace? l = some raw ↔ l = raw ++ ['\x7d'] := by
  rw [beforeBrace?]
  constructor
  · intro h
    split at h
    · next last =>
      obtain rfl := Option.some.inj h
      exact (List.dropLast_append_getLast? _ last).symm
    · cases h
  · rintro rfl
    rw [if_pos (List.getLast?_concat ..), List.dropLast_concat]

/-- The name is what stands between the braces, or after the dollar sign where no brace follows. -/
theorem rawName?_eq_some_iff {l raw : List Char} : rawName? l = some raw ↔
    l = '$' :: '\x7b' :: (raw ++ ['\x7d']) ∨ l = '$' :: raw ∧ raw.head? ≠ some '\x7b' := by
  constructor
  · intro h
    rw [rawName?.eq_def] at h
    split at h
    · next rest => exact .inl (by rw [beforeBrace?_eq_some_iff.1 h])
    · next rest unbraced =>
      obtain rfl := Option.some.inj h
      refine .inr ⟨rfl, ?_⟩
      intro head
      obtain ⟨rest', rfl⟩ := List.head?_eq_some_iff.1 head
      exact unbraced rest' rfl
    · cases h
  · rintro (rfl | ⟨rfl, head⟩)
    · exact beforeBrace?_eq_some_iff.2 rfl
    · cases raw with
      | nil => rfl
      | cons c raw =>
        have other : c ≠ '\x7b' := fun same => head (by rw [same]; rfl)
        simp [rawName?, other]

theorem isName_iff {name : List Char} : isName name = true ↔
    name ≠ [] ∧ '\x7b' ∉ name ∧ '\x7d' ∉ name := by
  rw [isName, Bool.and_eq_true, List.all_eq_true]
  refine and_congr (by simp) ?_
  constructor
  · intro h
    refine ⟨?_, ?_⟩ <;> intro mem <;> simpa using h _ mem
  · intro h c mem
    have opening : c ≠ '\x7b' := fun same => h.1 (same ▸ mem)
    have closing : c ≠ '\x7d' := fun same => h.2 (same ▸ mem)
    simp [opening, closing]

theorem standsFor_iff {name : String} : StandsFor value name ↔
    rawName? value.toList = some name.toList ∧ isName name.toList = true := by
  have braced : value = "$\x7b" ++ name ++ "\x7d" ↔
      value.toList = '$' :: '\x7b' :: (name.toList ++ ['\x7d']) := by
    rw [← String.toList_inj]
    simp
  have plain : value = "$" ++ name ↔ value.toList = '$' :: name.toList := by
    rw [← String.toList_inj]
    simp
  rw [rawName?_eq_some_iff, isName_iff, ← braced, ← plain]
  constructor
  · rintro ⟨written, nonempty, noOpening, noClosing⟩
    have head : name.toList.head? ≠ some '\x7b' := fun h => noOpening (List.mem_of_head? h)
    exact ⟨written.symm.imp_right fun h => ⟨h, head⟩, by simpa using nonempty, noOpening, noClosing⟩
  · rintro ⟨written, nonempty, noOpening, noClosing⟩
    exact ⟨written.symm.imp_left And.left, by simpa using nonempty, noOpening, noClosing⟩

theorem name_eq_ok_iff {v : String} : name value = .ok v ↔ StandsFor value v := by
  rw [standsFor_iff, name]
  cases raw : rawName? value.toList with
  | none => simp
  | some l =>
    have same : String.ofList l = v ↔ l = v.toList := by
      rw [← String.toList_inj, String.toList_ofList]
    by_cases fit : isName l = true
    · simp only [if_pos fit, Except.ok.injEq, Option.some.injEq, same]
      exact ⟨fun h => ⟨h, h ▸ fit⟩, And.left⟩
    · simp only [if_neg fit, reduceCtorEq, Option.some.injEq, false_iff]
      rintro ⟨rfl, fit'⟩
      exact fit fit'

theorem name_eq_ok_or (value : String) :
    (∃ v, name value = .ok v) ∨ name value = .error (.invalidPlaceholder value) := by
  rw [name]
  split
  · split
    · exact .inl ⟨_, rfl⟩
    · exact .inr rfl
  · exact .inr rfl

/-! ### What becomes of a value -/

/-- A value is replaced or at fault. -/
theorem expand_cases (env : Environment) (value : String) :
    (∃ result, expand env value = .ok result ∧ Gives env value result) ∨
      ∃ e, expand env value = .error e ∧ Offends env value e := by
  rw [expand]
  by_cases meant : isPlaceholder value = true
  · rw [if_pos meant]
    rcases name_eq_ok_or value with ⟨v, named⟩ | refused
    · rw [named]
      have stands := name_eq_ok_iff.1 named
      dsimp only
      cases found : env.read v with
      | ok result =>
        exact .inl ⟨result, rfl, .replaced stands (Environment.read_eq_ok_iff.1 found)⟩
      | error e =>
        rcases Environment.read_eq_error_iff.1 found with ⟨absent, rfl⟩ | ⟨_, set, invalid, rfl⟩
        · exact .inr ⟨_, rfl, .unset stands absent⟩
        · exact .inr ⟨_, rfl, .notUnicode stands set invalid⟩
    · rw [refused]
      refine .inr ⟨_, rfl, .malformed (isPlaceholder_iff.1 meant) ?_⟩
      intro v stands
      cases (name_eq_ok_iff.2 stands).symm.trans refused
  · rw [if_neg meant]
    exact .inl ⟨value, rfl, .kept (mt isPlaceholder_iff.2 meant)⟩

theorem StandsFor.isMeant {v : String} (stands : StandsFor value v) : IsMeant value := by
  rcases stands.written with rfl | rfl
  · exact ⟨v, rfl⟩
  · exact ⟨"\x7b" ++ v ++ "\x7d", by rw [← String.append_assoc, ← String.append_assoc]; rfl⟩

theorem expand_of_standsFor {v : String} (stands : StandsFor value v) :
    expand env value = (env.read v).mapError .unsetVariable := by
  have meant := isPlaceholder_iff.2 stands.isMeant
  cases found : env.read v <;>
    simp only [expand, if_pos meant, name_eq_ok_iff.2 stands, found, Except.mapError]

theorem expand_eq_ok_iff : expand env value = .ok result ↔ Gives env value result := by
  constructor
  · intro h
    rcases expand_cases env value with ⟨w, same, gives⟩ | ⟨e, refused, -⟩
    · exact Except.ok.inj (h.symm.trans same) ▸ gives
    · cases h.symm.trans refused
  · rintro (plain | ⟨stands, found⟩)
    · rw [expand, if_neg (mt isPlaceholder_iff.1 plain)]
    · rw [expand_of_standsFor stands, Environment.read_eq_ok_iff.2 found]
      rfl

theorem expand_eq_error_iff : expand env value = .error e ↔ Offends env value e := by
  constructor
  · intro h
    rcases expand_cases env value with ⟨w, done, -⟩ | ⟨e', same, offends⟩
    · cases done.symm.trans h
    · exact Except.error.inj (h.symm.trans same) ▸ offends
  · rintro (⟨meant, none⟩ | ⟨stands, absent⟩ | ⟨stands, found, invalid⟩)
    · have refused := (name_eq_ok_or value).resolve_left fun ⟨v, named⟩ =>
        none v (name_eq_ok_iff.1 named)
      rw [expand, if_pos (isPlaceholder_iff.2 meant), refused]
    · rw [expand_of_standsFor stands, Environment.read_eq_error_iff.2 (.inl ⟨absent, rfl⟩)]
      rfl
    · rw [expand_of_standsFor stands,
        Environment.read_eq_error_iff.2 (.inr ⟨_, found, invalid, rfl⟩)]
      rfl

/-- A value is not at fault if it is no placeholder or stands for a variable that is set to a
text. -/
theorem exists_gives_iff : (∃ result, Gives env value result) ↔
    (IsMeant value → ∃ name, StandsFor value name ∧ IsText env name) := by
  constructor
  · rintro ⟨result, plain | ⟨stands, found⟩⟩ meant
    · exact absurd meant plain
    · exact ⟨_, stands, _, found⟩
  · intro h
    by_cases meant : IsMeant value
    · obtain ⟨name, stands, result, found⟩ := h meant
      exact ⟨result, .replaced stands found⟩
    · exact ⟨value, .kept meant⟩

/-! ### Values in order -/

/-- The values are replaced one after the other, up to the first that is at fault; `left` is what
comes of them. -/
inductive Replaces (env : Environment) :
    (values : List String) → Except ConfigError Unit → (left : List String) → Prop
  | done : Replaces env [] (.ok ()) []
  | stop {value values e} (offends : Offends env value e) :
      Replaces env (value :: values) (.error e) (value :: values)
  | next {value result values out left} (gives : Gives env value result)
      (rest : Replaces env values out left) :
      Replaces env (value :: values) out (result :: left)

variable {values left left' : List String} {out out' : Except ConfigError Unit}

theorem Replaces.unique (h : Replaces env values out left) (h' : Replaces env values out' left') :
    out' = out ∧ left' = left := by
  induction h generalizing left' with
  | done =>
    cases h'
    exact ⟨rfl, rfl⟩
  | stop offends =>
    have refused := expand_eq_error_iff.2 offends
    cases h' with
    | stop offends' =>
      obtain rfl := Except.error.inj (refused.symm.trans (expand_eq_error_iff.2 offends'))
      exact ⟨rfl, rfl⟩
    | next gives _ => cases refused.symm.trans (expand_eq_ok_iff.2 gives)
  | next gives _ ih =>
    have given := expand_eq_ok_iff.2 gives
    cases h' with
    | stop offends => cases given.symm.trans (expand_eq_error_iff.2 offends)
    | next gives' rest =>
      obtain rfl := Except.ok.inj (given.symm.trans (expand_eq_ok_iff.2 gives'))
      obtain ⟨rfl, rfl⟩ := ih rest
      exact ⟨rfl, rfl⟩

theorem replaces_ok_iff :
    Replaces env values (.ok ()) left ↔ List.Forall₂ (Gives env) values left := by
  constructor
  · intro h
    generalize same : Except.ok () = out at h
    induction h with
    | done => exact .nil
    | stop _ => cases same
    | next gives _ ih => exact .cons gives (ih same)
  · intro h
    induction h with
    | nil => exact .done
    | cons gives _ ih => exact .next gives ih

theorem replaces_error_iff : Replaces env values (.error e) left ↔
    ∃ before before' value after, values = before ++ value :: after ∧
      left = before' ++ value :: after ∧ List.Forall₂ (Gives env) before before' ∧
      Offends env value e := by
  constructor
  · intro h
    generalize same : Except.error e = out at h
    induction h with
    | done => cases same
    | @stop value values e' offends =>
      obtain rfl := Except.error.inj same
      exact ⟨[], [], value, values, rfl, rfl, .nil, offends⟩
    | @next first result _ _ _ gives _ ih =>
      obtain ⟨before, before', value, after, rfl, rfl, replaced, offends⟩ := ih same
      exact ⟨first :: before, result :: before', value, after, rfl, rfl, .cons gives replaced,
        offends⟩
  · rintro ⟨before, before', value, after, rfl, rfl, replaced, offends⟩
    induction replaced with
    | nil => exact .stop offends
    | cons gives _ ih => exact .next gives ih

theorem exists_forall₂_gives_iff : (∃ left, List.Forall₂ (Gives env) values left) ↔
    ∀ value ∈ values, IsMeant value → ∃ name, StandsFor value name ∧ IsText env name := by
  simp only [← exists_gives_iff]
  constructor
  · rintro ⟨left, h⟩ value mem
    induction h with
    | nil => cases mem
    | cons gives _ ih =>
      rcases List.mem_cons.1 mem with rfl | mem
      · exact ⟨_, gives⟩
      · exact ih mem
  · intro h
    induction values with
    | nil => exact ⟨[], .nil⟩
    | cons value rest ih =>
      obtain ⟨⟨result, gives⟩, others⟩ := List.forall_mem_cons.1 h
      obtain ⟨left, replaced⟩ := ih others
      exact ⟨result :: left, .cons gives replaced⟩

end Placeholder

namespace Config

open Placeholder

variable {env : Environment} {c c' : Config}

/-- The values that may be placeholders, in the order in which they are replaced. -/
def values (c : Config) : List String :=
  [c.logLevel, c.defaultLocale, c.schema.builtinNamespace, c.schema.defaultNamespace]

theorem ext_values (values : c'.values = c.values) (verbose : c'.verbose = c.verbose) : c' = c := by
  obtain ⟨level, verbose, locale, ⟨builtin, default⟩⟩ := c
  obtain ⟨level', verbose', locale', ⟨builtin', default'⟩⟩ := c'
  simp_all [Config.values]

section Step

variable {read : Config → String} {write : Config → String → Config}
variable {P : EStateM.Result ConfigError Config Unit → Prop}

/-- One value is replaced, or it is at fault and nothing is changed. -/
theorem expandAt_cases (env : Environment) (read : Config → String)
    (write : Config → String → Config) (c : Config) :
    (∃ value, Gives env (read c) value ∧ expandAt env read write c = .ok () (write c value)) ∨
      ∃ e, Offends env (read c) e ∧ expandAt env read write c = .error e c := by
  rw [expandAt]
  rcases expand_cases env (read c) with ⟨value, done, h⟩ | ⟨e, refused, h⟩
  · exact .inl ⟨value, h, by rw [done]⟩
  · exact .inr ⟨e, h, by rw [refused]⟩

theorem expandAt_ends (gives : ∀ value, Gives env (read c) value → P (.ok () (write c value)))
    (offends : ∀ e, Offends env (read c) e → P (.error e c)) : P (expandAt env read write c) := by
  rcases expandAt_cases env read write c with ⟨value, h, run⟩ | ⟨e, h, run⟩
  · exact run ▸ gives value h
  · exact run ▸ offends e h

theorem expandAt_bind_ends {next : EStateM ConfigError Config Unit}
    (gives : ∀ value, Gives env (read c) value → P (next (write c value)))
    (offends : ∀ e, Offends env (read c) e → P (.error e c)) :
    P ((expandAt env read write >>= fun _ => next) c) := by
  simp only [bind, EStateM.bind]
  rcases expandAt_cases env read write c with ⟨value, h, run⟩ | ⟨e, h, run⟩
  · rw [run]
    exact gives value h
  · rw [run]
    exact offends e h

end Step

/-- What `c` becomes has its values replaced in order, and is otherwise the same. -/
def Becomes (env : Environment) (c : Config) : EStateM.Result ConfigError Config Unit → Prop
  | .ok _ c' => c'.verbose = c.verbose ∧ Replaces env c.values (.ok ()) c'.values
  | .error e c' => c'.verbose = c.verbose ∧ Replaces env c.values (.error e) c'.values

theorem expand_becomes (env : Environment) (c : Config) : Becomes env c ((expand env).run c) := by
  refine expandAt_bind_ends (fun level first => ?_) fun e offends => ⟨rfl, .stop offends⟩
  refine expandAt_bind_ends (fun locale second => ?_) fun e offends =>
    ⟨rfl, .next first (.stop offends)⟩
  refine expandAt_bind_ends (fun builtin third => ?_) fun e offends =>
    ⟨rfl, .next first (.next second (.stop offends))⟩
  exact expandAt_ends
    (fun default fourth => ⟨rfl, .next first (.next second (.next third (.next fourth .done)))⟩)
    fun e offends => ⟨rfl, .next first (.next second (.next third (.stop offends)))⟩

theorem Becomes.unique {result result' : EStateM.Result ConfigError Config Unit}
    (h : Becomes env c result) (h' : Becomes env c result') : result = result' := by
  cases result with
  | ok u d =>
    cases result' with
    | ok u' d' =>
      obtain ⟨-, values⟩ := h.2.unique h'.2
      rw [ext_values values (h'.1.trans h.1.symm)]
    | error e' d' => cases (h.2.unique h'.2).1
  | error e d =>
    cases result' with
    | ok u' d' => cases (h.2.unique h'.2).1
    | error e' d' =>
      obtain ⟨same, values⟩ := h.2.unique h'.2
      rw [ext_values values (h'.1.trans h.1.symm), Except.error.inj same]

theorem run_expand_eq_iff {result : EStateM.Result ConfigError Config Unit} :
    (expand env).run c = result ↔ Becomes env c result := by
  constructor
  · rintro rfl
    exact expand_becomes env c
  · exact (expand_becomes env c).unique

theorem run_expand_eq_ok_iff : (expand env).run c = .ok () c' ↔
    c'.verbose = c.verbose ∧ Replaces env c.values (.ok ()) c'.values :=
  run_expand_eq_iff

theorem run_expand_eq_error_iff {e : ConfigError} : (expand env).run c = .error e c' ↔
    c'.verbose = c.verbose ∧ Replaces env c.values (.error e) c'.values :=
  run_expand_eq_iff

/-- The values of a configuration are replaced in order.  All of them are if and only if each that
starts with a dollar sign is a placeholder for a variable that is set to a text.  Otherwise the
first at fault gives the error; what comes before it is replaced, and what comes after it is not.
Whether the model is verbose does not change. -/
theorem expand_values (env : Environment) (c : Config) :
    (∀ c', (expand env).run c = .ok () c' ↔
      c'.verbose = c.verbose ∧ List.Forall₂ (Gives env) c.values c'.values) ∧
    ((∃ c', (expand env).run c = .ok () c') ↔ ∀ value ∈ c.values, IsMeant value →
      ∃ name, StandsFor value name ∧ IsText env name) ∧
    ∀ e c', (expand env).run c = .error e c' ↔ c'.verbose = c.verbose ∧
      ∃ before before' value after, c.values = before ++ value :: after ∧
        c'.values = before' ++ value :: after ∧ List.Forall₂ (Gives env) before before' ∧
        Offends env value e := by
  have done : ∀ c', (expand env).run c = .ok () c' ↔
      c'.verbose = c.verbose ∧ List.Forall₂ (Gives env) c.values c'.values := by
    intro c'
    rw [run_expand_eq_ok_iff, replaces_ok_iff]
  refine ⟨done, ?_, ?_⟩
  · rw [← exists_forall₂_gives_iff]
    constructor
    · rintro ⟨c', run⟩
      exact ⟨c'.values, ((done c').1 run).2⟩
    · rintro ⟨left, replaced⟩
      cases run : (expand env).run c with
      | ok u d => exact ⟨d, rfl⟩
      | error e d =>
        have failed := (run_expand_eq_error_iff.1 run).2
        cases (failed.unique (replaces_ok_iff.2 replaced)).1
  · intro e c'
    rw [run_expand_eq_error_iff, replaces_error_iff]

/-- A value that is taken from a variable is not looked at again, though it looks like a
placeholder; a closing brace without an opening one is a fault. -/
theorem expand_values_levels : ∃ (env : Environment) (c c' : Config),
    c.values = ["$\x7bLEVEL\x7d", "$LOCALE\x7d", "$LEVEL", ""] ∧
    env.values.get? "LEVEL" = some "$DEPTH".toUTF8 ∧
    (expand env).run c = .error (.invalidPlaceholder "$LOCALE\x7d") c' ∧
    c'.values = ["$DEPTH", "$LOCALE\x7d", "$LEVEL", ""] := by
  let env : Environment := ⟨(∅ : Table ByteArray).insert "LEVEL" "$DEPTH".toUTF8⟩
  let c : Config :=
    { logLevel := "$\x7bLEVEL\x7d", defaultLocale := "$LOCALE\x7d",
      schema := { builtinNamespace := "$LEVEL" } }
  have level : env.values.get? "LEVEL" = some "$DEPTH".toUTF8 := by simp [env]
  have stands : StandsFor "$\x7bLEVEL\x7d" "LEVEL" :=
    ⟨.inr (by decide), by decide, by decide, by decide⟩
  have fault : Offends env "$LOCALE\x7d" (.invalidPlaceholder "$LOCALE\x7d") := by
    refine .malformed ⟨"LOCALE\x7d", by decide⟩ ?_
    intro name stands
    have refused : Placeholder.name "$LOCALE\x7d" =
        .error (.invalidPlaceholder "$LOCALE\x7d") := by cbv
    cases (name_eq_ok_iff.2 stands).symm.trans refused
  refine ⟨env, c, { c with logLevel := "$DEPTH" }, rfl, level, ?_, rfl⟩
  exact ((expand_values env c).2.2 _ _).2 ⟨rfl, _, _, _, _, rfl, rfl,
    .cons (.replaced stands level) .nil, fault⟩

/-- It is not enough that the variables are set: one that is set to bytes which are not valid
Unicode cannot be read. -/
theorem not_expand_iff_isSet : ¬ ∀ (env : Environment) (c : Config),
    (∃ c', (expand env).run c = .ok () c') ↔ ∀ value ∈ c.values, IsMeant value →
      ∃ name, StandsFor value name ∧ (env.values.get? name).isSome := by
  intro all
  let env : Environment := ⟨(∅ : Table ByteArray).insert "LEVEL" ⟨#[0xff]⟩⟩
  let c : Config := { logLevel := "$LEVEL" }
  have level : env.values.get? "LEVEL" = some ⟨#[0xff]⟩ := by simp [env]
  have stands : StandsFor "$LEVEL" "LEVEL" := ⟨.inl (by decide), by decide, by decide, by decide⟩
  have invalid : ∀ text : String, ⟨#[0xff]⟩ ≠ text.toUTF8 :=
    Environment.fromUTF8?_eq_none_iff.1 (by decide)
  have fails : (expand env).run c = .error (.unsetVariable (.notUnicode ⟨#[0xff]⟩)) c :=
    run_expand_eq_error_iff.2 ⟨rfl, .stop (.notUnicode stands level invalid)⟩
  obtain ⟨c', done⟩ := (all env c).2 fun value mem meant => by
    simp only [values, c, List.mem_cons, List.not_mem_nil, or_false] at mem
    rcases mem with rfl | rfl | rfl | rfl
    · exact ⟨"LEVEL", stands, by rw [level]; rfl⟩
    all_goals exact absurd (isPlaceholder_iff.2 meant) (by decide)
  cases fails.symm.trans done

end Config

end EntityModel
