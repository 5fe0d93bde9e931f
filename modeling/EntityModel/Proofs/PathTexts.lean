/-
The texts of paths.

A path is cut at its slashes into segments (`Path.segments`), of which the empty ones do not count:
`segments_append` and the lemmas after it say what becomes of them when paths are put together.
A segment is read as a step: `PathStep.parse_eq_error_iff` says when it names no type though it
should, and `PathStep.parse_of_plain` what it means without brackets.
-/
import EntityModel.Path
import Mathlib.Data.List.TakeWhile

namespace EntityModel

namespace Path

/-! ### Segments -/

/-- The segments of a path: what stands between slashes, unless it is empty. -/
def segments (path : String) : List String :=
  ((path.toList.splitOn '/').filter (· ≠ [])).map String.ofList

theorem pieces_eq_splitOn (l : List Char) : pieces l = l.splitOn '/' := by
  induction l with
  | nil => rfl
  | cons c rest ih =>
    simp only [pieces, separator, List.splitOn_cons_eq_if_modifyHead, ih, beq_iff_eq]
    cases pieces : List.splitOn '/' rest with
    | nil => exact absurd pieces (List.splitOn_ne_nil '/' rest)
    | cons piece others => rfl

theorem steps_eq_segments (path : String) : steps path = segments path := by
  rw [steps, segments, pieces_eq_splitOn]
  generalize List.splitOn '/' path.toList = pieces
  induction pieces with
  | nil => rfl
  | cons piece rest ih => cases piece <;> simpa using ih

theorem isNested_eq_true_iff {path : String} : isNested path = true ↔ '/' ∈ path.toList :=
  List.contains_iff_mem

theorem mem_slash_append (p q : String) : '/' ∈ (p ++ "/" ++ q).toList := by
  simp

theorem mem_slash (p : String) : '/' ∈ ("/" ++ p).toList := by
  simp

theorem segments_append (p q : String) : segments (p ++ "/" ++ q) = segments p ++ segments q := by
  have cut : (p ++ "/" ++ q).toList.splitOn '/' = p.toList.splitOn '/' ++ q.toList.splitOn '/' := by
    rw [String.toList_append, String.toList_append, List.append_assoc]
    exact List.splitOn_append_cons_self p.toList q.toList
  rw [segments, segments, segments, cut, List.filter_append, List.map_append]

theorem segments_empty : segments "" = [] := rfl

theorem segments_slash_append (p : String) : segments ("/" ++ p) = segments p := by
  have whole := segments_append "" p
  rwa [segments_empty, String.empty_append, List.nil_append] at whole

theorem segments_append_slash (p : String) : segments (p ++ "/") = segments p := by
  have whole := segments_append p ""
  rwa [segments_empty, String.append_empty, List.append_nil] at whole

theorem segments_append_slashes (p q : String) :
    segments (p ++ "//" ++ q) = segments (p ++ "/" ++ q) := by
  have doubled : p ++ "//" = p ++ "/" ++ "/" := by
    rw [String.append_assoc]
    rfl
  rw [doubled, segments_append, segments_append_slash, ← segments_append]

theorem segments_of_not_mem {name : String} (nonempty : name ≠ "") (plain : '/' ∉ name.toList) :
    segments name = [name] := by
  have kept : name.toList ≠ [] := by simpa using nonempty
  rw [segments, List.splitOn_eq_singleton plain, List.filter_cons_of_pos (by simpa using kept)]
  simp

/-! ### Type predicates -/

theorem after?_eq_none_iff {pattern l : List Char} :
    after? pattern l = none ↔ ¬ pattern <:+: l := by
  induction l with
  | nil => cases pattern <;> simp [after?]
  | cons c rest ih =>
    rw [after?, List.infix_cons_iff, ← List.isPrefixOf_iff_prefix]
    split <;> simp_all

theorem trim_eq_nil_iff {l : List Char} : trim l = [] ↔ ∀ c ∈ l, isPadding c := by
  rw [trim, List.reverse_eq_nil_iff, List.dropWhile_eq_nil_iff]
  simp only [List.mem_reverse]
  constructor
  · intro h
    have none : l.dropWhile isPadding = [] := by
      cases drop : l.dropWhile isPadding with
      | nil => rfl
      | cons c rest =>
        have kept : l.dropWhile isPadding ≠ [] := by simp [drop]
        have first := List.head_dropWhile_not isPadding kept
        simp only [drop, List.head_cons] at first h
        rw [h c List.mem_cons_self] at first
        cases first
    exact List.dropWhile_eq_nil_iff.1 none
  · intro h c mem
    exact h c ((List.dropWhile_sublist _).subset mem)

/-- The text has a type predicate, in which nothing but padding follows the attribute. -/
def NamesNoType (text : String) : Prop :=
  ∃ rest, after? typeAttribute text.toList = some rest ∧ ∀ c ∈ rest, isPadding c

end Path

namespace PathStep

variable {text path path' : String} {step : PathStep}

theorem parse_eq_error_iff {e : ModelError} : parse text path = .error e ↔
    Path.NamesNoType text ∧ e = .illegalArgument (.emptyOverride path) := by
  simp only [parse, Path.NamesNoType, ← Path.trim_eq_nil_iff]
  cases Path.after? Path.typeAttribute text.toList with
  | none => simp
  | some rest =>
    simp only [Option.some.injEq, exists_eq_left']
    cases Path.trim rest with
    | nil => simp [eq_comm]
    | cons c rest => simp

/-- What a step means does not depend on the path. -/
theorem parse_eq_ok_congr (h : parse text path = .ok step) : parse text path' = .ok step := by
  revert h
  simp only [parse]
  cases Path.after? Path.typeAttribute text.toList with
  | none => exact id
  | some rest =>
    dsimp only
    cases Path.trim rest with
    | nil => exact nofun
    | cons => exact id

/-- Without a type predicate, a step names no subtype. -/
theorem typeOverride_eq_none (plain : ¬ Path.typeAttribute <:+: text.toList)
    (h : parse text path = .ok step) : step.typeOverride = none := by
  rw [parse, Path.after?_eq_none_iff.2 plain] at h
  rw [← Except.ok.inj h]

theorem parse_of_plain (bracketless : '[' ∉ text.toList)
    (plain : ¬ Path.typeAttribute <:+: text.toList) : parse text path = .ok { field := text } := by
  have whole : text.toList.takeWhile (· ≠ '[') = text.toList := by
    refine List.takeWhile_eq_self_iff.2 fun c mem => ?_
    simp only [decide_eq_true_eq]
    rintro rfl
    exact bracketless mem
  simp only [parse, Path.after?_eq_none_iff.2 plain, whole, String.ofList_toList]

end PathStep

end EntityModel
