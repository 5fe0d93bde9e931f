/-
Steps as they are written.

A step with a type predicate is written with either quote and with white space around the equals
sign and before the closing bracket (`PathStep.Spelling`).  To read it gives back the field and the
name of the type: `parse_write`.  The reading rests on three searches, which are described one by
one:

* `takeWhile_field` — the field ends at the first bracket;
* `after?_eq_some_iff` — the predicate follows the first occurrence of the attribute, which cannot
  overlap with itself;
* `trim_append` — what surrounds a bare name is removed and nothing of the name.
-/
import EntityModel.Proofs.PathTexts

namespace EntityModel

namespace Path

/-- The character does not count at the ends of the name of a type. -/
def Delimits (c : Char) : Prop :=
  c = '=' ∨ c = '"' ∨ c = '\'' ∨ c = '[' ∨ c = ']' ∨ Text.isBlank c = true

theorem isPadding_iff {c : Char} : isPadding c = true ↔ Delimits c := by
  simp only [isPadding, Delimits, Bool.or_eq_true, beq_iff_eq, or_assoc]

/-- The name of a type that can be read back: it does not start or end with what surrounds it. -/
structure IsBare (type : String) : Prop where
  nonempty : type ≠ ""
  first : ∀ c, type.toList.head? = some c → ¬ Delimits c
  last : ∀ c, type.toList.getLast? = some c → ¬ Delimits c

/-! ### The first occurrence of the attribute -/

section Pattern

variable {p : Char} {ps l rest before : List Char}

/-- A pattern whose first character does not come again cannot overlap with itself. -/
theorem not_prefix_of_not_infix (single : p ∉ ps) (fresh : ¬ (p :: ps) <:+: before)
    (nonempty : before ≠ []) : ¬ (p :: ps) <+: before ++ (p :: ps) ++ rest := by
  intro here
  rw [List.append_assoc] at here
  rcases List.prefix_or_prefix_of_prefix here (List.prefix_append before _) with whole | part
  · exact fresh whole.isInfix
  · -- the pattern starts in `before` and ends in the occurrence after it, where `p` comes again
    obtain ⟨tail, split⟩ := part
    rw [← split, List.prefix_append_right_inj] at here
    match before, tail with
    | [], _ => exact nonempty rfl
    | c :: before, [] =>
      rw [List.append_nil] at split
      exact fresh (split ▸ List.infix_rfl)
    | c :: before, d :: tail =>
      obtain ⟨again, -⟩ := List.cons_prefix_cons.1 here
      obtain ⟨first, others⟩ := List.cons.inj split
      refine single ?_
      rw [← others, ← first, ← again]
      exact List.mem_append_right before List.mem_cons_self

/-- What follows a pattern is what follows its first occurrence. -/
theorem after?_eq_some_iff (single : p ∉ ps) : after? (p :: ps) l = some rest ↔
    ∃ before, l = before ++ (p :: ps) ++ rest ∧ ¬ (p :: ps) <:+: before := by
  constructor
  · intro found
    induction l with
    | nil => simp [after?] at found
    | cons c l ih =>
      rw [after?] at found
      split at found
      · next here =>
        obtain ⟨rest', whole⟩ := List.isPrefixOf_iff_prefix.1 here
        rw [← whole, List.drop_left, Option.some.injEq] at found
        exact ⟨[], by rw [← whole, found, List.nil_append], by simp⟩
      · next later =>
        rw [List.isPrefixOf_iff_prefix] at later
        obtain ⟨before, rfl, fresh⟩ := ih found
        refine ⟨c :: before, rfl, ?_⟩
        intro mem
        rcases List.infix_cons_iff.1 mem with here | mem
        · exact later (here.trans ⟨_, (List.append_assoc (c :: before) _ _).symm⟩)
        · exact fresh mem
  · rintro ⟨before, rfl, fresh⟩
    induction before with
    | nil =>
      rw [List.nil_append, List.cons_append, after?, if_pos, ← List.cons_append, List.drop_left]
      rw [List.isPrefixOf_iff_prefix, ← List.cons_append]
      exact List.prefix_append _ _
    | cons c before ih =>
      have later : ¬ (p :: ps) <+: c :: before ++ (p :: ps) ++ rest :=
        not_prefix_of_not_infix single fresh (List.cons_ne_nil c before)
      rw [List.cons_append, List.cons_append, after?, if_neg]
      · exact ih fun mem => fresh (List.infix_cons mem)
      · rwa [List.isPrefixOf_iff_prefix]

end Pattern

/-- The attribute starts with a character that does not come again in it. -/
theorem typeAttribute_eq : typeAttribute = '@' :: "xsi:type".toList := by decide

theorem at_not_mem : '@' ∉ "xsi:type".toList := by decide

theorem after?_typeAttribute_iff {l rest : List Char} : after? typeAttribute l = some rest ↔
    ∃ before, l = before ++ typeAttribute ++ rest ∧ ¬ typeAttribute <:+: before := by
  rw [typeAttribute_eq]
  exact after?_eq_some_iff at_not_mem

/-- A bracket does not belong to the attribute. -/
theorem not_infix_append_bracket {l : List Char} (plain : ¬ typeAttribute <:+: l) :
    ¬ typeAttribute <:+: l ++ ['['] := by
  intro mem
  rcases List.infix_concat_iff.1 mem with ⟨t, ends⟩ | mem
  · have last := congrArg List.getLast? ends
    have letter : typeAttribute.getLast? = some 'e' := by decide
    rw [List.getLast?_append, List.getLast?_concat, letter] at last
    cases last
  · exact plain mem

/-! ### The name and what surrounds it -/

theorem dropWhile_of_head {l : List Char} (first : ∀ c, l.head? = some c → ¬ Delimits c) :
    l.dropWhile isPadding = l := by
  cases l with
  | nil => rfl
  | cons c rest =>
    have kept := mt isPadding_iff.1 (first c rfl)
    rw [List.dropWhile_cons_of_neg kept]

/-- Padding is removed at both ends, up to what is no padding. -/
theorem trim_append {type : String} (bare : IsBare type) {left right : List Char}
    (hl : ∀ c ∈ left, Delimits c) (hr : ∀ c ∈ right, Delimits c) :
    trim (left ++ type.toList ++ right) = type.toList := by
  have nonempty : type.toList ≠ [] := by simpa using bare.nonempty
  have start : (type.toList ++ right).dropWhile isPadding = type.toList ++ right := by
    refine dropWhile_of_head ?_
    intro c head
    refine bare.first c ?_
    rwa [List.head?_append, List.head?_eq_some_head nonempty, Option.some_or,
      ← List.head?_eq_some_head nonempty] at head
  have finish : type.toList.reverse.dropWhile isPadding = type.toList.reverse :=
    dropWhile_of_head fun c head => bare.last c (List.head?_reverse ▸ head)
  rw [trim, List.append_assoc, List.dropWhile_append_of_pos fun c mem => isPadding_iff.2 (hl c mem),
    start, List.reverse_append, List.dropWhile_append_of_pos, finish, List.reverse_reverse]
  exact fun c mem => isPadding_iff.2 (hr c (List.mem_reverse.1 mem))

end Path

namespace PathStep

/-- How a type predicate is written: with which quote, and with which white space around the
equals sign and before the closing bracket. -/
structure Spelling where
  quote : Char
  beforeEquals : String := ""
  afterEquals : String := ""
  beforeBracket : String := ""
  isQuote : quote = '"' ∨ quote = '\''
  blank : ∀ c ∈ (beforeEquals ++ afterEquals ++ beforeBracket).toList, Text.isBlank c = true

namespace Spelling

variable (s : Spelling)

/-- What stands between the attribute and the name of the type. -/
def opening : List Char := s.beforeEquals.toList ++ '=' :: s.afterEquals.toList ++ [s.quote]

/-- What stands after the name of the type. -/
def closing : List Char := s.quote :: s.beforeBracket.toList ++ [']']

/-- A field with a predicate that names a type. -/
def write (field type : String) : String :=
  field ++ "[@xsi:type" ++ s.beforeEquals ++ "=" ++ s.afterEquals ++ s.quote.toString ++ type ++
    s.quote.toString ++ s.beforeBracket ++ "]"

theorem toList_write (field type : String) : (s.write field type).toList =
    field.toList ++ '[' :: (Path.typeAttribute ++ (s.opening ++ type.toList ++ s.closing)) := by
  have name : "[@xsi:type".toList = '[' :: Path.typeAttribute := by decide
  have equals : "=".toList = ['='] := by decide
  have bracket : "]".toList = [']'] := by decide
  have quote : s.quote.toString.toList = [s.quote] := by simp
  simp only [write, opening, closing, String.toList_append, name, equals, bracket, quote,
    List.append_assoc, List.cons_append, List.nil_append]

theorem delimits_of_blank {c : Char} (mem : c ∈ s.beforeEquals.toList ∨ c ∈ s.afterEquals.toList ∨
    c ∈ s.beforeBracket.toList) : Path.Delimits c := by
  refine .inr (.inr (.inr (.inr (.inr (s.blank c ?_)))))
  simpa [or_assoc] using mem

theorem delimits_quote : Path.Delimits s.quote :=
  s.isQuote.elim (fun h => .inr (.inl h)) fun h => .inr (.inr (.inl h))

theorem delimits_of_mem_opening {c : Char} (mem : c ∈ s.opening) : Path.Delimits c := by
  simp only [opening, List.mem_append, List.mem_cons, List.not_mem_nil, or_false] at mem
  rcases mem with (mem | rfl | mem) | rfl
  · exact s.delimits_of_blank (.inl mem)
  · exact .inl rfl
  · exact s.delimits_of_blank (.inr (.inl mem))
  · exact s.delimits_quote

theorem delimits_of_mem_closing {c : Char} (mem : c ∈ s.closing) : Path.Delimits c := by
  simp only [closing, List.cons_append, List.mem_append, List.mem_cons, List.not_mem_nil,
    or_false] at mem
  rcases mem with rfl | mem | rfl
  · exact s.delimits_quote
  · exact s.delimits_of_blank (.inr (.inr mem))
  · exact .inr (.inr (.inr (.inr (.inl rfl))))

end Spelling

variable {field type : String}

/-- The field of a step ends at the first bracket. -/
theorem takeWhile_field {l rest : List Char} (bracketless : '[' ∉ l) :
    (l ++ '[' :: rest).takeWhile (· ≠ '[') = l := by
  rw [List.takeWhile_append_of_pos, List.takeWhile_cons_of_neg, List.append_nil]
  · simp
  · intro c mem
    simp only [decide_eq_true_eq]
    rintro rfl
    exact bracketless mem

theorem parse_of_after? {text path : String} {rest : List Char} (bare : Path.IsBare type)
    (here : Path.after? Path.typeAttribute text.toList = some rest)
    (name : Path.trim rest = type.toList) : parse text path = .ok
      { field := String.ofList (text.toList.takeWhile (· ≠ '[')), typeOverride := some type } := by
  cases read : Path.trim rest with
  | nil =>
    rw [read] at name
    exact absurd (by simpa using name.symm) bare.nonempty
  | cons c others =>
    have whole : String.ofList (c :: others) = type := by rw [← read, name, String.ofList_toList]
    simp only [parse, here, read, whole]

/-- A step is refused for a predicate in which nothing but delimiters follows the attribute, and
for no other reason. -/
theorem parse_eq_error_iff_delimits {text path : String} {e : ModelError} :
    parse text path = .error e ↔ e = .illegalArgument (.emptyOverride path) ∧
      ∃ before rest, text = before ++ "@xsi:type" ++ rest ∧
        ¬ Path.typeAttribute <:+: before.toList ∧ ∀ c ∈ rest.toList, Path.Delimits c := by
  have written : "@xsi:type".toList = Path.typeAttribute := rfl
  rw [parse_eq_error_iff, Path.NamesNoType, and_comm]
  refine and_congr_right ?_
  intro _
  simp only [Path.after?_typeAttribute_iff, Path.isPadding_iff]
  constructor
  · rintro ⟨rest, ⟨before, whole, fresh⟩, padding⟩
    refine ⟨String.ofList before, String.ofList rest, ?_, ?_, ?_⟩
    · rw [← String.toList_inj, whole]
      simp [written]
    · rwa [String.toList_ofList]
    · rwa [String.toList_ofList]
  · rintro ⟨before, rest, rfl, fresh, padding⟩
    exact ⟨rest.toList, ⟨before.toList, by simp [written], fresh⟩, padding⟩

/-- What is written is read back: a field alone, and a field with the name of a type in any
spelling.  A step is refused if its predicate holds nothing but delimiters after the attribute. -/
theorem parse_write (bracketless : '[' ∉ field.toList)
    (plain : ¬ Path.typeAttribute <:+: field.toList) (bare : Path.IsBare type) (s : Spelling)
    (path : String) :
    parse field path = .ok { field } ∧
    parse (s.write field type) path = .ok { field, typeOverride := some type } ∧
    ∀ text e, parse text path = .error e ↔ e = .illegalArgument (.emptyOverride path) ∧
      ∃ before rest, text = before ++ "@xsi:type" ++ rest ∧
        ¬ Path.typeAttribute <:+: before.toList ∧ ∀ c ∈ rest.toList, Path.Delimits c := by
  refine ⟨parse_of_plain bracketless plain, ?_, fun _ _ => parse_eq_error_iff_delimits⟩
  have here : Path.after? Path.typeAttribute (s.write field type).toList =
      some (s.opening ++ type.toList ++ s.closing) := by
    rw [Path.after?_typeAttribute_iff]
    refine ⟨field.toList ++ ['['], ?_, Path.not_infix_append_bracket plain⟩
    rw [s.toList_write]
    simp only [List.append_assoc, List.cons_append, List.nil_append]
  have name := Path.trim_append bare (fun _ => s.delimits_of_mem_opening)
    fun _ => s.delimits_of_mem_closing
  rw [parse_of_after? bare here name, s.toList_write, takeWhile_field bracketless,
    String.ofList_toList]

/-- The name of a type may hold brackets, quotes and the attribute itself, if it does not start
or end with them. -/
theorem parse_write_home : ∃ s : Spelling,
    '[' ∉ "home".toList ∧ ¬ Path.typeAttribute <:+: "home".toList ∧
    Path.IsBare "A[@xsi:type='B']/C" ∧
    s.write "home" "A[@xsi:type='B']/C" = "home[@xsi:type = \"A[@xsi:type='B']/C\"\t]" ∧
    parse "home[@xsi:type = \"A[@xsi:type='B']/C\"\t]" "home/city" =
      .ok { field := "home", typeOverride := some "A[@xsi:type='B']/C" } ∧
    parse "home[@xsi:type='']" "home/city" =
      .error (.illegalArgument (.emptyOverride "home/city")) := by
  have bracketless : '[' ∉ "home".toList := by decide
  have plain : ¬ Path.typeAttribute <:+: "home".toList := by decide
  have bare : Path.IsBare "A[@xsi:type='B']/C" := by
    refine ⟨by decide, ?_, ?_⟩ <;> rintro c ⟨⟩ <;> rw [← Path.isPadding_iff] <;> decide
  have blank : ∀ c ∈ (" " ++ " " ++ "\t").toList, Text.isBlank c = true :=
    List.all_eq_true.1 (by decide)
  let s : Spelling :=
    { quote := '"', beforeEquals := " ", afterEquals := " ", beforeBracket := "\t",
      isQuote := .inl rfl, blank }
  have written : s.write "home" "A[@xsi:type='B']/C" =
      "home[@xsi:type = \"A[@xsi:type='B']/C\"\t]" := by rfl
  obtain ⟨-, read, refused⟩ := parse_write bracketless plain bare s "home/city"
  rw [written] at read
  refine ⟨s, bracketless, plain, bare, written, read, ?_⟩
  refine (refused _ _).2 ⟨rfl, "home[", "='']", by decide, by decide, ?_⟩
  intro c mem
  have padding : "='']".toList.all Path.isPadding = true := by decide
  exact Path.isPadding_iff.1 (List.all_eq_true.1 padding c mem)

end PathStep

end EntityModel
