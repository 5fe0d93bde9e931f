/-
Paths put together.

A path may be cut at any slash: what follows is resolved from the type of the field to which the
first part leads, unless that part ends by naming a subtype (`leads_append_iff`).  How many slashes
stand between two segments does not matter (`field_eq_ok_congr`), and a single segment differs from
the plain name only in that it may be lent by a direct subtype (`field_segment_iff`).

`field_composes` puts these together.
-/
import EntityModel.Proofs.PathSemantics

namespace EntityModel

namespace Repository

variable {r : Repository} {id u : TypeId} {name p q path path' : String} {f g : Field}

/-! ### Steps put together -/

theorem Leads.congr_path {steps : List String} (h : r.Leads path id steps f) :
    r.Leads path' id steps f := by
  induction h with
  | last parsed finds => exact .last (PathStep.parse_eq_ok_congr parsed) finds
  | next parsed finds leads _ ih => exact .next (PathStep.parse_eq_ok_congr parsed) finds leads ih

theorem Leads.ne_nil {steps : List String} (h : r.Leads path id steps f) : steps ≠ [] := by
  cases h <;> exact List.cons_ne_nil _ _

theorem leadsTo_none_iff : r.LeadsTo id none u ↔ u = id ∧ ∃ t, r.complex? id = some t := by
  constructor
  · rintro ⟨t, found⟩
    exact ⟨rfl, t, found⟩
  · rintro ⟨rfl, t, found⟩
    exact .plain t found

/-- Steps after others start at the type of the field to which those lead, if the last of them
names no subtype. -/
theorem leads_append_iff {steps rest : List String} (nonempty : steps ≠ []) (more : rest ≠ [])
    (plain : ∀ last ∈ steps.getLast?, ¬ Path.typeAttribute <:+: last.toList) :
    r.Leads path id (steps ++ rest) g ↔ ∃ f, r.Leads path id steps f ∧
      (∃ t, r.complex? f.valueType = some t) ∧ r.Leads path f.valueType rest g := by
  induction steps generalizing id with
  | nil => exact absurd rfl nonempty
  | cons text others ih =>
    cases others with
    | nil =>
      have plain := plain text rfl
      constructor
      · intro h
        rcases h with _ | ⟨parsed, finds, leads, others⟩
        · exact absurd rfl more
        · rw [PathStep.typeOverride_eq_none plain parsed, leadsTo_none_iff] at leads
          obtain ⟨rfl, complex⟩ := leads
          exact ⟨_, .last parsed finds, complex, others⟩
      · rintro ⟨f, ⟨parsed, finds⟩ | ⟨-, -, -, ⟨⟩⟩, complex, others⟩
        refine .next parsed finds ?_ others
        rw [PathStep.typeOverride_eq_none plain parsed]
        exact leadsTo_none_iff.2 ⟨rfl, complex⟩
    | cons next others =>
      have more : next :: others ≠ [] := List.cons_ne_nil next others
      constructor
      · rintro (- | ⟨parsed, finds, leads, others⟩)
        obtain ⟨f, first, complex, others⟩ := (ih more plain).1 others
        exact ⟨f, .next parsed finds leads first, complex, others⟩
      · rintro ⟨f, - | ⟨parsed, finds, leads, first⟩, complex, others⟩
        exact .next parsed finds leads ((ih more plain).2 ⟨f, first, complex, others⟩)

theorem leads_singleton_iff (bracketless : '[' ∉ name.toList)
    (plain : ¬ Path.typeAttribute <:+: name.toList) :
    r.Leads path id [name] f ↔ r.FindsField id name f := by
  have parsed : PathStep.parse name path = .ok { field := name } :=
    PathStep.parse_of_plain bracketless plain
  constructor
  · rintro (⟨parsed', finds⟩ | ⟨-, -, -, ⟨⟩⟩)
    rw [Except.ok.inj (parsed'.symm.trans parsed)] at finds
    exact finds
  · exact .last parsed

/-! ### Paths put together -/

/-- Only the segments of a nested path decide to which field it leads. -/
theorem field_eq_ok_congr (hp : '/' ∈ p.toList) (hq : '/' ∈ q.toList)
    (same : Path.segments p = Path.segments q) : r.field id p = .ok g ↔ r.field id q = .ok g := by
  rw [field_eq_ok_iff_leads hp, field_eq_ok_iff_leads hq, same]
  exact and_congr_right fun _ => ⟨.congr_path, .congr_path⟩

theorem field_append_iff (hp : Path.segments p ≠ []) (hq : Path.segments q ≠ [])
    (plain : ∀ last ∈ (Path.segments p).getLast?, ¬ Path.typeAttribute <:+: last.toList) :
    r.field id (p ++ "/" ++ q) = .ok g ↔ ∃ f, r.field id ("/" ++ p) = .ok f ∧
      (∃ t, r.complex? f.valueType = some t) ∧ r.field f.valueType ("/" ++ q) = .ok g := by
  simp only [field_eq_ok_iff_leads (Path.mem_slash_append p q),
    field_eq_ok_iff_leads (Path.mem_slash p), field_eq_ok_iff_leads (Path.mem_slash q),
    Path.segments_append, Path.segments_slash_append, leads_append_iff hp hq plain]
  constructor
  · rintro ⟨start, f, first, complex, rest⟩
    exact ⟨f, ⟨start, first.congr_path⟩, complex, complex, rest.congr_path⟩
  · rintro ⟨f, ⟨start, first⟩, complex, -, rest⟩
    exact ⟨start, f, first.congr_path, complex, rest.congr_path⟩

theorem ne_empty_of_field (h : r.field id name = .ok f) : name ≠ "" := by
  rintro rfl
  obtain ⟨t, found⟩ := exists_complex_of_field h
  rw [field_eq_outcome found] at h
  cases h

theorem ne_empty_of_field_segment (h : r.field id ("/" ++ name) = .ok f) : name ≠ "" := by
  rintro rfl
  have leads := ((field_eq_ok_iff_leads (Path.mem_slash "")).1 h).2
  exact leads.ne_nil rfl

/-- A single segment finds what a step finds. -/
theorem field_segment_iff (nonempty : name ≠ "") (slashless : '/' ∉ name.toList)
    (bracketless : '[' ∉ name.toList) (plain : ¬ Path.typeAttribute <:+: name.toList) :
    r.field id ("/" ++ name) = .ok f ↔
      (∃ t, r.complex? id = some t) ∧ r.FindsField id name f := by
  rw [field_eq_ok_iff_leads (Path.mem_slash name), Path.segments_slash_append,
    Path.segments_of_not_mem nonempty slashless, leads_singleton_iff bracketless plain]

/-- A plain name finds what the type has or inherits. -/
theorem field_name_iff (nonempty : name ≠ "") (slashless : '/' ∉ name.toList) :
    r.field id name = .ok f ↔ (∃ t, r.complex? id = some t) ∧ r.InheritsField id name f := by
  have flat : Path.isNested name = false := by
    rw [← Bool.not_eq_true, Path.isNested_eq_true_iff]
    exact slashless
  rw [← inheritedField?_eq_some_iff]
  constructor
  · intro h
    obtain ⟨t, found⟩ := exists_complex_of_field h
    exact ⟨⟨t, found⟩, (field_eq_ok_iff found nonempty flat).1 h⟩
  · rintro ⟨⟨t, found⟩, inherits⟩
    exact (field_eq_ok_iff found nonempty flat).2 inherits

/-- A name that only a nested path finds is lent by the first direct subtype that has it. -/
theorem lent_of_field_segment (nonempty : name ≠ "") (slashless : '/' ∉ name.toList)
    (lacks : ∀ g, r.field id name ≠ .ok g) (complex : ∃ t, r.complex? id = some t)
    (finds : r.FindsField id name f) :
    ∃ s, IsFirst (fun u => ∃ g, r.field u name = .ok g) (r.complexSubTypesOf id) s ∧
      r.field s name = .ok f := by
  have named : ∀ u ∈ r.complexSubTypesOf id, ∀ g,
      r.field u name = .ok g ↔ r.InheritsField u name g := by
    intro u mem g
    rw [field_name_iff nonempty slashless]
    exact and_iff_right (complex?_of_mem_complexSubTypesOf mem)
  cases finds with
  | inherited h => exact absurd ((field_name_iff nonempty slashless).2 ⟨complex, h⟩) (lacks f)
  | lent s _ first h =>
    exact ⟨s, first.congr fun u mem => exists_congr fun g => (named u mem g).symm,
      (named s first.mem f).2 h⟩

/-- A path can be cut at a slash, if no subtype is named there; more slashes than one do not count,
nor do slashes at its ends; and a single segment is a plain name, except that it may be lent by a
direct subtype. -/
theorem field_composes (r : Repository) (id : TypeId) :
    (∀ p q g, Path.segments p ≠ [] → Path.segments q ≠ [] →
      (∀ last ∈ (Path.segments p).getLast?, ¬ Path.typeAttribute <:+: last.toList) →
      (r.field id (p ++ "/" ++ q) = .ok g ↔ ∃ f, r.field id ("/" ++ p) = .ok f ∧
        (∃ t, r.complex? f.valueType = some t) ∧ r.field f.valueType ("/" ++ q) = .ok g)) ∧
    (∀ path g, '/' ∈ path.toList →
      (r.field id ("/" ++ path) = .ok g ↔ r.field id path = .ok g) ∧
      (r.field id (path ++ "/") = .ok g ↔ r.field id path = .ok g)) ∧
    (∀ p q g, r.field id (p ++ "//" ++ q) = .ok g ↔ r.field id (p ++ "/" ++ q) = .ok g) ∧
    ∀ name f, '/' ∉ name.toList → '[' ∉ name.toList → ¬ Path.typeAttribute <:+: name.toList →
      (r.field id name = .ok f →
        r.field id ("/" ++ name) = .ok f ∧ r.field id (name ++ "/") = .ok f) ∧
      ((∀ g, r.field id name ≠ .ok g) →
        r.field id ("/" ++ name) = .ok f ∨ r.field id (name ++ "/") = .ok f →
          ∃ s, IsFirst (fun u => ∃ g, r.field u name = .ok g) (r.complexSubTypesOf id) s ∧
            r.field s name = .ok f) := by
  refine ⟨fun p q g hp hq plain => field_append_iff hp hq plain, fun path g nested => ⟨?_, ?_⟩,
    fun p q g => ?_, fun name f slashless bracketless plain => ?_⟩
  · exact field_eq_ok_congr (Path.mem_slash path) nested (Path.segments_slash_append path)
  · exact field_eq_ok_congr (by simp) nested (Path.segments_append_slash path)
  · exact field_eq_ok_congr (by simp) (Path.mem_slash_append p q) (Path.segments_append_slashes p q)
  · have turned : r.field id (name ++ "/") = .ok f ↔ r.field id ("/" ++ name) = .ok f :=
      field_eq_ok_congr (by simp) (Path.mem_slash name)
        ((Path.segments_append_slash name).trans (Path.segments_slash_append name).symm)
    rw [turned, and_self_iff, or_self_iff]
    refine ⟨fun found => ?_, fun lacks lent => ?_⟩
    · have nonempty := ne_empty_of_field found
      obtain ⟨complex, inherits⟩ := (field_name_iff nonempty slashless).1 found
      exact (field_segment_iff nonempty slashless bracketless plain).2
        ⟨complex, .inherited inherits⟩
    · have nonempty := ne_empty_of_field_segment lent
      obtain ⟨complex, finds⟩ := (field_segment_iff nonempty slashless bracketless plain).1 lent
      exact lent_of_field_segment nonempty slashless lacks complex finds

/-- The home of a boss, and the boss of a person, who is lent by an employee. -/
theorem field_composes_residents : ∃ f g,
    Path.segments "boss" ≠ [] ∧ Path.segments "home" ≠ [] ∧
    (∀ last ∈ (Path.segments "boss").getLast?, ¬ Path.typeAttribute <:+: last.toList) ∧
    residents.field ⟨35⟩ ("boss" ++ "/" ++ "home") = .ok g ∧
    residents.field ⟨35⟩ ("/" ++ "boss") = .ok f ∧
    (∃ t, residents.complex? f.valueType = some t) ∧
    residents.field f.valueType ("/" ++ "home") = .ok g ∧
    '/' ∈ ("boss" ++ "/" ++ "home").toList ∧
    residents.field ⟨35⟩ ("/" ++ ("boss" ++ "/" ++ "home")) = .ok g ∧
    residents.field ⟨35⟩ ("boss" ++ "//" ++ "home") = .ok g ∧
    '/' ∉ "boss".toList ∧ '[' ∉ "boss".toList ∧ ¬ Path.typeAttribute <:+: "boss".toList ∧
    (∀ h, residents.field ⟨35⟩ "boss" ≠ .ok h) ∧
    ∃ s, IsFirst (fun u => ∃ h, residents.field u "boss" = .ok h)
      (residents.complexSubTypesOf ⟨35⟩) s ∧ residents.field s "boss" = .ok f := by
  have resolved : (residents.field ⟨35⟩ ("boss" ++ "/" ++ "home")).isOk = true ∧
      (residents.field ⟨35⟩ "boss").isOk = false := by
    rw [residents, Session.repository_start]
    cbv
  have segments : Path.segments "boss" = ["boss"] ∧ Path.segments "home" = ["home"] := by
    decide +kernel
  have plain : ¬ Path.typeAttribute <:+: "boss".toList := by decide
  have last : ∀ last ∈ (Path.segments "boss").getLast?, ¬ Path.typeAttribute <:+: last.toList := by
    rw [segments.1]
    rintro _ ⟨⟩
    exact plain
  have start : Path.segments "boss" ≠ [] ∧ Path.segments "home" ≠ [] := by simp [segments]
  -- from here on it does not matter what the repository is
  generalize residents = r at *
  obtain ⟨cut, slashes, doubled, names⟩ := field_composes r ⟨35⟩
  have lacks : ∀ h, r.field ⟨35⟩ "boss" ≠ .ok h := fun h found => by
    rw [found] at resolved
    cases resolved.2
  cases whole : r.field ⟨35⟩ ("boss" ++ "/" ++ "home") with
  | error e =>
    rw [whole] at resolved
    cases resolved.1
  | ok g =>
    obtain ⟨f, first, complex, rest⟩ := (cut "boss" "home" g start.1 start.2 last).1 whole
    have lent := (names "boss" f (by decide) (by decide) plain).2 lacks (.inl first)
    exact ⟨f, g, start.1, start.2, last, rfl, first, complex, rest, by decide,
      ((slashes _ g (by decide)).1).2 whole, (doubled "boss" "home" g).2 whole, by decide,
      by decide, plain, lacks, lent⟩

end Repository

end EntityModel
