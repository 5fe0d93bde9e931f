/-
Which types embed a type.

A type is told which types embed it when their fields are declared, and it gets the usages of
the super types that it keeps when it is frozen, one level at a time.  In a model that is built
of a manifest alone this makes the usages complete:

* `Evolves.mem_usages_iff` — after a freeze of all types, the usages of a type are those that were
  declared on it or on a type that it inherits from, however far above;
* `Manifest.mem_usages_declared` — the declared usages of a type are the entries whose fields
  embed it;
* `Manifest.build_usages` — so a type is used by the entries that embed it or what it inherits
  from.
-/
import EntityModel.Proofs.Acyclicity
import EntityModel.Proofs.RealizedManifests

namespace EntityModel

open Edit Repository

theorem nodup_foldl_appendNew (l : List TypeId) {ids : List TypeId} (distinct : ids.Nodup) :
    (l.foldl appendNew ids).Nodup := by
  induction l generalizing ids with
  | nil => exact distinct
  | cons id rest ih => exact ih (nodup_appendNew distinct id)

/-! ### Inherited usages -/

namespace Repository

variable {r r' : Repository} {order : List TypeId} {u v id : TypeId} {t t' : ComplexType}

theorem mem_usagesOf {ids : List TypeId} :
    id ∈ r.usagesOf ids ↔ ∃ v ∈ ids, ∃ t, r.complex? v = some t ∧ id ∈ t.usages := by
  rw [usagesOf, List.mem_flatMap]
  refine exists_congr fun v => and_congr_right fun _ => ?_
  cases r.complex? v <;> simp

namespace Evolves

variable (E : r.Evolves order r')

include E

/-- A type that is frozen gets the usages of what it inherits from directly. -/
theorem mem_usages_of_mem (mem : u ∈ order) (found : r.complex? u = some t)
    (found' : r'.complex? u = some t') :
    id ∈ t'.usages ↔ id ∈ t.usages ∨
      ∃ v, r'.Inherits u v ∧ ∃ s, r'.complex? v = some s ∧ id ∈ s.usages := by
  obtain ⟨t₀, declared, moment, found₀, -, after, -⟩ := E.flattened_of_mem mem
  obtain rfl : t = t₀ :=
    TypeNode.complex.inj (Option.some.inj ((complex?_eq_some.1 found).symm.trans found₀))
  have same : t' = r'.flattened order moment u t declared :=
    TypeNode.complex.inj (Option.some.inj ((complex?_eq_some.1 found').symm.trans after))
  have supers : r'.complexSuperTypesOf u =
      (r'.flatten u t.instantiable declared).superTypes := by
    rw [complexSuperTypesOf, found', same]
    rfl
  have usages : t'.usages =
      (r'.usagesOf (r'.complexSuperTypesOf u)).foldl appendNew t.usages := by
    rw [supers, same]
    rfl
  rw [usages, mem_foldl_appendNew, mem_usagesOf]
  refine or_congr_right (exists_congr fun v => ?_)
  constructor
  · rintro ⟨super, s, there, used⟩
    exact ⟨⟨super, by rw [there]; rfl⟩, s, there, used⟩
  · rintro ⟨inherits, s, there, used⟩
    exact ⟨inherits.1, s, there, used⟩

/-- If all complex types are frozen, the usages of a type are those that were there, of itself
and of all that it inherits from; the induction is on its place in the order. -/
theorem mem_usages_iff (all : ∀ v s, r.complex? v = some s → v ∈ order)
    (found' : r'.complex? u = some t') :
    id ∈ t'.usages ↔ ∃ v s, Relation.ReflTransGen r'.Inherits u v ∧ r.complex? v = some s ∧
      id ∈ s.usages := by
  induction rank : order.idxOf u using Nat.strongRecOn generalizing u t' with
  | ind rank ih =>
    subst rank
    obtain ⟨t, found, -⟩ := E.exists_of_complex? found'
    have mem := all u t found
    have above : ∀ {v s}, r'.Inherits u v → r'.complex? v = some s → (id ∈ s.usages ↔
        ∃ w s, Relation.ReflTransGen r'.Inherits v w ∧ r.complex? w = some s ∧ id ∈ s.usages) := by
      intro v s inherits there
      obtain ⟨s₀, before, -⟩ := E.exists_of_complex? there
      have kept := E.mem_keptBy_of_inherits mem inherits
      exact ih _ (E.idxOf_lt mem (all v s₀ before) kept) there rfl
    rw [E.mem_usages_of_mem mem found found']
    constructor
    · rintro (own | ⟨v, inherits, s, there, used⟩)
      · exact ⟨u, t, .refl, found, own⟩
      · obtain ⟨w, s', path, before, used⟩ := (above inherits there).1 used
        exact ⟨w, s', path.head inherits, before, used⟩
    · rintro ⟨w, s, path, before, used⟩
      rcases Relation.ReflTransGen.cases_head path with rfl | ⟨v, inherits, path⟩
      · obtain rfl := Option.some.inj (found.symm.trans before)
        exact .inl used
      · obtain ⟨s', there⟩ := Option.isSome_iff_exists.1 inherits.2
        exact .inr ⟨v, inherits, s', there, (above inherits there).2 ⟨w, s, path, before, used⟩⟩

end Evolves

end Repository

/-! ### Declared usages -/

/-- A field embeds the type that its entry names, if that is complex and the entry has no
reference. -/
theorem FieldEntry.embeds_declared? {e : FieldEntry} {r : Repository} {ns : String}
    {id u : TypeId} {f : Field} (declares : e.declared? r ns id = some f) :
    f.embeds u = true ↔
      e.reference = none ∧ r.named? ns e.type = some u ∧ (r.complex? u).isSome := by
  obtain ⟨valueType, kind, found, holds, rfl⟩ := exists_of_declared? declares
  rw [Field.embeds, decide_eq_true_eq, found, Option.some.injEq]
  cases reference : e.reference with
  | none =>
    rw [kind?, reference] at holds
    obtain rfl := Option.some.inj holds
    constructor
    · rintro ⟨contained, rfl⟩
      refine ⟨rfl, rfl, ?_⟩
      by_contra other
      rw [if_neg other] at contained
      split at contained <;> cases contained
    · rintro ⟨-, rfl, complex⟩
      exact ⟨if_pos complex, rfl⟩
  | some target =>
    rw [kind?, reference] at holds
    obtain ⟨_, -, rfl⟩ := Option.map_eq_some_iff.1 holds
    simp

namespace Manifest

variable {m : Manifest} {c : Config} {ids : List TypeId} {r r' : Repository} {u id : TypeId}

theorem mem_embedders {entries : List (TypeEntry × TypeId)} :
    id ∈ m.embedders c r entries u ↔ ∃ e, (e, id) ∈ entries ∧ ∃ f ∈ e.fields, ∃ g,
      f.declared? r (m.namespaceOf c.schema e) id = some g ∧ g.embeds u = true := by
  have told : ∀ p : TypeEntry × TypeId, (m.membersOf c r p).any (·.embeds u) = true ↔
      ∃ f ∈ p.1.fields, ∃ g, f.declared? r (m.namespaceOf c.schema p.1) p.2 = some g ∧
        g.embeds u = true := by
    intro p
    rw [List.any_eq_true, membersOf, TypeEntry.members]
    constructor
    · rintro ⟨member, mem, embeds⟩
      rcases List.mem_append.1 mem with mem | mem
      · obtain ⟨_, -, rfl⟩ := List.mem_map.1 mem
        cases embeds
      · obtain ⟨g, built, rfl⟩ := List.mem_map.1 mem
        obtain ⟨f, listed, declares⟩ := List.mem_filterMap.1 built
        exact ⟨f, listed, g, declares, embeds⟩
    · rintro ⟨f, listed, g, declares, embeds⟩
      have built : g ∈ p.1.fields.filterMap (·.declared? r (m.namespaceOf c.schema p.1) p.2) :=
        List.mem_filterMap.2 ⟨f, listed, declares⟩
      exact ⟨.field g, List.mem_append_right _ (List.mem_map_of_mem built), embeds⟩
  rw [embedders, List.mem_map]
  constructor
  · rintro ⟨⟨e, _⟩, mem, rfl⟩
    obtain ⟨mem, embeds⟩ := List.mem_filter.1 mem
    exact ⟨e, mem, (told _).1 embeds⟩
  · rintro ⟨e, mem, embeds⟩
    exact ⟨(e, id), List.mem_filter.2 ⟨mem, (told _).2 embeds⟩, rfl⟩

/-- In a model that is built of a manifest alone, the types are those of the entries, and the
declared usages of a type are the entries with a field that embeds it. -/
theorem mem_usages_declared {ns : String} {t : ComplexType}
    (D : m.IsDeclaredBy c (.initial ns) ids r) (found : r.complex? u = some t) :
    (∃ e, (e, u) ∈ m.types.zip ids) ∧ t.usages.Nodup ∧ ∀ id, id ∈ t.usages ↔
      ∃ e, (e, id) ∈ m.types.zip ids ∧ ∃ f ∈ e.fields, f.reference = none ∧
        r.named? (m.namespaceOf c.schema e) f.type = some u := by
  have here := complex?_eq_some.1 found
  have entry : ∃ e, (e, u) ∈ m.types.zip ids := by
    refine (D.all u _ here).resolve_left fun old => ?_
    -- what was there before is simple
    obtain ⟨n, before⟩ := Option.isSome_iff_exists.1 old
    rw [D.old u n before] at here
    cases n with
    | simple => cases here
    | complex s => exact absurd (complex?_eq_some.2 before) (complex?_initial_ne_some ns u s)
  obtain ⟨e, mem⟩ := entry
  obtain rfl := Option.some.inj (found.symm.trans (D.new e u mem))
  refine ⟨⟨e, mem⟩, nodup_foldl_appendNew _ .nil, fun id => ?_⟩
  rw [mem_foldl_appendNew, or_iff_right List.not_mem_nil, mem_embedders]
  refine exists_congr fun e' => and_congr_right fun mem' => ?_
  refine exists_congr fun f => and_congr_right fun listed => ?_
  constructor
  · rintro ⟨g, declares, embeds⟩
    obtain ⟨none, names, -⟩ := (FieldEntry.embeds_declared? declares).1 embeds
    exact ⟨none, names⟩
  · rintro ⟨none, names⟩
    obtain ⟨g, declares⟩ := Option.isSome_iff_exists.1 ((D.resolves e' id mem').fields f listed)
    exact ⟨g, declares, (FieldEntry.embeds_declared? declares).2 ⟨none, names, by rw [found]; rfl⟩⟩

/-- In a model that is built of a manifest alone, a type is used by the entries with a field that
embeds it or a type that it inherits from, each once. -/
theorem build_usages {ns : String} {final : Model}
    (run : m.build c { repository := .initial ns } = .ok ids final) {t : ComplexType}
    (found : final.repository.complex? u = some t) :
    t.usages.Nodup ∧ ∀ id, id ∈ t.usages ↔
      ∃ e, (e, id) ∈ m.types.zip ids ∧ ∃ f ∈ e.fields, f.reference = none ∧ ∃ v,
        final.repository.named? (m.namespaceOf c.schema e) f.type = some v ∧
          Relation.ReflTransGen final.repository.Inherits u v := by
  obtain ⟨declared, order, D, freezes⟩ := isDeclaredBy_of_build run
  obtain ⟨E, -⟩ := freezes.evolves
  have all : ∀ v s, declared.complex? v = some s → v ∈ order := by
    intro v s before
    obtain ⟨⟨e, mem⟩, -⟩ := mem_usages_declared D before
    exact (D.flattened freezes mem).1
  obtain ⟨s, before, evolution⟩ := E.exists_of_complex? found
  constructor
  · obtain ⟨s₀, shape, moment, before', -, after, -⟩ := E.flattened_of_mem (all u s before)
    cases (complex?_eq_some.1 before).symm.trans before'
    cases (complex?_eq_some.1 found).symm.trans after
    exact nodup_foldl_appendNew _ (mem_usages_declared D before).2.1
  · intro id
    rw [E.mem_usages_iff all found]
    constructor
    · rintro ⟨v, s, path, before, used⟩
      obtain ⟨e, mem, f, listed, none, names⟩ := ((mem_usages_declared D before).2.2 id).1 used
      exact ⟨e, mem, f, listed, none, v, by rwa [E.sameHeaders.named?], path⟩
    · rintro ⟨e, mem, f, listed, none, v, names, path⟩
      rw [E.sameHeaders.named?] at names
      have complex : (final.repository.complex? v).isSome := by
        rcases path.cases_tail with rfl | ⟨_, -, inherits⟩
        · rw [found]
          rfl
        · exact inherits.2
      rw [E.sameHeaders.complex] at complex
      obtain ⟨s, before⟩ := Option.isSome_iff_exists.1 complex
      exact ⟨v, s, path, before,
        ((mem_usages_declared D before).2.2 id).2 ⟨e, mem, f, listed, none, names⟩⟩

/-- The pet has a toy, and so it uses balls as well. -/
theorem build_usages_pets : ∃ ids final t,
    pets.build {} { repository := .initial "" } = .ok ids final ∧
      final.repository.complex? ⟨35⟩ = some t ∧ t.name = "Ball" ∧ t.usages.Nodup ∧
      ∀ id, id ∈ t.usages ↔
        ∃ e, (e, id) ∈ pets.types.zip ids ∧ ∃ f ∈ e.fields, f.reference = none ∧ ∃ v,
          final.repository.named? (pets.namespaceOf {} e) f.type = some v ∧
            Relation.ReflTransGen final.repository.Inherits ⟨35⟩ v := by
  have ball : (((pets.build {}).result? { repository := .initial "" }).bind fun p =>
      (p.2.repository.complex? ⟨35⟩).map (·.name)) = some "Ball" := by
    rw [Repository.initial_eq]
    cbv
  obtain ⟨ids, final, run⟩ := exists_of_succeeds pets_build
  rw [result?_eq_some.2 run] at ball
  obtain ⟨t, found, named⟩ := Option.map_eq_some_iff.1 ball
  obtain ⟨distinct, used⟩ := build_usages run found
  exact ⟨ids, final, t, run, found, named, distinct, used⟩

end Manifest

end EntityModel
