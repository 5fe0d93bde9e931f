/-
What a plain name means before and after a freeze.

Before a type is frozen, a name means the first field in its lineage, depth first.  The
freeze flattens super types one after the other, so that afterwards the name means what the
last super type that provides it makes of it (`finalField?`).  The two differ where several
super types provide a name with different declarations:

* `ownField?_eq_finalField?` — after the freeze, the type has the field that `finalField?`
  finds before it;
* `field_freeze` — so it is the same declaration as before, unless there is a choice.
-/
import EntityModel.Proofs.FlatFields
import EntityModel.Proofs.FreezeOrder
import EntityModel.Proofs.Resolving

namespace EntityModel

/-- The field as it was declared: of its declaring type, not frozen, and not flagged. -/
def Field.asDeclared (f : Field) : Field :=
  { f with containingType := f.declaringType, isKey := false, isFrozen := false }

theorem Field.asDeclared_adopt (f : Field) (owner : TypeId) :
    (f.adopt owner).asDeclared = f.asDeclared := rfl

theorem TypeShape.asDeclared_settle (keys : FieldTable) (f : Field) :
    (settle keys f).asDeclared = f.asDeclared := by
  rw [settle]
  split <;> rfl

namespace Repository

variable {r r' : Repository} {order : List TypeId} {id u : TypeId} {name : String}

/-! ### What a freeze will make of a name -/

/-- The key registered as `name` on a type that is being built. -/
def registeredKey? (r : Repository) (id : TypeId) (name : String) : Option Field :=
  (r.complex? id).bind fun t =>
    match t.lifecycle with
    | .building declared => declared.keyFields.find? name
    | _ => none

/-- The field that `name` will mean, looking at most `depth` super types up: the type's own
one, or else that of the last super type that will have one, or else a registered key. -/
def finalFieldWithin (r : Repository) : (depth : Nat) → TypeId → String → Option Field
  | 0, _, _ => none
  | depth + 1, id, name =>
    ((r.ownField? id name).or
      ((r.keptBy id).reverse.findSome? (r.finalFieldWithin depth · name))).or
        (r.registeredKey? id name)

/-- The field that `name` will mean on the type when it is frozen. -/
def finalField? (r : Repository) (id : TypeId) (name : String) : Option Field :=
  r.finalFieldWithin (r.types.size + 1) id name

/-- The type provides the name by the declaration `f`: its own field, or one that a super type
provides whose place it does not take. -/
inductive Provides (r : Repository) (name : String) : TypeId → Field → Prop
  | own {id f} (h : r.ownField? id name = some f) : Provides r name id f
  | inherited {id s f} (lacks : r.ownField? id name = none) (kept : s ∈ r.keptBy id)
      (h : Provides r name s f) : Provides r name id f

theorem keptBy_of_isFrozen (frozen : r.isFrozen u = true) : r.keptBy u = [] := by
  have none := pulls_of_isFrozen frozen
  obtain ⟨n, found, -⟩ := exists_get?_of_isFrozen frozen
  rw [pulls, found] at none
  cases n with
  | simple t => rw [keptBy, found]
  | complex t => exact none

theorem registeredKey?_of_isFrozen (frozen : r.isFrozen u = true) :
    r.registeredKey? u name = none := by
  obtain ⟨n, found, done⟩ := exists_get?_of_isFrozen frozen
  rw [registeredKey?, complex?, found]
  cases n with
  | simple t => rfl
  | complex t =>
    cases h : t.lifecycle with
    | building declared => exact absurd h (ComplexType.not_building_of_isFrozen done declared)
    | freezing => cases done.symm.trans (ComplexType.isFrozen_of_freezing h)
    | frozen => simp [h]

namespace Evolves

theorem ids (E : r.Evolves order r') : r'.ids = r.ids := ids_congr E.size

theorem length_le_size (E : r.Evolves order r') : order.length ≤ r.types.size := by
  have known : order ⊆ r.ids := fun u mem => by
    obtain ⟨t, _, found, _⟩ := E.fresh u mem
    exact mem_ids_of_get? found
  have bound := List.Nodup.length_le_of_subset E.nodup known
  simpa [Repository.ids] using bound

/-- A type that is not flattened keeps its fields. -/
theorem ownField?_of_not_mem (E : r.Evolves order r') (out : u ∉ order) :
    r'.ownField? u name = r.ownField? u name := by
  rw [ownField?_eq_join, ownField?_eq_join]
  cases found : r.get? u with
  | none => rw [E.get?_none.2 found]
  | some n =>
    obtain ⟨n', found', evolution⟩ := E.get? found
    rw [found']
    cases evolution with
    | simple | untouched | extended => rfl
    | flattened _ _ mem => exact absurd mem out

/-- What is not flattened, but frozen, was frozen before, or is simple. -/
theorem keptBy_of_not_mem (E : r.Evolves order r') (frozen : r'.isFrozen u = true)
    (out : u ∉ order) : r.keptBy u = [] ∧ ∀ name, r.registeredKey? u name = none := by
  cases found : r.get? u with
  | none =>
    rw [isFrozen, E.get?_none.2 found] at frozen
    cases frozen
  | some n =>
    obtain ⟨n', -, done, evolution⟩ := E.get?_of_isFrozen found frozen
    cases evolution with
    | simple =>
      exact ⟨by rw [Repository.keptBy, found], fun _ => by simp [registeredKey?, complex?, found]⟩
    | untouched fresh => cases done.symm.trans fresh
    | extended done =>
      have done := (isFrozen_of_get? found).trans done
      exact ⟨keptBy_of_isFrozen done, fun _ => registeredKey?_of_isFrozen done⟩
    | flattened _ _ mem => exact absurd mem out

/-- What a name means on a flattened type, in terms of the types before the freeze and of what
the super types have become. -/
theorem ownField?_of_mem (E : r.Evolves order r') (mem : u ∈ order) (name : String) :
    (r'.ownField? u name).map (·.asDeclared) =
      (((r.ownField? u name).or ((r.keptBy u).reverse.findSome? (r'.ownField? · name))).or
        (r.registeredKey? u name)).map (·.asDeclared) := by
  obtain ⟨t, declared, moment, found, building, found', -⟩ := E.flattened_of_mem mem
  have flat : r'.ownField? u name =
      (r'.flatten u t.instantiable declared).fields.find? name := by
    rw [ownField?, complex?_eq_some.2 found']
    rfl
  have own : r.ownField? u name = declared.fields.find? name := by
    rw [ownField?, complex?_eq_some.2 found]
    simp [ComplexType.ownField?, ComplexType.shape, building, Lifecycle.shape]
  have kept : r.keptBy u = r'.keptSuperTypes t.instantiable declared.superTypes := by
    rw [← E.preserves.keptSuperTypes]
    simp [Repository.keptBy, found, building]
  have key : r.registeredKey? u name = declared.keyFields.find? name := by
    rw [registeredKey?, complex?_eq_some.2 found]
    simp [building]
  rw [flat, own, kept, key, find?_flatten]
  -- adopting and settling a field change the owner and the flags, not the declaration
  cases declared.fields.find? name with
  | some f => simp [TypeShape.asDeclared_settle]
  | none =>
    cases (r'.keptSuperTypes t.instantiable declared.superTypes).reverse.findSome?
        (r'.ownField? · name) with
    | some f => simp [TypeShape.asDeclared_settle, Field.asDeclared_adopt]
    | none =>
      cases declared.keyFields.find? name with
      | some f => simp [TypeShape.asDeclared_settle]
      | none => rfl

/-- If a flattened type lacks the name, so did it before, and so do the super types it kept. -/
theorem lacks_of_lacks (E : r.Evolves order r') (mem : u ∈ order)
    (lacks : r'.ownField? u name = none) :
    r.ownField? u name = none ∧ ∀ s ∈ r.keptBy u, r'.ownField? s name = none := by
  have final := E.ownField?_of_mem mem name
  rw [lacks] at final
  have none := Option.map_eq_none_iff.1 final.symm
  have none := (Option.or_eq_none_iff.1 (Option.or_eq_none_iff.1 none).1)
  exact ⟨none.1, fun s hs => List.findSome?_eq_none_iff.1 none.2 s (List.mem_reverse.2 hs)⟩

/-- After the freeze, a type has the field that `finalFieldWithin` finds before it, if that
looks further up than the type's place in the order. -/
theorem ownField?_eq_finalFieldWithin (E : r.Evolves order r') {depth : Nat}
    (frozen : r'.isFrozen u = true) (deep : 0 < depth)
    (deeper : u ∈ order → order.idxOf u + 1 < depth) :
    (r'.ownField? u name).map (·.asDeclared) =
      (r.finalFieldWithin depth u name).map (·.asDeclared) := by
  induction depth generalizing u with
  | zero => cases deep
  | succ depth ih =>
    rw [finalFieldWithin]
    by_cases mem : u ∈ order
    · have place := deeper mem
      have supers : ∀ s ∈ r.keptBy u, (r'.ownField? s name).map (·.asDeclared) =
          (r.finalFieldWithin depth s name).map (·.asDeclared) := by
        intro s kept
        refine ih (E.keptBy_of_mem mem s kept) (by omega) fun mem' => ?_
        have earlier := E.idxOf_lt mem mem' kept
        omega
      -- super types come earlier in the order, so the depth that is left is enough for them
      have last : ((r.keptBy u).reverse.findSome? (r'.ownField? · name)).map (·.asDeclared) =
          ((r.keptBy u).reverse.findSome? (r.finalFieldWithin depth · name)).map
            (·.asDeclared) := by
        rw [List.map_findSome?, List.map_findSome?]
        exact findSome?_congr fun s hs => supers s (List.mem_reverse.1 hs)
      rw [E.ownField?_of_mem mem name, Option.map_or, Option.map_or, last, ← Option.map_or,
        ← Option.map_or]
    · obtain ⟨kept, key⟩ := E.keptBy_of_not_mem frozen mem
      rw [E.ownField?_of_not_mem mem, kept, key name]
      simp

theorem ownField?_eq_finalField? (E : r.Evolves order r') (frozen : r'.isFrozen u = true)
    (name : String) :
    (r'.ownField? u name).map (·.asDeclared) = (r.finalField? u name).map (·.asDeclared) := by
  refine E.ownField?_eq_finalFieldWithin frozen (Nat.succ_pos _) fun mem => ?_
  have place := List.idxOf_lt_length_of_mem mem
  have bound := E.length_le_size
  omega

/-- A type that provides a name has a field of that name after the freeze. -/
theorem isSome_of_provides (E : r.Evolves order r') {d : Field} (h : r.Provides name u d)
    (frozen : r'.isFrozen u = true) : (r'.ownField? u name).isSome := by
  have image : ∀ id, ((r'.ownField? id name).map (·.asDeclared)).isSome =
      (r'.ownField? id name).isSome := fun id => Option.isSome_map
  induction h with
  | @own u f own =>
    by_cases mem : u ∈ order
    · rw [← image, E.ownField?_of_mem mem name, own]
      rfl
    · rw [E.ownField?_of_not_mem mem, own]
      rfl
  | @inherited u s f lacks kept _ ih =>
    by_cases mem : u ∈ order
    · have some := ih (E.keptBy_of_mem mem s kept)
      rw [← image, E.ownField?_of_mem mem name, lacks, Option.isSome_map, Option.isSome_or,
        Bool.or_eq_true, Option.none_or]
      exact .inl (List.findSome?_isSome_iff.2 ⟨s, List.mem_reverse.2 kept, some⟩)
    · rw [(E.keptBy_of_not_mem frozen mem).1] at kept
      cases kept

/-- What a type has after the freeze is what some declaration provides before it, if keys are
registered only where a declaration provides their names. -/
theorem exists_provides (E : r.Evolves order r')
    (keys : ∀ v ∈ order, (r.registeredKey? v name).isSome → ∃ d, r.Provides name v d)
    {g : Field} (own : r'.ownField? u name = some g) :
    ∃ d, r.Provides name u d ∧ g.asDeclared = d.asDeclared := by
  -- by the place in the order: what a type inherits comes from types before it
  induction rank : order.idxOf u using Nat.strongRecOn generalizing u g with
  | ind rank ih =>
    subst rank
    by_cases mem : u ∈ order
    case neg =>
      rw [E.ownField?_of_not_mem mem] at own
      exact ⟨g, .own own, rfl⟩
    have final := E.ownField?_of_mem mem name
    rw [own] at final
    cases before : r.ownField? u name with
    | some d =>
      rw [before] at final
      exact ⟨d, .own before, Option.some.inj final⟩
    | none =>
      rw [before, Option.none_or] at final
      cases last : (r.keptBy u).reverse.findSome? (r'.ownField? · name) with
      | some g' =>
        rw [last] at final
        obtain ⟨s, hs, own'⟩ := List.exists_of_findSome?_eq_some last
        have kept := List.mem_reverse.1 hs
        have provided : ∃ d, r.Provides name s d ∧ g'.asDeclared = d.asDeclared := by
          by_cases mem' : s ∈ order
          · exact ih _ (E.idxOf_lt mem mem' kept) own' rfl
          · rw [E.ownField?_of_not_mem mem'] at own'
            exact ⟨g', .own own', rfl⟩
        obtain ⟨d, provides, same⟩ := provided
        exact ⟨d, .inherited before kept provides, (Option.some.inj final).trans same⟩
      | none =>
        -- a key, although super types provide the name: then they would have the field
        rw [last, Option.none_or] at final
        have key : (r.registeredKey? u name).isSome := by
          cases found : r.registeredKey? u name with
          | none => rw [found] at final; cases final
          | some k => rfl
        obtain ⟨d, provides⟩ := keys u mem key
        cases provides with
        | own h => rw [before] at h; cases h
        | inherited _ kept provides =>
          have some := E.isSome_of_provides provides (E.keptBy_of_mem mem _ kept)
          rw [List.findSome?_eq_none_iff.1 last _ (List.mem_reverse.2 kept)] at some
          cases some

end Evolves

/-! ### Uniform lineages -/

/-- The type and all that it inherits from are complex, and agree in being instantiable. -/
def HasUniformLineage (r : Repository) (id : TypeId) : Prop :=
  ∃ instantiable, ∀ u ∈ r.lineage id, ∃ t, r.complex? u = some t ∧ t.instantiable = instantiable

theorem keptBy_subset (h : u ∈ r.keptBy id) : u ∈ r.complexSuperTypesOf id := by
  rw [keptBy] at h
  rw [complexSuperTypesOf, complex?]
  cases found : r.get? id with
  | none => simp [found] at h
  | some n =>
    rw [found] at h
    cases n with
    | simple t => cases h
    | complex t =>
      cases lifecycle : t.lifecycle with
      | building declared =>
        simp only [lifecycle] at h
        simpa [ComplexType.shape, lifecycle, Lifecycle.shape] using mem_keptSuperTypes h
      | freezing | frozen => simp [lifecycle] at h

/-- In a uniform lineage no super type is dropped. -/
theorem Evolves.complexSuperTypesOf_eq (E : r.Evolves order r') (uniform : r.HasUniformLineage id)
    (hu : u ∈ r.lineage id) : r'.complexSuperTypesOf u = r.complexSuperTypesOf u := by
  obtain ⟨b, uniform⟩ := uniform
  obtain ⟨t, found, same⟩ := uniform u hu
  have found := complex?_eq_some.1 found
  obtain ⟨n', found', evolution⟩ := E.get? found
  cases evolution with
  | untouched => simp [complexSuperTypesOf, complex?, found, found']
  | extended => simp [complexSuperTypesOf, complex?, found, found', ComplexType.shape]
  | @flattened _ declared moment building =>
    have before : r.complexSuperTypesOf u = declared.superTypes := by
      simp [complexSuperTypesOf, complex?, found, ComplexType.shape, building, Lifecycle.shape]
    have after : r'.complexSuperTypesOf u =
        (r'.flatten u t.instantiable declared).superTypes := by
      simp [complexSuperTypesOf, complex?, found', ComplexType.shape, flattened, Lifecycle.shape]
    have agree : ∀ s ∈ declared.superTypes,
        ((r'.get? s).any fun n => n.instantiable = t.instantiable) = true := by
      intro s hs
      obtain ⟨t', found₁, same'⟩ := uniform s (mem_lineage_of_mem hu (by rwa [before]))
      have view := E.instantiable s
      rw [complex?_eq_some.1 found₁] at view
      obtain ⟨n', found₂, inst⟩ := Option.map_eq_some_iff.1 view.symm
      rw [found₂]
      exact decide_eq_true (inst.trans (same'.trans same.symm))
    rw [before, after, superTypes_flatten, keptSuperTypes]
    split
    · exact List.filter_eq_self.2 agree
    · rw [List.filter_filter]
      exact List.filter_eq_self.2 fun s hs => by simpa using agree s hs

theorem Evolves.lineage_eq (E : r.Evolves order r') (uniform : r.HasUniformLineage id) :
    r'.lineage id = r.lineage id := by
  rw [lineage, E.ids]
  exact visit_congr fun u hu => E.complexSuperTypesOf_eq uniform hu

/-! ### The freeze of a type -/

section Freeze

variable {out : Except ModelError Unit} (run : FreezeRun [id] r order (.ok ()) r')
variable (uniform : r.HasUniformLineage id)

include run uniform

/-- Only types of the lineage are flattened. -/
theorem mem_lineage_of_mem_order (mem : u ∈ order) : u ∈ r.lineage id := by
  refine run.forall_mem_order (fun u hu v hv => ?_) ?_ u mem
  · obtain ⟨b, uniform⟩ := uniform
    obtain ⟨t, found, -⟩ := uniform u hu
    rw [pulls, complex?_eq_some.1 found] at hv
    exact mem_lineage_of_mem hu (keptBy_subset hv)
  · exact List.forall_mem_singleton.2 mem_lineage_self

/-- If nothing is handed down to the type, no type that is flattened has anything to hand down. -/
theorem ownField?_eq_none_of_mem (lacks : r'.ownField? id name = none) (mem : u ∈ order) :
    r.ownField? u name = none ∧ r'.ownField? u name = none := by
  obtain ⟨E, frozen⟩ := run.evolves
  have reached : ∀ u ∈ order, u ∈ r.lineage id ∧ r'.isFrozen u = true ∧
      r'.ownField? u name = none := by
    refine run.forall_mem_order (fun u hu v hv => ?_) ?_
    · obtain ⟨inLineage, frozen, lacks⟩ := hu
      obtain ⟨b, uniform⟩ := uniform
      obtain ⟨t, found, -⟩ := uniform u inLineage
      have kept : v ∈ r.keptBy u := by
        rwa [pulls, complex?_eq_some.1 found] at hv
      have mem : u ∈ order := by
        by_contra out
        rw [(E.keptBy_of_not_mem frozen out).1] at kept
        cases kept
      exact ⟨mem_lineage_of_mem inLineage (keptBy_subset kept), E.keptBy_of_mem mem v kept,
        (E.lacks_of_lacks mem lacks).2 v kept⟩
    · exact List.forall_mem_singleton.2 ⟨mem_lineage_self, frozen rfl id List.mem_cons_self, lacks⟩
  have lacks := (reached u mem).2.2
  exact ⟨(E.lacks_of_lacks mem lacks).1, lacks⟩

/-- If nothing is handed down to the type, the name still means what it meant. -/
theorem inheritedField?_of_lacks (lacks : r'.ownField? id name = none) :
    r'.inheritedField? id name = r.inheritedField? id name := by
  have E := run.evolves.1
  rw [inheritedField?_eq_findSome?, inheritedField?_eq_findSome?, E.lineage_eq uniform]
  refine findSome?_congr fun u _ => ?_
  by_cases mem : u ∈ order
  · obtain ⟨before, after⟩ := ownField?_eq_none_of_mem run uniform lacks mem
    rw [before, after]
  · exact E.ownField?_of_not_mem mem

end Freeze

/-- What a plain name means after the freeze of a type whose lineage is uniform: the same as
`finalField?` before it, and as the name did before if it provides no choice. -/
theorem field_freeze (uniform : r.HasUniformLineage id) (nonempty : name ≠ "")
    (plain : Path.isNested name = false) {f : Field} (before : r.field id name = .ok f)
    {events : List Event} {m : Model} (run : Edit.freeze id ⟨r, events⟩ = .ok () m) :
    ∃ g, m.repository.field id name = .ok g ∧
      g.asDeclared = ((r.finalField? id name).getD f).asDeclared ∧
      ((∀ d, r.Provides name id d → d.asDeclared = f.asDeclared) →
        (∀ u ∈ r.lineage id, (r.registeredKey? u name).isSome → ∃ d, r.Provides name u d) →
        g.asDeclared = f.asDeclared) := by
  obtain ⟨order, freezes⟩ := (Edit.freeze_run id ⟨r, events⟩).of_ok run
  obtain ⟨E, all⟩ := freezes.evolves
  have final := E.ownField?_eq_finalField? (all rfl id List.mem_cons_self) name
  obtain ⟨t, found, -⟩ := uniform.choose_spec id mem_lineage_self
  obtain ⟨t', found', -⟩ := E.exists_complex? found
  simp only [field_eq_ok_iff found' nonempty plain]
  rw [field_eq_ok_iff found nonempty plain] at before
  -- either the freeze gave the type the field, or nothing in its lineage has been given it
  cases own : m.repository.ownField? id name with
  | some g =>
    rw [own] at final
    obtain ⟨w, winner, same⟩ := Option.map_eq_some_iff.1 final.symm
    refine ⟨g, inheritedField?_of_ownField? own, ?_, fun agree keys => ?_⟩
    · rw [winner]
      exact same.symm
    · obtain ⟨d, provides, same'⟩ := E.exists_provides
        (fun v mem => keys v (mem_lineage_of_mem_order freezes uniform mem)) own
      exact same'.trans (agree d provides)
  | none =>
    rw [own] at final
    refine ⟨f, (inheritedField?_of_lacks freezes uniform own).trans before, ?_, fun _ _ => rfl⟩
    rw [Option.map_eq_none_iff.1 final.symm]
    rfl

/-- A type with two super types that declare a field of one name differently. -/
def ambiguous : Repository :=
  [.addComplexType ⟨"", "A"⟩ true {},
    .addField ⟨33⟩ (.declare ⟨33⟩ "x" ⟨11⟩ .simple),
    .addComplexType ⟨"", "B"⟩ true {},
    .addField ⟨34⟩ (.declare ⟨34⟩ "x" ⟨9⟩ .simple),
    .addComplexType ⟨"", "T"⟩ true {},
    .addSuperType ⟨35⟩ ⟨33⟩, .addSuperType ⟨35⟩ ⟨34⟩].foldl perform (Session.start {}).repository

theorem ambiguous_freezes : (Edit.freeze ⟨35⟩).succeeds ⟨ambiguous, []⟩ = true := by
  rw [ambiguous, Session.repository_start]
  cbv

theorem ambiguous_uniform : ambiguous.HasUniformLineage ⟨35⟩ := by
  have lineage : ambiguous.lineage ⟨35⟩ = [⟨35⟩, ⟨33⟩, ⟨34⟩] := by
    rw [ambiguous, Session.repository_start]
    cbv
  have uniform : [(⟨35⟩ : TypeId), ⟨33⟩, ⟨34⟩].all (fun u =>
      (ambiguous.complex? u).any fun t => t.instantiable) = true := by cbv
  refine ⟨true, fun u hu => ?_⟩
  rw [lineage] at hu
  exact (Option.any_eq_true _ _).1 (List.all_eq_true.1 uniform u hu)

theorem field_freeze_ambiguous : ∃ f g m, ambiguous.field ⟨35⟩ "x" = .ok f ∧
    Edit.freeze ⟨35⟩ ⟨ambiguous, []⟩ = .ok () m ∧ m.repository.field ⟨35⟩ "x" = .ok g ∧
      g.asDeclared = ((ambiguous.finalField? ⟨35⟩ "x").getD f).asDeclared := by
  have before : (ambiguous.field ⟨35⟩ "x").toOption.isSome = true := by
    rw [ambiguous, Session.repository_start]
    cbv
  obtain ⟨⟨⟩, m, run⟩ := Edit.exists_of_succeeds ambiguous_freezes
  cases found : ambiguous.field ⟨35⟩ "x" with
  | error e => rw [found] at before; cases before
  | ok f =>
    obtain ⟨g, after, same, -⟩ := field_freeze ambiguous_uniform (by decide) (by decide) found run
    exact ⟨f, g, m, rfl, run, after, same⟩

/-- A freeze can change what a plain name means: the last super type takes the place of the
first. -/
theorem not_field_freeze_same : ¬ ∀ (r : Repository) (id : TypeId) (name : String) (f : Field)
    (events : List Event) (m : Model), r.HasUniformLineage id → r.isFrozen id = false →
    name ≠ "" → Path.isNested name = false → r.field id name = .ok f →
    Edit.freeze id ⟨r, events⟩ = .ok () m →
    ∃ g, m.repository.field id name = .ok g ∧ g.declaringType = f.declaringType ∧
      g.valueType = f.valueType ∧ g.kind = f.kind ∧ g.isMany = f.isMany ∧
      g.isMandatory = f.isMandatory := by
  intro unchanged
  have before : (ambiguous.field ⟨35⟩ "x").toOption.map (·.declaringType) = some ⟨33⟩ := by
    rw [ambiguous, Session.repository_start]
    cbv
  have after : (((Edit.freeze ⟨35⟩).result? ⟨ambiguous, []⟩).bind fun p =>
      (p.2.repository.field ⟨35⟩ "x").toOption.map (·.declaringType)) = some ⟨34⟩ := by
    rw [ambiguous, Session.repository_start]
    cbv
  have fresh : ambiguous.isFrozen ⟨35⟩ = false := by
    rw [ambiguous, Session.repository_start]
    cbv
  obtain ⟨⟨⟩, m, run⟩ := Edit.exists_of_succeeds ambiguous_freezes
  cases found : ambiguous.field ⟨35⟩ "x" with
  | error e => rw [found] at before; cases before
  | ok f =>
    obtain ⟨g, found', same, -⟩ :=
      unchanged ambiguous ⟨35⟩ "x" f [] m ambiguous_uniform fresh (by decide) (by decide) found run
    rw [found] at before
    rw [Edit.result?_eq_some.2 run, Option.bind_some, found'] at after
    have first : f.declaringType = ⟨33⟩ := Option.some.inj before
    have last : g.declaringType = ⟨34⟩ := Option.some.inj after
    rw [first, last] at same
    cases same

end Repository

end EntityModel
