/-
The order of the entries of a manifest does not matter.

A manifest whose entries stand in another order declares the same types under other handles, so
the repositories that are built of the two differ in handles alone: a type of the one is
translated to the type of the other that bears its name (`Repository.counterpart`).

* `Reorders.isDeclarable` — nothing more is refused before the types are frozen;
* `Reorders.renumbers` — what is declared is the same under other handles;
* `Manifest.build_run` — whether a build succeeds is told by what it declares;
* `Manifest.build_reorders` — so both builds succeed or neither does, with the same types.
-/
import EntityModel.Proofs.RenumberedModels

namespace EntityModel

open Edit Repository

/-! ### Types of the same name -/

namespace Repository

variable {r r' f f' : Repository} {order order' : List TypeId} {u : TypeId} {ns : String}

/-- The type of `r'` that bears the name of the type `u` of `r`. -/
def counterpart (r r' : Repository) (u : TypeId) : TypeId :=
  ((r.nameOf? u).bind r'.names.find?).getD u

theorem Evolves.nameOf?_eq (E : r.Evolves order f) (u : TypeId) : f.nameOf? u = r.nameOf? u := by
  cases found : r.get? u with
  | none => rw [nameOf?, nameOf?, found, E.get?_none.2 found]
  | some n =>
    have named := nameOf?_of_get? found
    rw [named, E.keepsNames u _ named]

/-- The freeze changes no names. -/
theorem Evolves.counterpart_eq (E : r.Evolves order f) (E' : r'.Evolves order' f') :
    f.counterpart f' = r.counterpart r' := by
  funext u
  rw [counterpart, counterpart, E.nameOf?_eq, E'.names]

theorem counterpart_of_find? {name : QualifiedName} {u' : TypeId}
    (named : r.nameOf? u = some name) (found : r'.names.find? name = some u') :
    r.counterpart r' u = u' := by
  rw [counterpart, named, Option.bind_some, found, Option.getD_some]

theorem counterpart_of_get?_none (absent : r.get? u = none) : r.counterpart r' u = u := by
  rw [counterpart, nameOf?, absent]
  rfl

end Repository

namespace Manifest

/-! ### Manifests with the same entries -/

/-- The manifests have the same entries, perhaps in another order. -/
structure Reorders (m m' : Manifest) : Prop where
  ns : m'.ns = m.ns
  types : m'.types.Perm m.types

variable {m m' : Manifest} {c : Config} {ns : String} {r r' : Repository}
variable {ids ids' : List TypeId} {e : TypeEntry} {u : TypeId}

namespace Reorders

theorem refl (m : Manifest) : m.Reorders m := ⟨rfl, .refl _⟩

variable (h : m.Reorders m')

include h

theorem symm : m'.Reorders m := ⟨h.ns.symm, h.types.symm⟩

theorem namespaceOf (c : SchemaConfig) : m'.namespaceOf c = m.namespaceOf c := by
  funext e
  rw [Manifest.namespaceOf, Manifest.namespaceOf, defaultNamespace, defaultNamespace, h.ns]

theorem nameOf (c : Config) : m'.nameOf c = m.nameOf c := by
  funext e
  rw [Manifest.nameOf, Manifest.nameOf, h.namespaceOf]

theorem registered (c : Config) : m'.registered c = m.registered c := by
  funext e
  rw [Manifest.registered, Manifest.registered, h.nameOf]

theorem means_iff (ns name : String) : m'.Means c r ns name ↔ m.Means c r ns name := by
  simp only [Means, Knows, h.nameOf, h.types.mem_iff]

theorem isDeclarable (declarable : m.IsDeclarable c r) : m'.IsDeclarable c r where
  distinct := by
    rw [h.nameOf]
    exact ((h.types.map _).nodup_iff).2 declarable.distinct
  free e mem := by
    rw [h.nameOf]
    exact declarable.free e (h.types.mem_iff.1 mem)
  superTypes e mem name listed := by
    rw [h.namespaceOf, h.means_iff]
    exact declarable.superTypes e (h.types.mem_iff.1 mem) name listed
  fields e mem f listed := by
    simp only [h.namespaceOf, h.means_iff]
    exact declarable.fields e (h.types.mem_iff.1 mem) f listed

end Reorders

/-! ### What they declare -/

/-- In a repository of built-in types, a manifest declares the types of its entries and no
others. -/
theorem IsDeclaredBy.get?_cases (D : m.IsDeclaredBy c (.initial ns) ids r) (u : TypeId) :
    (∃ e, (e, u) ∈ m.types.zip ids) ∨
    (∃ t : SimpleType, t.isFrozen = true ∧ (initial ns).get? u = some (.simple t) ∧
      r.get? u = some (.simple t)) ∨
    ((∀ e, (e, u) ∉ m.types.zip ids) ∧ (initial ns).get? u = none ∧ r.get? u = none) := by
  cases before : (initial ns).get? u with
  | some n =>
    obtain ⟨t, rfl, frozen⟩ := exists_of_get?_initial before
    exact .inr (.inl ⟨t, frozen, rfl, D.old u _ before⟩)
  | none =>
    by_cases entry : ∃ e, (e, u) ∈ m.types.zip ids
    · exact .inl entry
    · refine .inr (.inr ⟨not_exists.1 entry, rfl, ?_⟩)
      refine Option.eq_none_iff_forall_ne_some.2 fun n found => ?_
      rcases D.all u n found with old | new
      · rw [before] at old
        cases old
      · exact entry new

theorem IsDeclaredBy.find?_nameOf (D : m.IsDeclaredBy c (.initial ns) ids r)
    (mem : (e, u) ∈ m.types.zip ids) : r.names.find? (m.nameOf c e) = some u :=
  (D.names _ _).2 (.inr ⟨e, mem, rfl⟩)

/-- Names lead to types that are there. -/
theorem IsDeclaredBy.get?_ne_none_of_named? (D : m.IsDeclaredBy c (.initial ns) ids r)
    {ns' name : String} (leads : r.named? ns' name = some u) : r.get? u ≠ none := by
  have indexed : ∀ name, r.names.find? name = some u → r.get? u ≠ none := by
    intro name found absent
    rcases (D.names name u).1 found with old | ⟨e, mem, -⟩
    · obtain ⟨n, there, -⟩ := Option.map_eq_some_iff.1 (indexSound_initial ns name u old)
      rw [D.old u n there] at absent
      cases absent
    · rw [complex?_eq_some.1 (D.new e u mem)] at absent
      cases absent
  rw [named?, Option.or_eq_some_iff] at leads
  rcases leads with found | ⟨-, found⟩
  · exact indexed _ found
  · exact indexed _ found

/-- The types of a manifest have the handles that come next. -/
theorem IsDeclaredBy.mem_nextIds_iff (D : m.IsDeclaredBy c r ids r') :
    u ∈ r.nextIds m.types.length ↔ ∃ e, (e, u) ∈ m.types.zip ids := by
  rw [D.consecutive]
  constructor
  · intro mem
    rw [← List.map_snd_zip length_nextIds.le] at mem
    obtain ⟨⟨e, _⟩, entry, rfl⟩ := List.mem_map.1 mem
    exact ⟨e, entry⟩
  · rintro ⟨e, mem⟩
    exact (List.of_mem_zip mem).2

/-- What is there before stays under its handle. -/
theorem IsDeclaredBy.counterpart_of_initial {n : TypeNode}
    (D : m.IsDeclaredBy c (.initial ns) ids r) (D' : m'.IsDeclaredBy c (.initial ns) ids' r')
    (old : (initial ns).get? u = some n) : r.counterpart r' u = u := by
  obtain ⟨name, named, found⟩ := (isFound_initial ns).1 u (mem_ids_of_get? old)
  obtain ⟨t, rfl, -⟩ := exists_of_get?_initial old
  have found' : r'.names.find? name = some u := (D'.names name u).2 (.inl found)
  refine counterpart_of_find? ?_ found'
  rw [nameOf?_of_get? (D.old u _ old), ← named, nameOf?_of_get? old]
  rfl

namespace Reorders

section Declared

variable (h : m.Reorders m') (D : m.IsDeclaredBy c (.initial ns) ids r)
variable (D' : m'.IsDeclaredBy c (.initial ns) ids' r')

include h D D'

/-- An entry has a type in both repositories. -/
theorem mem_zip_counterpart (mem : (e, u) ∈ m.types.zip ids) :
    (e, r.counterpart r' u) ∈ m'.types.zip ids' := by
  have listed : e ∈ m'.types := h.types.mem_iff.2 (List.of_mem_zip mem).1
  obtain ⟨u', mem'⟩ := (initial ns).exists_mem_zip_nextIds listed
  rw [← D'.consecutive] at mem'
  have named : r.nameOf? u = some (m.nameOf c e) :=
    nameOf?_of_get? (complex?_eq_some.1 (D.new e u mem))
  have found := D'.find?_nameOf mem'
  rw [h.nameOf] at found
  rwa [counterpart_of_find? named found]

theorem get?_eq_none (absent : r.get? u = none) : r'.get? u = none := by
  rcases D.get?_cases u with ⟨e, mem⟩ | ⟨_, -, -, found⟩ | ⟨out, before, -⟩
  · rw [complex?_eq_some.1 (D.new e u mem)] at absent
    cases absent
  · rw [found] at absent
    cases absent
  · have out' : ¬ ∃ e, (e, u) ∈ m'.types.zip ids' := by
      rw [← D'.mem_nextIds_iff, h.types.length_eq, D.mem_nextIds_iff]
      exact not_exists.2 out
    rcases D'.get?_cases u with entry | ⟨_, -, old, -⟩ | ⟨-, -, absent'⟩
    · exact absurd entry out'
    · rw [before] at old
      cases old
    · exact absent'

theorem counterpart_counterpart (u : TypeId) : r'.counterpart r (r.counterpart r' u) = u := by
  rcases D.get?_cases u with ⟨e, mem⟩ | ⟨_, -, old, -⟩ | ⟨-, -, absent⟩
  · have mem' := h.mem_zip_counterpart D D' mem
    have back := h.symm.mem_zip_counterpart D' D mem'
    exact Option.some.inj ((D.find?_nameOf back).symm.trans (D.find?_nameOf mem))
  · rw [D.counterpart_of_initial D' old, D'.counterpart_of_initial D old]
  · rw [counterpart_of_get?_none absent,
      counterpart_of_get?_none (h.get?_eq_none D D' absent)]

theorem mem_zip_counterpart_iff :
    (e, r.counterpart r' u) ∈ m'.types.zip ids' ↔ (e, u) ∈ m.types.zip ids := by
  refine ⟨fun mem => ?_, h.mem_zip_counterpart D D'⟩
  have back := h.symm.mem_zip_counterpart D' D mem
  rwa [h.counterpart_counterpart D D'] at back

/-- The types of the one repository are translated to those of the other. -/
def renumbering : TypeId ≃ TypeId where
  toFun := r.counterpart r'
  invFun := r'.counterpart r
  left_inv := h.counterpart_counterpart D D'
  right_inv := h.symm.counterpart_counterpart D' D

theorem find?_counterpart {name : QualifiedName} (found : r.names.find? name = some u) :
    r'.names.find? name = some (r.counterpart r' u) := by
  rcases (D.names name u).1 found with old | ⟨e, mem, rfl⟩
  · obtain ⟨n, there, -⟩ := Option.map_eq_some_iff.1 (indexSound_initial ns name u old)
    rw [D.counterpart_of_initial D' there]
    exact (D'.names name u).2 (.inl old)
  · rw [← h.nameOf]
    exact D'.find?_nameOf (h.mem_zip_counterpart D D' mem)

theorem headersVia : HeadersVia (r.counterpart r') r r' where
  names name := by
    cases found : r.names.find? name with
    | some u => exact h.find?_counterpart D D' found
    | none =>
      refine Option.eq_none_iff_forall_ne_some.2 fun u' found' => ?_
      have back := h.symm.find?_counterpart D' D found'
      rw [found] at back
      cases back
  builtinNamespace := by rw [D.builtinNamespace, D'.builtinNamespace]
  complex u := by
    rcases D.get?_cases u with ⟨e, mem⟩ | ⟨t, -, old, found⟩ | ⟨-, -, absent⟩
    · rw [D.new e u mem, D'.new e _ (h.mem_zip_counterpart D D' mem)]
      rfl
    · rw [D.counterpart_of_initial D' old, complex?, complex?, found, D'.old u _ old]
      rfl
    · rw [counterpart_of_get?_none absent, complex?, complex?, absent,
        h.get?_eq_none D D' absent]

/-- The declared types are the same under other handles. -/
theorem renumbers : Renumbers (h.renumbering D D') r r' := by
  intro u
  show Option.Rel (TypeNode.Renumbers (r.counterpart r')) (r.get? u) (r'.get? (r.counterpart r' u))
  have same := h.headersVia D D'
  have injective : Function.Injective (r.counterpart r') := (h.renumbering D D').injective
  rcases D.get?_cases u with ⟨e, mem⟩ | ⟨t, frozen, old, found⟩ | ⟨-, -, absent⟩
  · have mem' := h.mem_zip_counterpart D D' mem
    have found := D.new e u mem
    have found' := D'.new e _ mem'
    rw [h.registered, h.namespaceOf, TypeEntry.renumber_shapeIn same _ injective] at found'
    rw [complex?_eq_some.1 found, complex?_eq_some.1 found']
    refine .some (.complex rfl rfl fun w => ?_)
    obtain ⟨w, rfl⟩ := (h.renumbering D D').surjective w
    show r.counterpart r' w ∈ _ ↔ r.counterpart r' w ∈ _
    rw [List.mem_map_of_injective injective]
    refine ((mem_usages_declared D' found').2.2 _).trans
      (Iff.trans ?_ ((mem_usages_declared D found).2.2 w).symm)
    refine exists_congr fun e' => and_congr (h.mem_zip_counterpart_iff D D') ?_
    refine exists_congr fun f => and_congr_right fun _ => and_congr_right fun _ => ?_
    rw [h.namespaceOf, same.named?, ← Option.map_some]
    exact (Option.map_injective injective).eq_iff
  · rw [D.counterpart_of_initial D' old, found, D'.old u _ old]
    exact .some (.simple frozen)
  · rw [counterpart_of_get?_none absent, absent, h.get?_eq_none D D' absent]
    exact .none

end Declared

end Reorders

/-! ### Builds -/

/-- What is declared can be frozen if no type extends itself. -/
theorem IsDeclaredBy.ok_iff_isAcyclic {out : Except ModelError Unit} {order : List TypeId}
    {f : Repository} (D : m.IsDeclaredBy c (.initial ns) ids r)
    (run : FreezeRun ids r order out f) : out = .ok () ↔ r.IsAcyclic := by
  have entry : ∀ u t, r.complex? u = some t → ∃ e, (e, u) ∈ m.types.zip ids := fun u t found =>
    (mem_usages_declared D found).1
  refine run.ok_iff_isAcyclic ?_ ?_ ?_ ?_ ?_
  · intro u t found underWay
    obtain ⟨e, mem⟩ := entry u t found
    rw [D.new e u mem] at found
    obtain rfl := Option.some.inj found
    cases underWay
  · intro u t found
    rcases D.get?_cases u with ⟨e, mem⟩ | ⟨t', frozen, -, found'⟩ | ⟨-, -, absent⟩
    · cases (complex?_eq_some.1 (D.new e u mem)).symm.trans found
    · cases found.symm.trans found'
      exact frozen
    · cases absent.symm.trans found
  · intro u t declared found building s super absent
    obtain ⟨e, mem⟩ := entry u t (complex?_eq_some.2 found)
    cases (complex?_eq_some.1 (D.new e u mem)).symm.trans found
    cases building
    rcases (mem_foldl_appendNew _ _).1 super with none | listed
    · cases none
    · obtain ⟨name, -, leads⟩ := List.mem_filterMap.1 listed
      exact D.get?_ne_none_of_named? leads absent
  · intro u mem
    rw [D.consecutive, D.mem_nextIds_iff] at mem
    obtain ⟨e, mem⟩ := mem
    rw [D.new e u mem]
    rfl
  · intro u t declared found _
    obtain ⟨e, mem⟩ := entry u t (complex?_eq_some.2 found)
    exact (List.of_mem_zip mem).2

/-- A build in a new repository succeeds if and only if nothing in the manifest is refused and no
type that it declares extends itself. -/
theorem build_run (m : Manifest) (c : Config) (ns : String) :
    (m.build c).Yields { repository := .initial ns } fun out _ =>
      (∃ ids, out = .ok ids) ↔ m.IsDeclarable c (.initial ns) ∧
        ∀ ids r, m.IsDeclaredBy c (.initial ns) ids r → r.IsAcyclic := by
  rw [build_eq_declare, yields_bind]
  refine (declare_run m c _).mono fun out after => ?_
  rintro ⟨ends, declared⟩
  rw [← ends]
  cases out with
  | error err =>
    refine ⟨?_, fun both => absurd both.1 ?_⟩ <;> rintro ⟨_, ⟨⟩⟩
  | ok ids =>
    have D := declared ids rfl
    dsimp only
    rw [yields_bind]
    refine (forM_freeze_run ids after).mono fun out final => ?_
    rintro ⟨order, run⟩
    -- whatever is declared by the manifest is what was declared here, under other handles
    have acyclic : after.repository.IsAcyclic ↔
        ∀ ids r, m.IsDeclaredBy c (.initial ns) ids r → r.IsAcyclic := by
      refine ⟨fun acyclic ids' r' D' => ?_, fun acyclic => acyclic ids _ D⟩
      exact ((Reorders.refl m).renumbers D D').isAcyclic_iff.2 acyclic
    rw [← acyclic, ← D.ok_iff_isAcyclic run]
    cases out with
    | error err =>
      refine ⟨?_, fun both => nomatch both.2⟩
      rintro ⟨_, ⟨⟩⟩
    | ok _ => exact ⟨fun _ => ⟨⟨ids, rfl⟩, rfl⟩, fun _ => ⟨ids, rfl⟩⟩

/-- A build that succeeds does so whatever the order of the entries. -/
theorem Reorders.exists_build (h : m.Reorders m') {final : Model}
    (run : m.build c { repository := .initial ns } = .ok ids final) :
    ∃ ids' final', m'.build c { repository := .initial ns } = .ok ids' final' := by
  obtain ⟨declared, -, D, -⟩ := isDeclaredBy_of_build run
  obtain ⟨declarable, acyclic⟩ := ((build_run m c ns).of_ok run).1 ⟨ids, rfl⟩
  have able : m'.IsDeclarable c (.initial ns) ∧
      ∀ ids r, m'.IsDeclaredBy c (.initial ns) ids r → r.IsAcyclic := by
    refine ⟨h.isDeclarable declarable, fun ids' r' D' => ?_⟩
    exact (h.renumbers D D').isAcyclic_iff.2 (acyclic ids declared D)
  have ends := build_run m' c ns
  cases run' : m'.build c { repository := .initial ns } with
  | ok ids' final' => exact ⟨ids', final', rfl⟩
  | error err after =>
    obtain ⟨_, ⟨⟩⟩ := (ends.of_error run').2 able

/-- The order of the entries of a manifest does not matter.  In new repositories, it is built in
one order if and only if it is built in another, and then what is registered as a declared name
is the same in both, if types are translated by their names. -/
theorem build_reorders (h : m.Reorders m') (c : Config) (ns : String) :
    ((∃ ids final, m.build c { repository := .initial ns } = .ok ids final) ↔
      ∃ ids final, m'.build c { repository := .initial ns } = .ok ids final) ∧
    ∀ ids ids' final final', m.build c { repository := .initial ns } = .ok ids final →
      m'.build c { repository := .initial ns } = .ok ids' final' →
        let translate := final.repository.counterpart final'.repository
        (∀ u, final'.repository.nameOf? (translate u) = final.repository.nameOf? u) ∧
        ∀ e ∈ m.types, ∃ u t t',
          final.repository.lookup (m.namespaceOf c.schema e) e.name = some u ∧
          final'.repository.lookup (m.namespaceOf c.schema e) e.name = some (translate u) ∧
          final.repository.complex? u = some t ∧
          final'.repository.complex? (translate u) = some t' ∧ t.SameModel translate t' := by
  refine ⟨⟨?_, ?_⟩, ?_⟩
  · rintro ⟨ids, final, run⟩
    exact h.exists_build run
  · rintro ⟨ids, final, run⟩
    exact h.symm.exists_build run
  · intro ids ids' final final' run run'
    obtain ⟨declared, order, D, freezes⟩ := isDeclaredBy_of_build run
    obtain ⟨declared', order', D', freezes'⟩ := isDeclaredBy_of_build run'
    have E := freezes.evolves.1
    have E' := freezes'.evolves.1
    have M := h.renumbers D D'
    have all : ∀ u t, declared.complex? u = some t →
        u ∈ order ∧ declared.counterpart declared' u ∈ order' := by
      intro u t found
      obtain ⟨e, mem⟩ := (mem_usages_declared D found).1
      exact ⟨(D.flattened freezes mem).1,
        (D'.flattened freezes' (h.mem_zip_counterpart D D' mem)).1⟩
    rw [E.counterpart_eq E']
    refine ⟨fun u => ?_, fun e listed => ?_⟩
    · rw [E.nameOf?_eq, E'.nameOf?_eq]
      exact M.nameOf? u
    · obtain ⟨u, mem⟩ := (initial ns).exists_mem_zip_nextIds listed
      rw [← D.consecutive] at mem
      obtain ⟨-, moment, found⟩ := D.flattened freezes mem
      obtain ⟨t', found', same⟩ := M.sameModel E E' all found
      refine ⟨u, _, t', ?_, ?_, found, found', same⟩
      · rw [lookup, E.names]
        exact D.find?_nameOf mem
      · rw [lookup, E'.names]
        exact h.find?_counterpart D D' (D.find?_nameOf mem)

/-- The pet may come last, after its toys. -/
theorem build_reorders_pets : ∃ ids ids' final final',
    pets.build {} { repository := .initial "" } = .ok ids final ∧
      { pets with types := pets.types.reverse }.build {} { repository := .initial "" } =
        .ok ids' final' ∧
      let translate := final.repository.counterpart final'.repository
      ∀ e ∈ pets.types, ∃ u t t',
        final.repository.lookup (pets.namespaceOf {} e) e.name = some u ∧
        final'.repository.lookup (pets.namespaceOf {} e) e.name = some (translate u) ∧
        final.repository.complex? u = some t ∧
        final'.repository.complex? (translate u) = some t' ∧ t.SameModel translate t' := by
  have reorders : pets.Reorders { pets with types := pets.types.reverse } :=
    ⟨rfl, List.reverse_perm _⟩
  obtain ⟨ends, same⟩ := build_reorders reorders {} ""
  obtain ⟨ids, final, run⟩ := exists_of_succeeds pets_build
  obtain ⟨ids', final', run'⟩ := ends.1 ⟨ids, final, run⟩
  exact ⟨ids, ids', final, final', run, run', (same ids ids' final final' run run').2⟩

end Manifest

end EntityModel
