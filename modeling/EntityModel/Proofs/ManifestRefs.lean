/-
Which paths of a manifest are kept.

A manifest is built in two parts: its types are declared (`Manifest.declare`), and then they
are frozen.  A path of an entry is judged at the moment when the freeze of its type ends
(`TypeEntry.BoundAt`):

* `Declares` — what the first part leaves;
* `build_eq_ok` — a build that succeeds is such a first part and a run of the freeze;
* `build_boundAt` — the paths that each type keeps, in the order of the entry, and how
  they compare with what the paths mean in the end.
-/
import EntityModel.Proofs.NestedPaths
import EntityModel.Proofs.Steps

namespace EntityModel

open Edit Repository

/-! ### Declared types -/

namespace ComplexType

variable {t t' : ComplexType}

/-- The type is being built, with the paths of the entry as its references. -/
def Enters (t : ComplexType) (e : TypeEntry) : Prop :=
  ∃ s, t.lifecycle = .building s ∧ s.primaryKeyInfo = e.primaryKeyInfo.map .path ∧
    s.lookupFields = e.lookupFields.map .path

theorem Declaration.eq_building (h : t.Declaration t') {s : TypeShape}
    (building : t.lifecycle = .building s) : ∃ s', t'.lifecycle = .building s' ∧
      s'.primaryKeyInfo = s.primaryKeyInfo ∧ s'.lookupFields = s.lookupFields ∧
      ((∀ name, (s.keyFields.find? name).isSome → (s.fields.find? name).isSome) →
        ∀ name, (s'.keyFields.find? name).isSome → (s'.fields.find? name).isSome) ∧
      t'.subTypes = t.subTypes := by
  cases h with
  | addField f h =>
    obtain ⟨s₀, building', -, rfl⟩ := addField_eq_ok h
    cases building.symm.trans building'
    refine ⟨_, rfl, rfl, rfl, fun keys name => ?_, rfl⟩
    dsimp only [TypeShape.withField]
    rw [FieldTable.find?_add]
    by_cases same : name = f.name
    · simp [same]
    · split
      · simpa [FieldTable.find?_add, same] using keys name
      · simpa [same] using keys name
  | addSuperType id h =>
    obtain ⟨s₀, building', rfl⟩ := addSuperType_eq_ok h
    cases building.symm.trans building'
    exact ⟨_, rfl, rfl, rfl, fun keys => keys, rfl⟩
  | declareUsage id => exact ⟨s, building, rfl, rfl, fun keys => keys, rfl⟩

theorem Declaration.isDeclared (h : t.Declaration t') (declared : t.IsDeclared) :
    t'.IsDeclared := by
  obtain ⟨s, building, keys⟩ := declared.building
  obtain ⟨s', building', -, -, keys', same⟩ := h.eq_building building
  exact ⟨⟨s', building', keys' keys⟩, same.trans declared.subTypes⟩

theorem Declaration.enters {e : TypeEntry} (h : t.Declaration t') (enters : t.Enters e) :
    t'.Enters e := by
  obtain ⟨s, building, primaryKeyInfo, lookupFields⟩ := enters
  obtain ⟨s', building', same, same', -⟩ := h.eq_building building
  exact ⟨s', building', same.trans primaryKeyInfo, same'.trans lookupFields⟩

end ComplexType

/-- The complex types of the repository are those of the entries, declared but not frozen. -/
structure Repository.Declares (r : Repository) (entries : List (TypeEntry × TypeId)) : Prop where
  types : ∀ {u t}, r.complex? u = some t → t.IsDeclared ∧ ∃ e, (e, u) ∈ entries
  entries : ∀ {e u}, (e, u) ∈ entries → ∃ t, r.complex? u = some t ∧ t.Enters e

namespace Repository.Declares

variable {r : Repository} {entries : List (TypeEntry × TypeId)}

theorem initial (builtinNamespace : String) :
    (Repository.initial builtinNamespace).Declares [] := by
  refine ⟨fun {u t} found => ?_, by simp⟩
  rw [complex?_initial] at found
  cases found

theorem change {id : TypeId} {t t' : ComplexType} (found : r.complex? id = some t)
    (h : t.Declaration t') (D : r.Declares entries) :
    (r.set id (.complex t')).Declares entries where
  types {u t₁} found₁ := by
    rcases complex?_set r id u _ found₁ with ⟨rfl, same, -⟩ | ⟨-, found₁⟩
    · cases same
      exact ⟨h.isDeclared (D.types found).1, (D.types found).2⟩
    · exact D.types found₁
  entries {e u} mem := by
    obtain ⟨t₁, found₁, enters⟩ := D.entries mem
    by_cases same : u = id
    · subst same
      cases found.symm.trans found₁
      refine ⟨t', ?_, h.enters enters⟩
      rw [complex?_eq_some, get?_set, if_pos rfl, complex?_eq_some.1 found]
      rfl
    · refine ⟨t₁, ?_, enters⟩
      rwa [complex?_eq_some, get?_set, if_neg same, ← complex?_eq_some]

theorem register {r' : Repository} {e : TypeEntry} {t : ComplexType} (fresh : t.IsDeclared)
    (enters : t.Enters e) (h : r.register (.complex t) = .ok r') (D : r.Declares entries) :
    r'.Declares (entries ++ [(e, r.nextId)]) := by
  obtain ⟨-, rfl⟩ := register_eq_ok h
  constructor
  · intro u t₁ found
    rcases complex?_push r u _ found with ⟨rfl, same⟩ | found
    · cases same
      exact ⟨fresh, e, by simp⟩
    · obtain ⟨declared, e', mem⟩ := D.types found
      exact ⟨declared, e', List.mem_append_left _ mem⟩
  · intro e' u mem
    rcases List.mem_append.1 mem with mem | mem
    · obtain ⟨t₁, found, enters'⟩ := D.entries mem
      refine ⟨t₁, ?_, enters'⟩
      have known : u ≠ r.nextId := by
        rintro rfl
        rw [complex?_eq_some, get?_nextId] at found
        cases found
      rw [complex?_eq_some] at found ⊢
      exact (get?_push _).trans ((if_neg known).trans found)
    · cases List.mem_singleton.1 mem
      exact ⟨t, complex?_eq_some.2 ((get?_push _).trans (if_pos rfl)), enters⟩

end Repository.Declares

/-! ### Bound paths -/

/-- What a path is bound to on the type, if it leads to a field. -/
def Repository.boundPath? (r : Repository) (id : TypeId) (path : String) : Option FieldRef :=
  (r.field id path).toOption.map fun f => .field f.freeze

theorem Repository.bindRefs_map_path (r : Repository) (id : TypeId) (paths : List String) :
    (r.bindRefs id (paths.map .path)).1 = paths.filterMap (r.boundPath? id) := by
  rw [bindRefs, List.map_map, List.filterMap_map]
  rfl

/-- The paths of the entry are judged in the repository `moment`: its type in the repository
`final` keeps, in order, those that lead to a field in `moment`.  A plain name leads there to
what it leads to in the end, and so does a nested path if what it looks at is settled. -/
structure TypeEntry.BoundAt (e : TypeEntry) (id : TypeId) (moment final : Repository) : Prop where
  kept : ∃ t, final.complex? id = some t ∧ t.isFrozen = true ∧
    t.shape.primaryKeyInfo = e.primaryKeyInfo.filterMap (moment.boundPath? id) ∧
      t.shape.lookupFields = e.lookupFields.filterMap (moment.boundPath? id)
  plain : ∀ path, Path.isNested path = false →
    (moment.field id path).toOption = (final.field id path).toOption
  nested : ∀ path, Path.isNested path = true → SettledPath moment final id path →
    (moment.field id path).toOption.map (·.asDeclared) =
      (final.field id path).toOption.map (·.asDeclared)

/-- If the types of entries are declared, their paths are bound when their own freeze ends. -/
theorem Repository.Declares.boundAt {r r' : Repository} {entries : List (TypeEntry × TypeId)}
    {ids order : List TypeId} (D : r.Declares entries) (known : ∀ p ∈ entries, p.2 ∈ ids)
    (run : FreezeRun ids r order (.ok ()) r') {e : TypeEntry} {id : TypeId}
    (mem : (e, id) ∈ entries) : ∃ moment before after, order = before ++ id :: after ∧
      r.Underway (before ++ [id]) moment ∧ moment.Retains after r' ∧ e.BoundAt id moment r' ∧
      (after = [] → ∀ path, SettledPath moment r' id path) := by
  obtain ⟨E, done⟩ := run.evolves
  -- every complex type is frozen in the end, so it has its place in the order
  have all : ∀ {u t}, r.complex? u = some t → u ∈ order := by
    intro u t found
    obtain ⟨declared, e', mem'⟩ := D.types found
    obtain ⟨s, building, -⟩ := declared.building
    exact E.mem_of_building (complex?_eq_some.1 found) building (done rfl u (known _ mem'))
  obtain ⟨t, found, s, building, primaryKeyInfo, lookupFields⟩ := D.entries mem
  obtain ⟨moment, place, refs⟩ := run.bindsIn rfl (all found)
  obtain ⟨before, after, rfl, U, R⟩ := place
  have M : Midway r r' moment (before ++ [id]) after :=
    { evolves := by simpa using E
      declared := fun found => (D.types found).1
      all := fun found => by simpa using all found
      underway := U
      retains := R }
  have frozen : moment.isFrozen id = true := M.isFrozen_of_mem_before (by simp)
  refine ⟨moment, before, after, rfl, U, R,
    ⟨?_, fun path => M.field_eq frozen, fun path => M.field_of_settledPath⟩,
    fun last => M.settledPath last id⟩
  -- what was bound are the references that the entry declared
  obtain ⟨t₀, s₀, t', found₀, building₀, found', done', bound, bound'⟩ := refs
  cases (complex?_eq_some.1 found).symm.trans found₀
  cases building.symm.trans building₀
  rw [primaryKeyInfo, bindRefs_map_path] at bound
  rw [lookupFields, bindRefs_map_path] at bound'
  exact ⟨t', complex?_eq_some.2 found', done', bound, bound'⟩

namespace Manifest

/-- The types of the manifest are registered and filled, but not frozen. -/
def declare (m : Manifest) (c : Config) : Edit (List TypeId) := do
  let ids ← m.types.mapM (m.registerEntry c)
  (m.types.zip ids).forM fun (e, id) => m.fillEntry c e id
  return ids

variable {m : Manifest} {c : Config}

theorem build_eq_declare (m : Manifest) (c : Config) :
    m.build c = m.declare c >>= fun ids => ids.forM Edit.freeze >>= fun _ =>
      Edit.report [.built ids.length (m.defaultNamespace c.schema)] >>= fun _ => pure ids := by
  simp [build, declare]

theorem registerEntry_declares (e : TypeEntry) {entries : List (TypeEntry × TypeId)} {m₀ m₁ : Model}
    {id : TypeId} (D : m₀.repository.Declares entries) (run : m.registerEntry c e m₀ = .ok id m₁) :
    m₁.repository.Declares (entries ++ [(e, id)]) := by
  obtain ⟨rfl, registered⟩ := register_run run
  have enters : ((e.annotations c.defaultLocale).type
      ⟨m.namespaceOf c.schema e, e.name⟩ e.instantiable).Enters e := ⟨_, rfl, rfl, rfl⟩
  exact D.register ⟨⟨_, rfl, by simp⟩, rfl⟩ enters registered

theorem mapM_registerEntry_declares (l : List TypeEntry) {entries : List (TypeEntry × TypeId)}
    {m₀ m₁ : Model} {ids : List TypeId} (D : m₀.repository.Declares entries)
    (run : l.mapM (m.registerEntry c) m₀ = .ok ids m₁) :
    ids.length = l.length ∧ m₁.repository.Declares (entries ++ l.zip ids) := by
  induction l generalizing entries m₀ ids with
  | nil =>
    cases run
    exact ⟨rfl, by simpa using D⟩
  | cons e rest ih =>
    rw [List.mapM_cons] at run
    obtain ⟨id, m₂, first, run⟩ := bind_eq_ok.1 run
    obtain ⟨others, m₃, tail, run⟩ := bind_eq_ok.1 run
    cases run
    obtain ⟨length, D⟩ := ih (registerEntry_declares e D first) tail
    exact ⟨by simp [length], by simpa using D⟩

/-- The first part of a build registers types and declares what they have. -/
theorem keeps_declare {P : Repository → Prop}
    (changes : ∀ {r : Repository} {id t t'}, r.complex? id = some t → t.Declaration t' → P r →
      P (r.set id (.complex t')))
    (registers : ∀ {r r' : Repository} (a : Annotations) (name : QualifiedName) (b : Bool),
      r.register (.complex (a.type name b)) = .ok r' → P r → P r')
    (m : Manifest) (c : Config) : Keeps P (m.declare c) :=
  keeps_bind (keeps_mapM fun _ _ => keeps_register fun h => registers _ _ _ h) fun _ =>
    keeps_bind (keeps_forM fun _ _ => keeps_fillEntry changes m c _ _) fun _ => keeps_pure _

/-- What the first part of a build leaves. -/
theorem declare_declares {m₀ declared : Model} {ids : List TypeId}
    (run : m.declare c m₀ = .ok ids declared) (D : m₀.repository.Declares []) :
    ids.length = m.types.length ∧ declared.repository.Declares (m.types.zip ids) := by
  obtain ⟨ids', m₁, registered, run⟩ := bind_eq_ok.1 run
  obtain ⟨⟨⟩, m₂, filled, run⟩ := bind_eq_ok.1 run
  cases run
  obtain ⟨length, D⟩ := mapM_registerEntry_declares m.types D registered
  refine ⟨length, ?_⟩
  have keeps : Keeps (·.Declares (m.types.zip ids))
      ((m.types.zip ids).forM fun (e, id) => m.fillEntry c e id) :=
    keeps_forM fun entry _ => keeps_fillEntry Declares.change m c entry.1 entry.2
  exact (keeps m₁ (by simpa using D)).of_ok filled

/-- A build that succeeds declares the types and then freezes them all. -/
theorem build_eq_ok {m₀ final : Model} {ids : List TypeId} (run : m.build c m₀ = .ok ids final) :
    ∃ declared order, m.declare c m₀ = .ok ids declared ∧
      FreezeRun ids declared.repository order (.ok ()) final.repository := by
  rw [build_eq_declare] at run
  obtain ⟨ids', declared, first, run⟩ := bind_eq_ok.1 run
  obtain ⟨⟨⟩, frozen, second, run⟩ := bind_eq_ok.1 run
  obtain ⟨order, freezes⟩ := (forM_freeze_run ids' declared).of_ok second
  cases run
  exact ⟨declared, order, first, freezes⟩

/-- A pet, whose toy has a size only if it is a ball. -/
def pet : TypeEntry where
  name := "Pet"
  fields := [{ name := "toy", type := "Toy" }]
  lookupFields := ["toy/size"]

def pets : Manifest where
  types :=
    [pet, { name := "Toy" },
     { name := "Ball", superTypes := ["Toy"], fields := [{ name := "size", type := "int" }] }]

theorem pets_build : (pets.build {}).succeeds { repository := .initial "" } = true := by
  rw [Repository.initial_eq]
  cbv

end Manifest

end EntityModel
