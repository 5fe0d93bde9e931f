/-
What is declared before anything is frozen.

The first part of a build registers a type for each entry, under consecutive handles, and then
fills them.  It succeeds exactly if the names of the entries are free and different, the names
that they use lead somewhere, and their fields have names (`Manifest.declare_run`).  What it
leaves is told by the entries alone (`Manifest.IsDeclaredBy`): the shape of each type by its own
entry, and its usages by the entries whose fields embed it.
-/
import EntityModel.Proofs.Declarations

namespace EntityModel

open Edit

/-! ### Consecutive handles -/

namespace Repository

/-- The handles that the next `n` types get. -/
def nextIds (r : Repository) (n : Nat) : List TypeId :=
  (List.range n).map fun i => ⟨r.types.size + i⟩

variable {r : Repository} {n : Nat}

@[simp] theorem length_nextIds : (r.nextIds n).length = n := by
  rw [nextIds, List.length_map, List.length_range]

theorem nodup_nextIds : (r.nextIds n).Nodup := by
  refine List.Nodup.map (fun i j same => ?_) List.nodup_range
  exact Nat.add_left_cancel (TypeId.mk.inj same)

/-- There is nothing yet where the next types go. -/
theorem get?_eq_none_of_mem_nextIds {u : TypeId} (mem : u ∈ r.nextIds n) : r.get? u = none := by
  obtain ⟨i, -, rfl⟩ := List.mem_map.1 mem
  exact Array.getElem?_eq_none (Nat.le_add_right _ _)

theorem nextIds_succ {r₁ : Repository} (size : r₁.types.size = r.types.size + 1) :
    r.nextIds (n + 1) = r.nextId :: r₁.nextIds n := by
  rw [nextIds, List.range_succ_eq_map, List.map_cons, List.map_map]
  congr 1
  refine List.map_congr_left fun i _ => ?_
  rw [size, Function.comp_apply, Nat.succ_eq_add_one, Nat.add_assoc, Nat.add_comm 1]

/-- Every element of a list gets its handle. -/
theorem exists_mem_zip_nextIds {β : Type} {l : List β} {x : β} (mem : x ∈ l) :
    ∃ u, (x, u) ∈ l.zip (r.nextIds l.length) := by
  obtain ⟨i, lt, rfl⟩ := List.mem_iff_getElem.1 mem
  exact ⟨_, List.mem_iff_getElem.2 ⟨i, by simpa using lt, List.getElem_zip⟩⟩

end Repository

open Repository

namespace Manifest

variable (m : Manifest) (c : Config)

/-- The name that the type of an entry is registered under. -/
def nameOf (e : TypeEntry) : QualifiedName := ⟨m.namespaceOf c.schema e, e.name⟩

/-- The type of an entry as it is registered, before it is filled. -/
def registered (e : TypeEntry) : ComplexType :=
  (e.annotations c.defaultLocale).type (m.nameOf c e) e.instantiable

/-- What the entry of a type declares on it. -/
def membersOf (r : Repository) (p : TypeEntry × TypeId) : List Member :=
  p.1.members r (m.namespaceOf c.schema p.1) p.2

/-- The types that embed the type at `u`, in the order of their entries. -/
def embedders (r : Repository) (entries : List (TypeEntry × TypeId)) (u : TypeId) : List TypeId :=
  (entries.filter fun p => (m.membersOf c r p).any (·.embeds u)).map Prod.snd

/-! ### Registration -/

/-- Types for the entries are registered, under consecutive handles. -/
structure Registers (r : Repository) (entries : List TypeEntry) (ids : List TypeId)
    (r' : Repository) : Prop where
  consecutive : ids = r.nextIds entries.length
  builtinNamespace : r'.builtinNamespace = r.builtinNamespace
  names : ∀ name id, r'.names.find? name = some id ↔ r.names.find? name = some id ∨
    ∃ e, (e, id) ∈ entries.zip ids ∧ m.nameOf c e = name
  old : ∀ u n, r.get? u = some n → r'.get? u = some n
  new : ∀ e u, (e, u) ∈ entries.zip ids → r'.get? u = some (.complex (m.registered c e))
  all : ∀ u n, r'.get? u = some n → r.get? u = some n ∨ ∃ e, (e, u) ∈ entries.zip ids

variable {m c}

variable {r r₁ r' : Repository} {e : TypeEntry} {rest : List TypeEntry} {ids : List TypeId}

/-- One entry is registered. -/
theorem register_registered (ok : r.register (.complex (m.registered c e)) = .ok r₁) :
    r.names.find? (m.nameOf c e) = none ∧ r₁.types.size = r.types.size + 1 ∧
      (∀ u, r₁.get? u = if u = r.nextId then some (.complex (m.registered c e)) else r.get? u) ∧
      ∀ name, r₁.names.find? name =
        if name = m.nameOf c e then some r.nextId else r.names.find? name := by
  obtain ⟨free, rfl⟩ := register_eq_ok ok
  refine ⟨free, ?_, fun u => get?_push _, fun name => NameIndex.find?_insert _ _ _ _⟩
  exact Array.size_push _

/-- What is found by its name then is what was found before, or the new type. -/
theorem find?_names_register (ok : r.register (.complex (m.registered c e)) = .ok r₁)
    (name : QualifiedName) (id : TypeId) : r₁.names.find? name = some id ↔
      r.names.find? name = some id ∨ (id = r.nextId ∧ m.nameOf c e = name) := by
  obtain ⟨free, -, -, names⟩ := register_registered ok
  rw [names]
  by_cases here : name = m.nameOf c e
  · subst here
    rw [if_pos rfl, free]
    simp [eq_comm]
  · rw [if_neg here]
    simp [Ne.symm here]

theorem Registers.cons (first : r.register (.complex (m.registered c e)) = .ok r₁)
    (others : m.Registers c r₁ rest ids r') :
    m.Registers c r (e :: rest) (r.nextId :: ids) r' := by
  obtain ⟨free, size, types, -⟩ := register_registered first
  constructor
  · rw [others.consecutive, List.length_cons, nextIds_succ size]
  · obtain ⟨-, rfl⟩ := register_eq_ok first
    exact others.builtinNamespace
  · intro name id
    rw [others.names, find?_names_register first, or_assoc, List.zip_cons_cons]
    refine or_congr_right ⟨?_, ?_⟩
    · rintro (⟨rfl, named⟩ | ⟨e', mem, named⟩)
      · exact ⟨e, List.mem_cons_self, named⟩
      · exact ⟨e', List.mem_cons_of_mem _ mem, named⟩
    · rintro ⟨e', mem, named⟩
      rcases List.mem_cons.1 mem with same | mem
      · obtain ⟨rfl, rfl⟩ := Prod.mk.inj same
        exact .inl ⟨rfl, named⟩
      · exact .inr ⟨e', mem, named⟩
  · intro u n found
    refine others.old u n ?_
    rw [types, if_neg, found]
    rintro rfl
    rw [get?_nextId] at found
    cases found
  · intro e' u mem
    rcases List.mem_cons.1 mem with same | mem
    · obtain ⟨rfl, rfl⟩ := Prod.mk.inj same
      exact others.old _ _ ((types _).trans (if_pos rfl))
    · exact others.new e' u mem
  · intro u n found
    rcases others.all u n found with found | ⟨e', mem⟩
    · rw [types] at found
      split at found
      · next here => exact .inr ⟨e, by rw [here]; exact List.mem_cons_self⟩
      · exact .inl found
    · exact .inr ⟨e', List.mem_cons_of_mem _ mem⟩

/-- An entry is registered if its name is free. -/
theorem registerEntry_run (e : TypeEntry) (model : Model) :
    (m.registerEntry c e).Yields model fun out after =>
      (out = .ok model.repository.nextId ∧
        model.repository.register (.complex (m.registered c e)) = .ok after.repository) ∨
      ((∀ id, out ≠ .ok id) ∧ model.repository.names.find? (m.nameOf c e) ≠ none) := by
  show (Edit.register (.complex (m.registered c e))).Yields model _
  rw [Edit.register, yields_bind, yields_ask]
  dsimp only
  rw [yields_bind, yields_attempt]
  cases registered : model.repository.register (.complex (m.registered c e)) with
  | ok r₁ => exact .inl ⟨rfl, rfl⟩
  | error err =>
    right
    constructor
    · intro id done
      cases done
    · intro free
      rw [Repository.register] at registered
      split at registered
      · next taken => exact absurd (free.symm.trans taken) (by simp)
      · cases registered

variable (m c) in
/-- The names of the entries are different, and none of them is taken. -/
def HasFreeNames (r : Repository) (entries : List TypeEntry) : Prop :=
  (entries.map (m.nameOf c)).Nodup ∧ ∀ e ∈ entries, r.names.find? (m.nameOf c e) = none

/-- The names of the others must be free once that of the first is taken. -/
theorem hasFreeNames_cons_iff (ok : r.register (.complex (m.registered c e)) = .ok r₁) :
    m.HasFreeNames c r (e :: rest) ↔ m.HasFreeNames c r₁ rest := by
  obtain ⟨free, -, -, names⟩ := register_registered ok
  rw [HasFreeNames, HasFreeNames, List.map_cons, List.nodup_cons, List.forall_mem_cons]
  simp only [names]
  constructor
  · rintro ⟨⟨fresh, distinct⟩, -, others⟩
    refine ⟨distinct, fun e' mem => ?_⟩
    rw [if_neg, others e' mem]
    exact fun same => fresh (same ▸ List.mem_map_of_mem mem)
  · rintro ⟨distinct, others⟩
    have other : ∀ e' ∈ rest, m.nameOf c e' ≠ m.nameOf c e := fun e' mem same => by
      have none := others e' mem
      rw [if_pos same] at none
      cases none
    refine ⟨⟨?_, distinct⟩, free, fun e' mem => ?_⟩
    · rw [List.mem_map]
      rintro ⟨e', mem, same⟩
      exact other e' mem same
    · rw [← others e' mem, if_neg (other e' mem)]

/-- The entries are registered if their names are free and different. -/
theorem mapM_registerEntry_run (entries : List TypeEntry) (model : Model) :
    (entries.mapM (m.registerEntry c)).Yields model fun out after =>
      ((∃ ids, out = .ok ids) ↔ m.HasFreeNames c model.repository entries) ∧
      ∀ ids, out = .ok ids → m.Registers c model.repository entries ids after.repository := by
  induction entries generalizing model with
  | nil =>
    refine ⟨⟨fun _ => ⟨.nil, nofun⟩, fun _ => ⟨[], rfl⟩⟩, fun ids done => ?_⟩
    cases done
    exact ⟨rfl, rfl, by simp, fun _ _ => id, nofun, fun _ _ => .inl⟩
  | cons e rest ih =>
    rw [List.mapM_cons, yields_bind]
    refine (registerEntry_run e model).mono fun out after => ?_
    rintro (⟨rfl, ok⟩ | ⟨failed, taken⟩)
    · rw [hasFreeNames_cons_iff ok]
      dsimp only
      rw [yields_bind]
      refine (ih after).mono fun out final => ?_
      rintro ⟨ends, registers⟩
      rw [← ends]
      cases out with
      | error err =>
        refine ⟨⟨?_, ?_⟩, nofun⟩ <;> rintro ⟨_, ⟨⟩⟩
      | ok ids =>
        refine ⟨⟨fun _ => ⟨ids, rfl⟩, fun _ => ⟨_, rfl⟩⟩, fun ids' done => ?_⟩
        cases done
        exact (registers ids rfl).cons ok
    · cases out with
      | ok id => exact absurd rfl (failed id)
      | error err =>
        refine ⟨⟨?_, fun both => absurd (both.2 e List.mem_cons_self) taken⟩, nofun⟩
        rintro ⟨_, ⟨⟩⟩

/-! ### Filling -/

/-- The members of the entries are added to their types, and the types that they embed are told. -/
structure Fills (m : Manifest) (c : Config) (r : Repository) (entries : List (TypeEntry × TypeId))
    (r' : Repository) : Prop where
  types : ∀ u, r'.get? u = (r.get? u).map (·.mapComplex fun t =>
    entries.foldl (fun t p => t.amend p.2 (m.membersOf c r p) u) t)
  names : r'.names = r.names
  builtinNamespace : r'.builtinNamespace = r.builtinNamespace

/-- The types of the entries are filled if each of them can be. -/
theorem forM_fillEntry_run (entries : List (TypeEntry × TypeId)) {model : Model}
    (building : ∀ p ∈ entries, model.repository.IsBuilding p.2) :
    (entries.forM fun p => m.fillEntry c p.1 p.2).Yields model fun out after =>
      (out = .ok () ↔ ∀ p ∈ entries,
        p.1.Resolves model.repository (m.namespaceOf c.schema p.1) p.2) ∧
      (out = .ok () → m.Fills c model.repository entries after.repository) := by
  induction entries generalizing model with
  | nil =>
    refine ⟨⟨nofun, fun _ => rfl⟩, fun _ => ⟨fun u => ?_, rfl, rfl⟩⟩
    simp only [List.foldl_nil, TypeNode.mapComplex_id]
    exact Option.map_id_apply.symm
  | cons p rest ih =>
    show (m.fillEntry c p.1 p.2 >>= fun _ => rest.forM fun p => m.fillEntry c p.1 p.2).Yields model _
    rw [yields_bind]
    refine Yields.mono (fillEntry_adds m c p.1 (building p List.mem_cons_self)) fun out after => ?_
    rintro ⟨ends, amends⟩
    rw [List.forall_mem_cons, ← ends]
    cases out with
    | error err => exact ⟨⟨nofun, fun both => nomatch both.1⟩, nofun⟩
    | ok _ =>
      have amends := amends rfl
      have same := amends.sameHeaders
      refine (ih fun q mem => amends.isBuilding (building q (List.mem_cons_of_mem p mem))).mono
        fun out final => ?_
      rintro ⟨ends', fills⟩
      simp only [TypeEntry.resolves_congr same] at ends'
      refine ⟨ends'.trans ⟨fun others => ⟨rfl, others⟩, And.right⟩, fun done => ?_⟩
      have fills := fills done
      refine ⟨fun u => ?_, fills.names.trans amends.names,
        fills.builtinNamespace.trans amends.builtinNamespace⟩
      rw [fills.types, amends.types, Option.map_map]
      congr 1
      funext n
      rw [Function.comp_apply, TypeNode.mapComplex_mapComplex]
      simp only [membersOf, TypeEntry.members_congr same, List.foldl_cons]

/-- The shape of a type is told by its own entries, and its usages by those that embed it. -/
theorem foldl_amend (entries : List (TypeEntry × TypeId)) (u : TypeId) (t : ComplexType) :
    entries.foldl (fun t p => t.amend p.2 (m.membersOf c r p) u) t =
      { t with
        lifecycle := (entries.filter (·.2 = u)).foldl
          (fun l p => l.extend (m.membersOf c r p)) t.lifecycle
        usages := (m.embedders c r entries u).foldl appendNew t.usages } := by
  induction entries generalizing t with
  | nil => rfl
  | cons p rest ih =>
    rw [List.foldl_cons, ih, ComplexType.amend, embedders, embedders]
    congr 1
    · by_cases here : u = p.2
      · rw [if_pos here, List.filter_cons_of_pos (by simpa using here.symm), List.foldl_cons]
      · rw [if_neg here, List.filter_cons_of_neg (by simpa using Ne.symm here)]
    · rw [List.filter_cons]
      cases (m.membersOf c r p).any (·.embeds u) <;> rfl

end Manifest

/-! ### Both -/

/-- The shape that the entry declares for the type `id`. -/
def TypeEntry.shapeIn (e : TypeEntry) (r : Repository) (ns : String) (id : TypeId) : TypeShape :=
  let fields := e.fields.filterMap (·.declared? r ns id)
  { fields := (∅ : FieldTable).addAll fields
    keyFields := (∅ : FieldTable).addAll (fields.filter (·.isKey))
    superTypes := (e.superTypes.filterMap (r.named? ns)).foldl appendNew []
    primaryKeyInfo := e.primaryKeyInfo.map .path
    lookupFields := e.lookupFields.map .path }

namespace Manifest

variable (m : Manifest) (c : Config) (r : Repository)

/-- There is a type called `name`, or an entry for one. -/
def Knows (name : QualifiedName) : Prop :=
  (r.names.find? name).isSome ∨ ∃ e ∈ m.types, m.nameOf c e = name

/-- The name of a type leads somewhere when it is used in the namespace. -/
def Means (ns name : String) : Prop := m.Knows c r ⟨ns, name⟩ ∨ m.Knows c r ⟨r.builtinNamespace, name⟩

/-- Nothing in the manifest is refused before the types are frozen. -/
structure IsDeclarable : Prop where
  distinct : (m.types.map (m.nameOf c)).Nodup
  free : ∀ e ∈ m.types, r.names.find? (m.nameOf c e) = none
  superTypes : ∀ e ∈ m.types, ∀ name ∈ e.superTypes, m.Means c r (m.namespaceOf c.schema e) name
  fields : ∀ e ∈ m.types, ∀ f ∈ e.fields, f.name ≠ "" ∧
    m.Means c r (m.namespaceOf c.schema e) f.type ∧
      ∀ reference ∈ f.reference, m.Means c r (m.namespaceOf c.schema e) reference.type

/-- The repository `r'` is `r` with the types of the manifest, declared but not frozen. -/
structure IsDeclaredBy (ids : List TypeId) (r' : Repository) : Prop where
  consecutive : ids = r.nextIds m.types.length
  builtinNamespace : r'.builtinNamespace = r.builtinNamespace
  names : ∀ name id, r'.names.find? name = some id ↔ r.names.find? name = some id ∨
    ∃ e, (e, id) ∈ m.types.zip ids ∧ m.nameOf c e = name
  resolves : ∀ e u, (e, u) ∈ m.types.zip ids → e.Resolves r' (m.namespaceOf c.schema e) u
  new : ∀ e u, (e, u) ∈ m.types.zip ids → r'.complex? u = some { m.registered c e with
    lifecycle := .building (e.shapeIn r' (m.namespaceOf c.schema e) u)
    usages := (m.embedders c r' (m.types.zip ids) u).foldl appendNew [] }
  old : ∀ u n, r.get? u = some n → r'.get? u = some (n.mapComplex fun t => { t with
    usages := (m.embedders c r' (m.types.zip ids) u).foldl appendNew t.usages })
  all : ∀ u n, r'.get? u = some n → (r.get? u).isSome ∨ ∃ e, (e, u) ∈ m.types.zip ids

variable {m c r}

variable {r₁ r' : Repository} {ids : List TypeId} {e : TypeEntry} {u : TypeId}

namespace Registers

variable (h : m.Registers c r m.types ids r')

include h

theorem knows_iff (name : QualifiedName) : (r'.names.find? name).isSome ↔ m.Knows c r name := by
  rw [Option.isSome_iff_exists, Knows, Option.isSome_iff_exists]
  simp only [h.names]
  constructor
  · rintro ⟨u, old | ⟨e, mem, named⟩⟩
    · exact .inl ⟨u, old⟩
    · exact .inr ⟨e, (List.of_mem_zip mem).1, named⟩
  · rintro (⟨u, old⟩ | ⟨e, mem, named⟩)
    · exact ⟨u, .inl old⟩
    · obtain ⟨u, mem⟩ := r.exists_mem_zip_nextIds mem
      rw [← h.consecutive] at mem
      exact ⟨u, .inr ⟨e, mem, named⟩⟩

theorem means_iff (ns name : String) : (r'.named? ns name).isSome ↔ m.Means c r ns name := by
  rw [named?, Option.isSome_or, Bool.or_eq_true, lookup, lookup, h.knows_iff, h.knows_iff,
    h.builtinNamespace, Means]

theorem resolves_iff (u : TypeId) (e : TypeEntry) :
    e.Resolves r' (m.namespaceOf c.schema e) u ↔
      (∀ name ∈ e.superTypes, m.Means c r (m.namespaceOf c.schema e) name) ∧
      ∀ f ∈ e.fields, f.name ≠ "" ∧ m.Means c r (m.namespaceOf c.schema e) f.type ∧
        ∀ reference ∈ f.reference, m.Means c r (m.namespaceOf c.schema e) reference.type := by
  have field : ∀ f : FieldEntry, (f.declared? r' (m.namespaceOf c.schema e) u).isSome ↔ _ :=
    fun f => FieldEntry.isSome_declared?
  simp only [← h.means_iff, ← field]
  exact ⟨fun resolves => ⟨resolves.superTypes, resolves.fields⟩, fun both => ⟨both.1, both.2⟩⟩

/-- Once its types are registered, a manifest can be declared if all it names is known. -/
theorem isDeclarable_iff (free : m.HasFreeNames c r m.types) : m.IsDeclarable c r ↔
    ∀ p ∈ m.types.zip ids, p.1.Resolves r' (m.namespaceOf c.schema p.1) p.2 := by
  constructor
  · intro declarable p mem
    have mem := (List.of_mem_zip mem).1
    exact (h.resolves_iff p.2 p.1).2 ⟨declarable.superTypes p.1 mem, declarable.fields p.1 mem⟩
  · intro resolves
    have each : ∀ e ∈ m.types, ∃ u, e.Resolves r' (m.namespaceOf c.schema e) u := by
      intro e mem
      obtain ⟨u, mem⟩ := r.exists_mem_zip_nextIds mem
      rw [← h.consecutive] at mem
      exact ⟨u, resolves _ mem⟩
    refine ⟨free.1, free.2, fun e mem => ?_, fun e mem => ?_⟩
    · obtain ⟨u, resolves⟩ := each e mem
      exact ((h.resolves_iff u e).1 resolves).1
    · obtain ⟨u, resolves⟩ := each e mem
      exact ((h.resolves_iff u e).1 resolves).2

end Registers

theorem Fills.sameHeaders {entries : List (TypeEntry × TypeId)} (h : m.Fills c r entries r') :
    r.SameHeaders r' where
  names := h.names
  builtinNamespace := h.builtinNamespace
  complex u := by rw [complex?_eq_map (h.types u), Option.isSome_map]

theorem embedders_congr (same : r.SameHeaders r') (entries : List (TypeEntry × TypeId)) :
    m.embedders c r' entries u = m.embedders c r entries u := by
  simp only [embedders, membersOf, TypeEntry.members_congr same]

theorem filter_snd_eq {entries : List (TypeEntry × TypeId)} (distinct : (entries.map Prod.snd).Nodup)
    (mem : (e, u) ∈ entries) : entries.filter (·.2 = u) = [(e, u)] := by
  induction entries with
  | nil => cases mem
  | cons p rest ih =>
    obtain ⟨fresh, distinct⟩ := List.nodup_cons.1 distinct
    rcases List.mem_cons.1 mem with rfl | mem
    · have none : rest.filter (·.2 = u) = [] := by
        refine List.filter_eq_nil_iff.2 fun q mem same => fresh ?_
        have same : q.2 = u := of_decide_eq_true same
        exact List.mem_map.2 ⟨q, mem, same⟩
      rw [List.filter_cons_of_pos (by simp), none]
    · have other : p.2 ≠ u := fun same => fresh (List.mem_map.2 ⟨(e, u), mem, same.symm⟩)
      rw [List.filter_cons_of_neg (by simpa using other), ih distinct mem]

theorem Registers.isDeclaredBy (registers : m.Registers c r m.types ids r₁)
    (fills : m.Fills c r₁ (m.types.zip ids) r')
    (resolves : ∀ p ∈ m.types.zip ids, p.1.Resolves r₁ (m.namespaceOf c.schema p.1) p.2) :
    m.IsDeclaredBy c r ids r' := by
  have same := fills.sameHeaders
  have distinct : ((m.types.zip ids).map Prod.snd).Nodup := by
    rw [registers.consecutive, List.map_snd_zip length_nextIds.le]
    exact nodup_nextIds
  have types : ∀ u, r'.get? u = (r₁.get? u).map (·.mapComplex fun t => { t with
      lifecycle := ((m.types.zip ids).filter (·.2 = u)).foldl
        (fun l p => l.extend (m.membersOf c r₁ p)) t.lifecycle
      usages := (m.embedders c r' (m.types.zip ids) u).foldl appendNew t.usages }) := by
    intro u
    rw [fills.types, embedders_congr same]
    simp only [foldl_amend]
  refine ⟨registers.consecutive, fills.builtinNamespace.trans registers.builtinNamespace, ?_,
    fun e u mem => (TypeEntry.resolves_congr same).2 (resolves (e, u) mem), ?_, ?_, ?_⟩
  · rw [fills.names]
    exact registers.names
  · intro e u mem
    have shape : (m.membersOf c r₁ (e, u)).foldl .withMember
        (m.registered c e).shape = e.shapeIn r' (m.namespaceOf c.schema e) u := by
      rw [membersOf, ← TypeEntry.members_congr same]
      exact TypeShape.foldl_withMember_eq _ _ _
    rw [complex?_eq_some, types, registers.new e u mem, filter_snd_eq distinct mem, ← shape]
    rfl
  · intro u n found
    rw [types, registers.old u n found]
    have none : (m.types.zip ids).filter (·.2 = u) = [] := by
      refine List.filter_eq_nil_iff.2 fun p mem here => ?_
      have mem := (List.of_mem_zip mem).2
      rw [registers.consecutive] at mem
      have new := get?_eq_none_of_mem_nextIds mem
      rw [of_decide_eq_true here, found] at new
      cases new
    rw [none]
    rfl
  · intro u n found
    obtain ⟨n₁, found, -⟩ := Option.map_eq_some_iff.1 ((types u).symm.trans found)
    rcases registers.all u n₁ found with old | new
    · exact .inl (by rw [old]; rfl)
    · exact .inr new

/-- The first part of a build succeeds if and only if nothing in the manifest is refused. -/
theorem declare_run (m : Manifest) (c : Config) (model : Model) :
    (m.declare c).Yields model fun out after =>
      ((∃ ids, out = .ok ids) ↔ m.IsDeclarable c model.repository) ∧
      ∀ ids, out = .ok ids → m.IsDeclaredBy c model.repository ids after.repository := by
  rw [declare, yields_bind]
  refine (mapM_registerEntry_run m.types model).mono fun out after => ?_
  rintro ⟨ends, registers⟩
  cases out with
  | error err =>
    constructor
    · constructor
      · rintro ⟨_, ⟨⟩⟩
      · intro h
        obtain ⟨_, ⟨⟩⟩ := ends.2 ⟨h.distinct, h.free⟩
    · rintro _ ⟨⟩
  | ok ids =>
    have registers := registers ids rfl
    have free := ends.1 ⟨ids, rfl⟩
    have building : ∀ p ∈ m.types.zip ids, after.repository.IsBuilding p.2 := fun p mem =>
      ⟨_, _, registers.new p.1 p.2 mem, rfl⟩
    dsimp only
    rw [yields_bind]
    refine Yields.mono (forM_fillEntry_run (m.types.zip ids) building) fun out final => ?_
    rintro ⟨ends, fills⟩
    rw [registers.isDeclarable_iff free, ← ends]
    cases out with
    | error err =>
      constructor
      · constructor
        · rintro ⟨_, ⟨⟩⟩
        · rintro ⟨⟩
      · rintro _ ⟨⟩
    | ok _ =>
      refine ⟨⟨fun _ => rfl, fun _ => ⟨ids, rfl⟩⟩, fun ids' done => ?_⟩
      cases done
      exact registers.isDeclaredBy (fills rfl) (ends.1 rfl)

/-! ### What is frozen -/

/-- A build that succeeds declares the types and then freezes them all. -/
theorem isDeclaredBy_of_build {model final : Model} (run : m.build c model = .ok ids final) :
    ∃ (declared : Repository) (order : List TypeId), m.IsDeclaredBy c model.repository ids declared ∧
      FreezeRun ids declared order (.ok ()) final.repository := by
  obtain ⟨declared, order, first, freezes⟩ := build_eq_ok run
  exact ⟨declared.repository, order, ((declare_run m c model).of_ok first).2 ids rfl, freezes⟩

/-- The type of an entry is frozen with the shape that the entry declares. -/
theorem IsDeclaredBy.flattened {final : Repository} {order : List TypeId}
    (D : m.IsDeclaredBy c r ids r') (run : FreezeRun ids r' order (.ok ()) final)
    (mem : (e, u) ∈ m.types.zip ids) : u ∈ order ∧ ∃ moment, final.complex? u =
      some (final.flattened order moment u
        { m.registered c e with
          lifecycle := .building (e.shapeIn r' (m.namespaceOf c.schema e) u)
          usages := (m.embedders c r' (m.types.zip ids) u).foldl appendNew [] }
        (e.shapeIn r' (m.namespaceOf c.schema e) u)) := by
  obtain ⟨E, done⟩ := run.evolves
  have found := complex?_eq_some.1 (D.new e u mem)
  have mem := E.mem_of_building found rfl (done rfl u (List.of_mem_zip mem).2)
  obtain ⟨t, declared, moment, found', building, final, -⟩ := E.flattened_of_mem mem
  cases found.symm.trans found'
  cases building
  exact ⟨mem, moment, complex?_eq_some.2 final⟩

end Manifest

end EntityModel
