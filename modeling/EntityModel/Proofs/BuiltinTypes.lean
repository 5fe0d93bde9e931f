/-
The built-in types.

A new repository is filled with the built-in types one after the other.  What comes out is said in
one go (`Repository.builtins`): each type has the handle of its place, and the index leads from its
name to that place, the last type coming first.

* `initial_eq` — a new repository is that, for no two built-in types share a name;
* `get?_initial` — what it has under a handle; `complex?_initial` — it has no complex types;
* `find?_initial_iff` — just the built-in types are found, each under its name.
-/
import EntityModel.Proofs.Views
import EntityModel.Session
import Mathlib.Data.List.Nodup

namespace EntityModel

namespace NameIndex

variable {index : NameIndex} {name : QualifiedName} {id : TypeId}

theorem erase_eq_self (free : ∀ e ∈ index.entries, e.1 ≠ name) : index.erase name = index := by
  rw [erase, List.filter_eq_self.2 fun e mem => bne_iff_ne.2 (free e mem)]

theorem mem_of_find? (found : index.find? name = some id) : (name, id) ∈ index.entries := by
  obtain ⟨e, first, rfl⟩ := Option.map_eq_some_iff.1 found
  have named : e.1 = name := by simpa using List.find?_some first
  rw [← named]
  exact List.mem_of_find?_eq_some first

/-- In an index without double names, just what is entered is found. -/
theorem find?_eq_some_iff (distinct : (index.entries.map Prod.fst).Nodup) :
    index.find? name = some id ↔ (name, id) ∈ index.entries := by
  refine ⟨mem_of_find?, fun mem => ?_⟩
  obtain ⟨entries⟩ := index
  induction entries with
  | nil => cases mem
  | cons e rest ih =>
    obtain ⟨fresh, distinct⟩ := List.nodup_cons.1 distinct
    rcases List.mem_cons.1 mem with rfl | mem
    · simp [find?]
    · have other : e.1 ≠ name := fun same => fresh (same ▸ List.mem_map_of_mem mem)
      have later := ih distinct mem
      rw [find?] at later ⊢
      rw [List.find?_cons_of_neg (by simpa using other), later]

end NameIndex

namespace Repository

variable {r : Repository} {ns : String} {u : TypeId} {b : BuiltinType}

/-- The nodes of built-in types. -/
def builtinNodes (ns : String) (l : List BuiltinType) : List TypeNode :=
  l.map fun b => .simple (.builtin ns b)

/-- The entries of built-in types in the index, if the first of them has the handle `first`. -/
def builtinEntries (ns : String) (first : Nat) (l : List BuiltinType) :
    List (QualifiedName × TypeId) :=
  ((l.zipIdx first).map fun p => (⟨ns, p.1.name⟩, ⟨p.2⟩)).reverse

theorem map_fst_builtinEntries (ns : String) (first : Nat) (l : List BuiltinType) :
    (builtinEntries ns first l).map Prod.fst =
      (l.map fun b => (⟨ns, b.name⟩ : QualifiedName)).reverse := by
  have places := congrArg (List.map fun b => (⟨ns, b.name⟩ : QualifiedName))
    (List.zipIdx_map_fst first l)
  rw [List.map_map] at places
  rw [builtinEntries, List.map_reverse, List.map_map, ← places]
  rfl

/-- The built-in types in their order, and the index that leads to them. -/
def builtins (ns : String) : Repository where
  types := (builtinNodes ns BuiltinType.all).toArray
  names := ⟨builtinEntries ns 0 BuiltinType.all⟩
  builtinNamespace := ns

/-- Built-in types with names that are free are added in their order. -/
theorem foldl_pushBuiltin_eq {l : List BuiltinType} (distinct : l.Nodup)
    (free : ∀ b ∈ l, ∀ e ∈ r.names.entries, e.1 ≠ ⟨r.builtinNamespace, b.name⟩) :
    l.foldl pushBuiltin r =
      { types := r.types ++ (builtinNodes r.builtinNamespace l).toArray
        names := ⟨builtinEntries r.builtinNamespace r.types.size l ++ r.names.entries⟩
        builtinNamespace := r.builtinNamespace } := by
  induction l generalizing r with
  | nil => simp [builtinNodes, builtinEntries]
  | cons b rest ih =>
    obtain ⟨new, distinct⟩ := List.nodup_cons.1 distinct
    have entries : (r.pushBuiltin b).names.entries =
        (⟨r.builtinNamespace, b.name⟩, r.nextId) :: r.names.entries :=
      congrArg (_ :: NameIndex.entries ·) (NameIndex.erase_eq_self (free b List.mem_cons_self))
    have size : (r.pushBuiltin b).types.size = r.types.size + 1 := Array.size_push _
    have free' : ∀ b' ∈ rest, ∀ e ∈ (r.pushBuiltin b).names.entries,
        e.1 ≠ ⟨r.builtinNamespace, b'.name⟩ := by
      intro b' mem e he
      rw [entries] at he
      rcases List.mem_cons.1 he with rfl | he
      · intro same
        have same := BuiltinType.name_injective (QualifiedName.mk.inj same).2
        exact new (same ▸ mem)
      · exact free b' (List.mem_cons_of_mem b mem) e he
    rw [List.foldl_cons, ih distinct free', entries, size]
    simp [builtinNodes, builtinEntries, pushBuiltin, push, nextId]

theorem initial_eq (ns : String) : initial ns = builtins ns := by
  have distinct : BuiltinType.all.Nodup := by decide
  refine (foldl_pushBuiltin_eq distinct fun _ _ _ he => (List.not_mem_nil he).elim).trans ?_
  simp [builtins]

theorem builtinNamespace_initial (ns : String) : (initial ns).builtinNamespace = ns := by
  rw [initial_eq]
  rfl

theorem get?_initial (ns : String) (u : TypeId) :
    (initial ns).get? u = BuiltinType.all[u.index]?.map fun b => .simple (.builtin ns b) := by
  rw [initial_eq, get?, builtins, List.getElem?_toArray, builtinNodes, List.getElem?_map]

/-- The built-in types are simple and read-only. -/
theorem exists_of_get?_initial {n : TypeNode} (found : (initial ns).get? u = some n) :
    ∃ t : SimpleType, n = .simple t ∧ t.isFrozen = true := by
  rw [get?_initial] at found
  obtain ⟨b, -, rfl⟩ := Option.map_eq_some_iff.1 found
  exact ⟨_, rfl, rfl⟩

theorem complex?_initial (ns : String) (id : TypeId) : (initial ns).complex? id = none := by
  refine Option.eq_none_iff_forall_ne_some.2 fun t found => ?_
  obtain ⟨t', same, -⟩ := exists_of_get?_initial (complex?_eq_some.1 found)
  cases same

theorem complex?_initial_ne_some (ns : String) (id : TypeId) (t : ComplexType) :
    (initial ns).complex? id ≠ some t := by
  rw [complex?_initial]
  exact nofun

/-- A name leads to the place of the built-in type that bears it. -/
theorem find?_initial_iff {name : QualifiedName} : (initial ns).names.find? name = some u ↔
    ∃ b, BuiltinType.all[u.index]? = some b ∧ name = ⟨ns, b.name⟩ := by
  have distinct : ((builtins ns).names.entries.map Prod.fst).Nodup := by
    show ((builtinEntries ns 0 BuiltinType.all).map Prod.fst).Nodup
    rw [map_fst_builtinEntries, List.nodup_reverse]
    refine List.Nodup.map (fun a b same => ?_) (by decide)
    exact BuiltinType.name_injective (QualifiedName.mk.inj same).2
  rw [initial_eq, NameIndex.find?_eq_some_iff distinct]
  show (name, u) ∈ builtinEntries ns 0 BuiltinType.all ↔ _
  rw [builtinEntries, List.mem_reverse, List.mem_map]
  constructor
  · rintro ⟨⟨b, place⟩, mem, same⟩
    obtain ⟨rfl, rfl⟩ := Prod.mk.inj same
    exact ⟨b, List.mem_zipIdx_iff_getElem?.1 mem, rfl⟩
  · rintro ⟨b, place, rfl⟩
    exact ⟨(b, u.index), List.mem_zipIdx_iff_getElem?.2 place, rfl⟩

end Repository

/-- A session starts with the built-in types. -/
theorem Session.repository_start (c : SchemaConfig) :
    (Session.start c).repository = .builtins c.builtinNamespace :=
  Repository.initial_eq c.builtinNamespace

end EntityModel
