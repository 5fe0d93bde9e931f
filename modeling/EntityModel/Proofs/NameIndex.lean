/-
The name index.

Types are found by their qualified names.  Two pieces of code write the index: registering
a type takes a free name, and renaming a type moves its entry to a name that may be taken.

* `Alteration.naming`, `naming_rename` — what a step does to names and to the index;
* `Reachable.lookup_sound` — what is found under a name bears it.
-/
import EntityModel.Proofs.FrozenTypes

namespace EntityModel

theorem ComplexType.Change.qualifiedName {t t' : ComplexType} (h : t.Change t') :
    t'.qualifiedName = t.qualifiedName := by
  cases h.effect with
  | declares building grows => rfl
  | keeps name lifecycle frozen => exact name

namespace Repository

variable {G : TypeNode → Prop} {r r' : Repository} {id u : TypeId} {name : QualifiedName}

/-- The qualified name of the type at `id`. -/
def nameOf? (r : Repository) (id : TypeId) : Option QualifiedName :=
  (r.get? id).map (·.qualifiedName)

theorem nameOf?_of_get? {n : TypeNode} (found : r.get? id = some n) :
    r.nameOf? id = some n.qualifiedName := by
  rw [nameOf?, found]
  rfl

/-! ### Names and steps -/

/-- The types that are there stay, and keep their names. -/
def KeepsNames (r r' : Repository) : Prop :=
  ∀ u name, r.nameOf? u = some name → r'.nameOf? u = some name

/-- A type called `name` is added and entered in the index. -/
structure Enters (r r' : Repository) (name : QualifiedName) : Prop where
  types : KeepsNames r r'
  new : r'.nameOf? r.nextId = some name
  names : r'.names = r.names.insert name r.nextId

theorem keepsNames_push (n : TypeNode) : KeepsNames r (r.push n) := by
  intro u name named
  obtain ⟨m, found, rfl⟩ := Option.map_eq_some_iff.1 named
  exact nameOf?_of_get? (get?_push_of_some found n)

theorem keepsNames_set {n n' : TypeNode} (found : r.get? id = some n)
    (same : n'.qualifiedName = n.qualifiedName) : KeepsNames r (r.set id n') := by
  intro u name named
  by_cases here : u = id
  · subst here
    rw [nameOf?_of_get? found] at named
    rw [nameOf?_of_get? (get?_set_self found n'), same, named]
  · rwa [nameOf?, get?_set_of_ne here]

theorem Evolves.keepsNames {order : List TypeId} (E : r.Evolves order r') : KeepsNames r r' := by
  intro u name named
  obtain ⟨n, found, rfl⟩ := Option.map_eq_some_iff.1 named
  obtain ⟨n', found', evolution⟩ := E.get? found
  rw [nameOf?_of_get? found']
  cases evolution <;> rfl

theorem enters_push (r : Repository) (n : TypeNode) :
    Enters r { r.push n with names := r.names.insert n.qualifiedName r.nextId }
      n.qualifiedName where
  types := keepsNames_push n
  new := by
    show ((r.push n).get? r.nextId).map _ = _
    rw [get?_push, if_pos rfl]
    rfl
  names := rfl

theorem enters_register {n : TypeNode} (h : r.register n = .ok r') :
    Enters r r' n.qualifiedName ∧ r.names.find? n.qualifiedName = none := by
  obtain ⟨free, rfl⟩ := register_eq_ok h
  exact ⟨enters_push r n, free⟩

/-- A step other than a renaming leaves the index alone or enters a type under a free name. -/
theorem Alteration.naming (h : Alteration G r r') :
    (KeepsNames r r' ∧ r'.names = r.names) ∨
      ∃ name, Enters r r' name ∧ r.names.find? name = none := by
  cases h with
  | register _ h => exact .inr ⟨_, enters_register h⟩
  | copy found => exact .inl ⟨keepsNames_push _, rfl⟩
  | change found h =>
    exact .inl ⟨keepsNames_set (complex?_eq_some.1 found) h.qualifiedName, rfl⟩
  | restrict s found h =>
    obtain ⟨-, rfl⟩ := SimpleType.addSuperType_eq_ok h
    exact .inl ⟨keepsNames_set found rfl, rfl⟩
  | freeze run => exact .inl ⟨run.evolves.1.keepsNames, run.evolves.1.names⟩

/-- A renaming changes the name of one type, and moves its entry if it has one. -/
theorem naming_rename {text : String} (h : r.rename id text = .ok r') :
    ∃ old, r.nameOf? id = some old ∧ r'.nameOf? id = some { old with name := text } ∧
      (∀ u, u ≠ id → r'.nameOf? u = r.nameOf? u) ∧
      r'.names = if r.names.find? old = some id
        then (r.names.erase old).insert { old with name := text } id else r.names := by
  obtain ⟨t, t', found, renamed, rfl⟩ := rename_eq_ok h
  obtain ⟨-, rfl⟩ := ComplexType.rename_eq_ok renamed
  have found := complex?_eq_some.1 found
  refine ⟨t.qualifiedName, nameOf?_of_get? found, ?_, ?_, rfl⟩
  · exact nameOf?_of_get? (get?_set_self found _)
  · intro u other
    exact congrArg (Option.map _) (get?_set_of_ne other _)

/-! ### What is found bears the name -/

/-- Every entry of the index leads to a type of its name. -/
def IndexSound (r : Repository) : Prop :=
  ∀ name id, r.names.find? name = some id → r.nameOf? id = some name

theorem IndexSound.enter (h : r.IndexSound) (E : Enters r r' name) : r'.IndexSound := by
  intro name' id found
  rw [E.names, NameIndex.find?_insert] at found
  split at found
  · next same =>
    obtain rfl := Option.some.inj found
    rw [same, E.new]
  · exact E.types id name' (h name' id found)

theorem IndexSound.rename {text : String} (h : r.IndexSound) (ok : r.rename id text = .ok r') :
    r'.IndexSound := by
  obtain ⟨old, before, after, others, names⟩ := naming_rename ok
  intro name u found
  by_cases here : u = id
  · subst here
    rw [names] at found
    by_cases indexed : r.names.find? old = some u
    · rw [if_pos indexed, NameIndex.find?_insert] at found
      split at found
      · next same => rw [after, same]
      · -- the type had one entry only, and that is gone
        rw [NameIndex.find?_erase] at found
        split at found
        · cases found
        · next other =>
          have named := h name u found
          rw [before] at named
          exact absurd (Option.some.inj named).symm other
    · rw [if_neg indexed] at found
      have named := h name u found
      rw [before] at named
      rw [Option.some.inj named] at indexed
      exact absurd found indexed
  · rw [others u here]
    refine h name u ?_
    rw [names] at found
    split at found
    · rw [NameIndex.find?_insert] at found
      split at found
      · exact absurd (Option.some.inj found).symm here
      · rw [NameIndex.find?_erase] at found
        split at found
        · cases found
        · exact found
    · exact found

theorem Step.indexSound (step : Step G r r') (h : r.IndexSound) : r'.IndexSound := by
  cases step with
  | alter step =>
    rcases step.naming with ⟨types, names⟩ | ⟨name, E, -⟩
    · intro name id found
      rw [names] at found
      exact types id name (h name id found)
    · exact h.enter E
  | rename id text ok => exact h.rename ok

theorem indexSound_initial (ns : String) : (initial ns).IndexSound := by
  intro name id found
  obtain ⟨b, place, rfl⟩ := find?_initial_iff.1 found
  rw [nameOf?, get?_initial, place]
  rfl

theorem Reachable.indexSound (h : r.Reachable) : r.IndexSound :=
  h.invariant (fun c => indexSound_initial c.builtinNamespace) fun step => step.indexSound

/-- What is found under a name bears it; so nothing is found under two names, nor under the
name that it had before a renaming. -/
theorem Reachable.lookup_sound (h : r.Reachable) :
    (∀ ns name id, r.lookup ns name = some id →
      ∃ t, r.get? id = some t ∧ t.qualifiedName = ⟨ns, name⟩) ∧
    (∀ ns name ns' name' id, r.lookup ns name = some id → r.lookup ns' name' = some id →
      ns' = ns ∧ name' = name) ∧
    ∀ id t name r', r.get? id = some t → r.rename id name = .ok r' → name ≠ t.name →
      r'.lookup t.qualifiedName.ns t.name ≠ some id := by
  refine ⟨?_, ?_, ?_⟩
  · intro ns name id found
    exact Option.map_eq_some_iff.1 (h.indexSound _ _ found)
  · intro ns name ns' name' id found found'
    have named := h.indexSound _ _ found
    rw [h.indexSound _ _ found'] at named
    exact QualifiedName.mk.inj (Option.some.inj named)
  · intro id t name r' found ok changed stale
    obtain ⟨old, before, after, -, -⟩ := naming_rename ok
    rw [nameOf?_of_get? found] at before
    obtain rfl := Option.some.inj before
    have named := (h.indexSound.rename ok) _ _ stale
    rw [after] at named
    exact changed (QualifiedName.mk.inj (Option.some.inj named)).2

/-- A repository with one type. -/
def single : Repository :=
  (Session.start {}).repository.perform (.addComplexType ⟨"", "A"⟩ true {})

/-- A repository with two types, the first of which is renamed to the name of the second. -/
def renamedOnto : Repository :=
  (single.perform (.addComplexType ⟨"", "B"⟩ true {})).perform (.rename ⟨33⟩ "B")

theorem reachable_renamedOnto : renamedOnto.Reachable :=
  (((Reachable.start {}).perform_given (by simp)).perform_given (by simp)).perform_given (by simp)

theorem lookup_sound_renamedOnto :
    (∃ t, renamedOnto.get? ⟨33⟩ = some t ∧ t.qualifiedName = ⟨"", "B"⟩) ∧
      ∀ ns name, renamedOnto.lookup ns name = some ⟨33⟩ → ns = "" ∧ name = "B" := by
  have found : renamedOnto.lookup "" "B" = some ⟨33⟩ := by
    rw [renamedOnto, single, Session.repository_start]
    cbv
  obtain ⟨sound, unique, -⟩ := Reachable.lookup_sound reachable_renamedOnto
  exact ⟨sound "" "B" ⟨33⟩ found, fun ns name other => unique "" "B" ns name ⟨33⟩ found other⟩

end Repository

end EntityModel
