/-
Registered types.

A type that is registered is found under its name from then on, wherever its name goes,
unless another type that is found is renamed to its name and takes its entry
(`Repository.TakesName`).

* `IsFound.alter`, `IsFound.rename` — what a step does to a type that is found;
* `Run.lookup_registered` — so the registered types of a run in which no name is taken are
  all found, the built-in ones among them;
* `not_lookup_registered` — and where a name is taken, a type is lost.
-/
import EntityModel.Proofs.NameIndex

namespace EntityModel

/-- The operation registers, renames, freezes or copies types. -/
def Operation.isStructural : Operation → Bool
  | .register _ | .rename .. | .freeze _ | .freezeAll | .copy _
  | .copyShallow _ | .build .. => true
  | _ => false

namespace Repository

variable {G : TypeNode → Prop} {r r' : Repository} {id u : TypeId} {name : QualifiedName}

/-- The type at `id` is found under its name. -/
def IsFound (r : Repository) (id : TypeId) : Prop :=
  ∃ name, r.nameOf? id = some name ∧ r.names.find? name = some id

/-- The operation renames another type that is found to the name of the type at `id`. -/
def TakesName (r : Repository) (id : TypeId) (operation : Operation) : Prop :=
  ∃ u text old r', operation = .rename u text ∧ u ≠ id ∧ r.rename u text = .ok r' ∧
    r.nameOf? u = some old ∧ r.names.find? old = some u ∧
    r.nameOf? id = some { old with name := text }

/-! ### Steps -/

theorem IsFound.keep (h : r.IsFound id) (types : KeepsNames r r') (names : r'.names = r.names) :
    r'.IsFound id := by
  obtain ⟨name, named, found⟩ := h
  exact ⟨name, types id name named, by rw [names, found]⟩

theorem IsFound.enter (h : r.IsFound id) (E : Enters r r' name)
    (free : r.names.find? name = none) : r'.IsFound id := by
  obtain ⟨old, named, found⟩ := h
  refine ⟨old, E.types id old named, ?_⟩
  rw [E.names, NameIndex.find?_insert, if_neg, found]
  rintro rfl
  rw [free] at found
  cases found

theorem isFound_enter (E : Enters r r' name) : r'.IsFound r.nextId :=
  ⟨name, E.new, by rw [E.names, NameIndex.find?_insert, if_pos rfl]⟩

theorem IsFound.alter (h : r.IsFound id) (step : Alteration G r r') : r'.IsFound id := by
  rcases step.naming with ⟨types, names⟩ | ⟨name, E, free⟩
  · exact h.keep types names
  · exact h.enter E free

theorem IsFound.rename {text : String} (h : r.IsFound id)
    (free : ¬ r.TakesName id (.rename u text)) (ok : r.rename u text = .ok r') :
    r'.IsFound id := by
  obtain ⟨name, named, found⟩ := h
  obtain ⟨old, before, after, others, names⟩ := naming_rename ok
  by_cases here : id = u
  · subst here
    rw [before] at named
    obtain rfl := Option.some.inj named
    exact ⟨_, after, by rw [names, if_pos found, NameIndex.find?_insert, if_pos rfl]⟩
  · refine ⟨name, by rw [others id here, named], ?_⟩
    rw [names]
    split
    · next indexed =>
      -- the entry that was moved is neither that of `id` nor put in its place
      have notTaken : name ≠ { old with name := text } := by
        rintro rfl
        exact free ⟨u, text, old, r', rfl, Ne.symm here, ok, before, indexed, named⟩
      have other : name ≠ old := by
        rintro rfl
        rw [indexed] at found
        exact here (Option.some.inj found).symm
      rw [NameIndex.find?_insert, if_neg notTaken, NameIndex.find?_erase, if_neg other, found]
    · exact found

/-! ### Operations -/

theorem perform_eq_of_outcome {operation : Operation} {answer : Answer}
    (h : (Session.perform { repository := r } operation).outcome = .ok answer) :
    ∃ m, operation.run { repository := r } = .ok answer m ∧ r.perform operation = m.repository := by
  rw [perform]
  rw [Session.perform, EStateM.run] at h ⊢
  cases run : operation.run { repository := r } with
  | ok answer' m =>
    rw [run] at h
    cases h
    exact ⟨m, rfl, rfl⟩
  | error e m =>
    rw [run] at h
    cases h

theorem perform_rename (r : Repository) (id : TypeId) (text : String) :
    r.perform (.rename id text) = (r.rename id text).toOption.getD r := by
  have run : (Operation.rename id text).run { repository := r } =
      (Edit.attempt (·.rename id text) >>= fun _ => pure .done) { repository := r } := rfl
  rw [perform, Session.perform, EStateM.run, run]
  simp only [bind, EStateM.bind, Edit.attempt]
  cases r.rename id text <;> rfl

theorem IsFound.perform (h : r.IsFound id) (operation : Operation)
    (free : ¬ r.TakesName id operation) : (r.perform operation).IsFound id := by
  by_cases other : ∀ u text, operation ≠ .rename u text
  · have keeps : Edit.Keeps (·.IsFound id) operation.run :=
      operation.keeps_run_of_alteration (fun step found => found.alter step) other
    exact perform_keeps keeps h
  · push Not at other
    obtain ⟨u, text, rfl⟩ := other
    rw [perform_rename]
    cases ok : r.rename u text with
    | error e => exact h
    | ok r' => exact h.rename free ok

theorem mem_ids_push {n : TypeNode} (h : id ∈ (r.push n).ids) : id ∈ r.ids ∨ id = r.nextId := by
  rw [mem_ids_iff_get?, get?_push] at h
  split at h
  · next same => exact .inr same
  · exact .inl (mem_ids_iff_get?.2 h)

/-- Every type that a build adds is found afterwards, whether it succeeds or fails. -/
theorem isFound_build (manifest : Manifest) (c : Config)
    (h : id ∈ (r.perform (.build manifest c)).ids) (new : id ∉ r.ids) :
    (r.perform (.build manifest c)).IsFound id := by
  have keeps : Edit.Keeps (fun s => ∀ u ∈ s.ids, u ∉ r.ids → s.IsFound u)
      (Operation.build manifest c).run := by
    refine Edit.keeps_map (Edit.keeps_build ?_ ?_ ?_ manifest c)
    · intro s id t t' found declares all u mem new
      have found := complex?_eq_some.1 found
      rw [ids_congr (size_set _)] at mem
      exact (all u mem new).keep (keepsNames_set found declares.change.qualifiedName) rfl
    · intro s s' a name b ok all u mem new
      obtain ⟨E, free⟩ := enters_register ok
      obtain ⟨-, rfl⟩ := register_eq_ok ok
      rcases mem_ids_push mem with old | rfl
      · exact (all u old new).enter E free
      · exact isFound_enter E
    · intro s s' ids order out run all u mem new
      have E := run.evolves.1
      rw [ids_congr E.size] at mem
      exact (all u mem new).keep E.keepsNames E.names
  exact perform_keeps keeps (fun u mem new => absurd mem new) id h new

/-- What an operation that registers a type answers is found. -/
theorem isFound_of_register {operation : Operation} {n : TypeNode}
    (registers : operation.run = Answer.type <$> Edit.register n)
    (outcome : (Session.perform { repository := r } operation).outcome = .ok (.type id)) :
    (r.perform operation).IsFound id := by
  obtain ⟨m, run, after⟩ := perform_eq_of_outcome outcome
  rw [registers] at run
  obtain ⟨id', registered, same⟩ := Edit.map_eq_ok.1 run
  obtain rfl := Answer.type.inj same
  obtain ⟨rfl, ok⟩ := Edit.register_run registered
  rw [after]
  exact isFound_enter (enters_register ok).1

theorem isFound_of_mem_registeredBy {operation : Operation} (h : id ∈ r.registeredBy operation) :
    (r.perform operation).IsFound id := by
  unfold registeredBy at h
  split at h
  · next outcome =>
    rw [List.mem_singleton.1 h]
    exact isFound_of_register rfl outcome
  · obtain ⟨mem, new⟩ := List.mem_filter.1 h
    exact isFound_build _ _ mem (by simpa using new)
  · cases h

/-! ### Built-in types -/

theorem isFound_initial (ns : String) :
    (∀ id ∈ (initial ns).ids, (initial ns).IsFound id) ∧
      ∀ b, ∃ id, (initial ns).get? id = some (.simple (.builtin ns b)) := by
  constructor
  · intro id mem
    obtain ⟨n, found⟩ := Option.isSome_iff_exists.1 (mem_ids_iff_get?.1 mem)
    obtain ⟨b, place, rfl⟩ := Option.map_eq_some_iff.1 ((get?_initial ns id).symm.trans found)
    exact ⟨⟨ns, b.name⟩, nameOf?_of_get? found, find?_initial_iff.2 ⟨b, place, rfl⟩⟩
  · intro b
    obtain ⟨i, lt, same⟩ := List.mem_iff_getElem.1 b.mem_all
    refine ⟨⟨i⟩, ?_⟩
    rw [get?_initial, List.getElem?_eq_getElem lt, same]
    rfl

/-! ### Runs -/

namespace Run

variable {c : SchemaConfig} {ids : List TypeId}
variable {permitted : Repository → List TypeId → Operation → Prop}

/-- The built-in types stay what they are. -/
theorem builtin (run : Run c permitted r ids) :
    r.builtinNamespace = c.builtinNamespace ∧
      ∀ b, ∃ id ∈ ids, r.get? id = some (.simple (.builtin c.builtinNamespace b)) := by
  induction run with
  | start =>
    refine ⟨builtinNamespace_initial _, fun b => ?_⟩
    obtain ⟨id, found⟩ := (isFound_initial c.builtinNamespace).2 b
    exact ⟨id, mem_ids_iff_get?.2 (by rw [Session.start, found]; rfl), found⟩
  | @perform r registered _ operation _ _ ih =>
    have ns : Edit.Keeps (·.builtinNamespace = c.builtinNamespace) operation.run :=
      operation.keeps_run fun step h => step.builtinNamespace.trans h
    refine ⟨perform_keeps ns ih.1, fun b => ?_⟩
    obtain ⟨id, mem, found⟩ := ih.2 b
    have stays : Edit.Keeps (·.get? id = some (.simple (.builtin c.builtinNamespace b)))
        operation.run := by
      refine operation.keeps_run fun step found => ?_
      obtain ⟨n', found', keeps⟩ := step.get?_of_isFrozen found rfl
      cases keeps
      exact found'
    exact ⟨id, List.mem_append_left _ mem, perform_keeps stays found⟩

theorem isFound (run : Run c (fun r registered operation =>
    ∀ id ∈ registered, ¬ r.TakesName id operation) r ids) : ∀ id ∈ ids, r.IsFound id := by
  induction run with
  | start => exact (isFound_initial c.builtinNamespace).1
  | @perform r registered _ operation _ free ih =>
    intro id mem
    rcases List.mem_append.1 mem with mem | mem
    · exact (ih id mem).perform operation (free id mem)
    · exact isFound_of_mem_registeredBy mem

/-- If no name of a registered type is taken, all registered types are found under their names,
no two of them share a name, and the built-in types are found for what they are. -/
theorem lookup_registered (run : Run c (fun r registered operation =>
      ∀ id ∈ registered, ¬ r.TakesName id operation) r ids) :
    (∀ id ∈ ids, ∃ t, r.get? id = some t ∧ r.lookup t.qualifiedName.ns t.name = some id) ∧
    (∀ id ∈ ids, ∀ id' ∈ ids, r.nameOf? id = r.nameOf? id' → id = id') ∧
    ∀ b, ∃ id ∈ ids, r.builtin b = .ok id ∧
      r.get? id = some (.simple (.builtin c.builtinNamespace b)) := by
  refine ⟨?_, ?_, ?_⟩
  · intro id mem
    obtain ⟨name, named, found⟩ := run.isFound id mem
    obtain ⟨t, here, rfl⟩ := Option.map_eq_some_iff.1 named
    exact ⟨t, here, found⟩
  · intro id mem id' mem' same
    obtain ⟨name, named, found⟩ := run.isFound id mem
    obtain ⟨name', named', found'⟩ := run.isFound id' mem'
    rw [named, named'] at same
    obtain rfl := Option.some.inj same
    rw [found] at found'
    exact Option.some.inj found'
  · intro b
    obtain ⟨ns, builtins⟩ := run.builtin
    obtain ⟨id, mem, here⟩ := builtins b
    obtain ⟨name, named, found⟩ := run.isFound id mem
    rw [nameOf?_of_get? here] at named
    obtain rfl := Option.some.inj named
    refine ⟨id, mem, ?_, here⟩
    have found : r.lookup r.builtinNamespace b.name = some id := by
      rw [ns]
      exact found
    rw [Repository.builtin, found]

end Run

theorem lookup_registered_renamed :
    Run {} (fun r registered operation => ∀ id ∈ registered, ¬ r.TakesName id operation)
      (single.perform (.rename ⟨33⟩ "B")) ((Session.start {}).repository.ids ++ [⟨33⟩] ++ []) ∧
    ∃ t, (single.perform (.rename ⟨33⟩ "B")).get? ⟨33⟩ = some t ∧
      (single.perform (.rename ⟨33⟩ "B")).lookup t.qualifiedName.ns t.name = some ⟨33⟩ := by
  have added : (Session.start {}).repository.registeredBy (.addComplexType ⟨"", "A"⟩ true {}) =
      [⟨33⟩] := by
    rw [Session.repository_start]
    cbv
  have before : single.nameOf? ⟨33⟩ = some ⟨"", "A"⟩ := by
    rw [single, Session.repository_start]
    cbv
  have free : ∀ id ∈ (Session.start {}).repository.ids ++ [TypeId.mk 33],
      single.nameOf? id ≠ some ⟨"", "B"⟩ := by
    rw [single, Session.repository_start]
    decide +kernel
  have run : Run {} (fun r registered operation => ∀ id ∈ registered, ¬ r.TakesName id operation)
      single ((Session.start {}).repository.ids ++ [⟨33⟩]) := by
    rw [← added]
    refine Run.perform .start _ (by simp) ?_
    rintro _ - ⟨_, _, _, _, ⟨⟩, -⟩
  have run' := run.perform (.rename ⟨33⟩ "B") (by simp) (by
    rintro id mem ⟨_, _, old, _, ⟨⟩, -, -, named, -, taken⟩
    rw [before] at named
    obtain rfl := Option.some.inj named
    exact free id mem taken)
  exact ⟨run', (Run.lookup_registered run').1 ⟨33⟩ (by simp)⟩

/-- Where a name is taken, a registered type is lost. -/
theorem not_lookup_registered : ¬ ∀ (c : SchemaConfig) (r : Repository) (ids : List TypeId),
    Run c (fun _ _ operation => operation.isStructural = true) r ids →
    ∀ id ∈ ids, ∃ t, r.get? id = some t ∧ r.lookup t.qualifiedName.ns t.name = some id := by
  intro indexed
  have first : Run {} (fun _ _ operation => operation.isStructural = true) single _ :=
    Run.perform .start _ (by simp) rfl
  have second := first.perform (.addComplexType ⟨"", "B"⟩ true {})
    (by simp) rfl
  have run := second.perform (.rename ⟨33⟩ "B") (by simp) rfl
  have added : single.registeredBy (.addComplexType ⟨"", "B"⟩ true {}) = [⟨34⟩] := by
    rw [single, Session.repository_start]
    cbv
  have named : (renamedOnto.get? ⟨34⟩).map (·.qualifiedName) = some ⟨"", "B"⟩ := by
    rw [renamedOnto, single, Session.repository_start]
    cbv
  have taken : renamedOnto.lookup "" "B" = some ⟨33⟩ := by
    rw [renamedOnto, single, Session.repository_start]
    cbv
  obtain ⟨t, found, own⟩ := indexed {} renamedOnto _ run ⟨34⟩ (by simp [added])
  rw [found] at named
  have name : t.qualifiedName = ⟨"", "B"⟩ := Option.some.inj named
  rw [TypeNode.name, name, taken] at own
  cases own

end Repository

end EntityModel
