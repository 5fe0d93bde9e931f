/-
Runs of operations.

A program performs operations on repositories.  It also takes types out of them, changes these
by methods of their own, and registers them in the same repository or in another one.  So what
becomes of a repository and which types a program can have in hand depend on each other:

* `Repository.Reachable` — what operations can make of the built-in types;
* `TypeNode.Obtained` — the types that can be registered;
* `Repository.Run` — the operations performed on one repository, each of which was permitted.
-/
import EntityModel.Proofs.Changes
import EntityModel.Session

namespace EntityModel

/-- The repository after an operation that may have failed. -/
def Repository.perform (r : Repository) (operation : Operation) : Repository :=
  (Session.perform { repository := r } operation).session.repository

/-- The type that an operation is given to register. -/
@[simp, reducible]
def Operation.registered? : Operation → Option TypeNode
  | .register type => some type
  | _ => none

mutual

/-- What operations can make of the built-in types. -/
inductive Repository.Reachable : Repository → Prop
  | start (c : SchemaConfig) : Repository.Reachable (Session.start c).repository
  | perform {r} (operation : Operation)
      (given : ∀ n, operation.registered? = some n → TypeNode.Obtained n)
      (h : Repository.Reachable r) : Repository.Reachable (r.perform operation)

/-- What a program can have in hand: a new type, or one that was taken from a repository at any
time, and what has been made of it since. -/
inductive TypeNode.Obtained : TypeNode → Prop
  | annotated (a : Annotations) (name : QualifiedName) (instantiable : Bool) :
      TypeNode.Obtained (.complex (a.type name instantiable))
  | named (name : QualifiedName) : TypeNode.Obtained (.simple { qualifiedName := name })
  | builtin (ns : String) (type : BuiltinType) : TypeNode.Obtained (.simple (.builtin ns type))
  | taken {r id n} (h : Repository.Reachable r) (found : r.get? id = some n) : TypeNode.Obtained n
  | changed {t t'} (h : TypeNode.Obtained (.complex t)) (change : t.Change t') :
      TypeNode.Obtained (.complex t')
  | restricted {t t'} (superType : TypeId) (h : TypeNode.Obtained (.simple t))
      (ok : t.addSuperType superType = .ok t') : TypeNode.Obtained (.simple t')

end

namespace Operation

/-- What the operation registers is something that a program can have in hand. -/
structure IsGiven (operation : Operation) : Prop where
  obtained : ∀ n, operation.registered? = some n → n.Obtained

variable {operation : Operation}

@[simp]
theorem isGiven_of_registered? (h : operation.registered? = none) : operation.IsGiven where
  obtained n registered := by
    rw [h] at registered
    cases registered

@[simp]
theorem isGiven_addComplexType (name : QualifiedName) (instantiable : Bool) (a : Annotations) :
    (addComplexType name instantiable a).IsGiven where
  obtained := by
    rintro _ ⟨⟩
    exact .annotated a name instantiable

@[simp]
theorem isGiven_addSimpleType (name : QualifiedName) : (addSimpleType name).IsGiven where
  obtained := by
    rintro _ ⟨⟩
    exact .named name

theorem isGiven_register {n : TypeNode} (h : n.Obtained) : (register n).IsGiven where
  obtained _ same := Option.some.inj same ▸ h

/-- The types that an operation registers: the one that it is given, or those of a manifest. -/
inductive Registers : Operation → TypeNode → Prop
  | given (n : TypeNode) : Registers (.register n) n
  | declared (manifest : Manifest) (c : Config) (a : Annotations) (name : QualifiedName)
      (instantiable : Bool) : Registers (.build manifest c) (.complex (a.type name instantiable))

/-- All complex types that the operation registers satisfy `Q`. -/
def RegistersOnly (operation : Operation) (Q : ComplexType → Prop) : Prop :=
  ∀ t, operation.Registers (.complex t) → Q t

theorem Registers.obtained {n : TypeNode} (h : operation.Registers n) (given : operation.IsGiven) :
    n.Obtained := by
  cases h with
  | given => exact given.obtained n rfl
  | declared manifest c a name instantiable => exact .annotated a name instantiable

end Operation

namespace Repository

variable {r : Repository}

theorem Reachable.perform_given (h : r.Reachable) {operation : Operation}
    (given : operation.IsGiven) : (r.perform operation).Reachable :=
  .perform operation given.obtained h

theorem Reachable.build (h : r.Reachable) (manifest : Manifest) (c : Config) :
    (r.perform (.build manifest c)).Reachable :=
  h.perform_given (by simp)

theorem Reachable.foldl_perform (h : r.Reachable) {operations : List Operation}
    (given : ∀ operation ∈ operations, operation.IsGiven) :
    (operations.foldl Repository.perform r).Reachable := by
  induction operations generalizing r with
  | nil => exact h
  | cons operation rest ih =>
    exact ih (h.perform_given (given operation List.mem_cons_self)) fun o mem =>
      given o (List.mem_cons_of_mem _ mem)

/-- The type at `id` of `source` is registered as it is. -/
def takeOver (r source : Repository) (id : TypeId) : Repository :=
  match source.get? id with
  | some n => r.perform (.register n)
  | none => r

theorem Reachable.takeOver (h : r.Reachable) {source : Repository} (h' : source.Reachable)
    (id : TypeId) : (r.takeOver source id).Reachable := by
  rw [Repository.takeOver]
  split
  · next n found => exact h.perform_given (Operation.isGiven_register (.taken h' found))
  · exact h

/-! ### Runs -/

/-- The handles under which an operation registers types.  A build registers all the types
that it adds, even if it fails. -/
def registeredBy (r : Repository) (operation : Operation) : List TypeId :=
  match operation, (Session.perform { repository := r } operation).outcome with
  | .register _, .ok (.type id) => [id]
  | .build .., _ => (r.perform operation).ids.filter (· ∉ r.ids)
  | _, _ => []

/-- A run from a new repository, each operation of which was `permitted`: the repository that
it leads to, and the types registered on the way. -/
inductive Run (c : SchemaConfig)
    (permitted : Repository → List TypeId → Operation → Prop) : Repository → List TypeId → Prop
  | start : Run c permitted (Session.start c).repository (Session.start c).repository.ids
  | perform {r registered} (h : Run c permitted r registered) (operation : Operation)
      (given : operation.IsGiven) (ok : permitted r registered operation) :
      Run c permitted (r.perform operation) (registered ++ r.registeredBy operation)

namespace Run

variable {c : SchemaConfig} {ids : List TypeId}
variable {permitted permitted' : Repository → List TypeId → Operation → Prop}

theorem reachable (run : Run c permitted r ids) : r.Reachable := by
  induction run with
  | start => exact .start c
  | perform _ operation given _ ih => exact ih.perform_given given

theorem mono (run : Run c permitted r ids)
    (weaker : ∀ r ids operation, permitted r ids operation → permitted' r ids operation) :
    Run c permitted' r ids := by
  induction run with
  | start => exact .start
  | perform _ operation given ok ih => exact .perform ih operation given (weaker _ _ _ ok)

theorem exists_foldl (run : Run c permitted r ids) {operations : List Operation}
    (given : ∀ operation ∈ operations, operation.IsGiven)
    (ok : ∀ operation ∈ operations, ∀ r ids, permitted r ids operation) :
    ∃ ids', Run c permitted (operations.foldl Repository.perform r) ids' := by
  induction operations generalizing r ids with
  | nil => exact ⟨ids, run⟩
  | cons operation rest ih =>
    have first := run.perform operation (given operation List.mem_cons_self)
      (ok operation List.mem_cons_self r ids)
    exact ih first (fun o mem => given o (List.mem_cons_of_mem _ mem)) fun o mem =>
      ok o (List.mem_cons_of_mem _ mem)

theorem takeOver (run : Run c permitted r ids) {source : Repository} (h : source.Reachable)
    (id : TypeId) (ok : ∀ n, source.get? id = some n → permitted r ids (.register n)) :
    ∃ ids', Run c permitted (r.takeOver source id) ids' := by
  rw [Repository.takeOver]
  split
  · next n found =>
    exact ⟨_, run.perform _ (Operation.isGiven_register (.taken h found)) (ok n found)⟩
  · exact ⟨ids, run⟩

end Run

end Repository

end EntityModel
