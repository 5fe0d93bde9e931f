/-
How operations end.

`Yields e m Q` says that the operation `e`, carried out on the model `m`, ends with a
value or an error and a model of which `Q` holds.  It is computed along the structure
of `e`: the lemmas `yields_…` open one constructor or one primitive operation each.

`Keeps P e` says that `e` keeps the property `P` of repositories, whether it succeeds
or fails; the lemmas `keeps_…` prove it for an operation from its parts.
-/
import EntityModel.Edit
import Mathlib

namespace EntityModel

theorem except_bind_eq_ok {ε α β : Type} {x : Except ε α} {f : α → Except ε β} {b : β} :
    (x >>= f) = .ok b ↔ ∃ a, x = .ok a ∧ f a = .ok b := by
  cases x <;> simp [bind, Except.bind]

theorem except_map_eq_ok {ε α β : Type} {x : Except ε α} {f : α → β} {b : β} :
    f <$> x = .ok b ↔ ∃ a, x = .ok a ∧ f a = b := by
  cases x <;> simp [Functor.map, Except.map]

namespace Edit

variable {α β : Type}

/-- The operation carried out on `m` ends as `Q` says. -/
def Yields (e : Edit α) (m : Model) (Q : Except ModelError α → Model → Prop) : Prop :=
  match e m with
  | .ok a m' => Q (.ok a) m'
  | .error err m' => Q (.error err) m'

section Yields

variable {m : Model}

theorem Yields.mono {e : Edit α} {Q Q' : Except ModelError α → Model → Prop}
    (h : e.Yields m Q) (imp : ∀ out m', Q out m' → Q' out m') : e.Yields m Q' := by
  rw [Yields] at h ⊢
  split <;> simp_all

theorem Yields.and {e : Edit α} {Q Q' : Except ModelError α → Model → Prop} (h : e.Yields m Q)
    (h' : e.Yields m Q') : e.Yields m fun out m' => Q out m' ∧ Q' out m' := by
  rw [Yields] at h h' ⊢
  split <;> simp_all

theorem Yields.of_ok {e : Edit α} {Q : Except ModelError α → Model → Prop} (h : e.Yields m Q)
    {a : α} {m' : Model} (run : e m = .ok a m') : Q (.ok a) m' := by
  simpa [Yields, run] using h

theorem Yields.of_error {e : Edit α} {Q : Except ModelError α → Model → Prop} (h : e.Yields m Q)
    {err : ModelError} {m' : Model} (run : e m = .error err m') : Q (.error err) m' := by
  simpa [Yields, run] using h

variable {Q : Except ModelError α → Model → Prop}

@[simp] theorem yields_pure (a : α) : (pure a : Edit α).Yields m Q ↔ Q (.ok a) m := Iff.rfl

@[simp] theorem yields_throw (err : ModelError) :
    (throw err : Edit α).Yields m Q ↔ Q (.error err) m := Iff.rfl

@[simp] theorem yields_bind {R : Except ModelError β → Model → Prop} (e : Edit α)
    (f : α → Edit β) :
    (e >>= f).Yields m R ↔ e.Yields m fun out m' =>
      match out with
      | .ok a => (f a).Yields m' R
      | .error err => R (.error err) m' := by
  simp only [Yields, bind, EStateM.bind]
  cases e m <;> rfl

theorem bind_eq_ok {e : Edit α} {f : α → Edit β} {b : β} {m' : Model} :
    (e >>= f) m = .ok b m' ↔ ∃ a m₁, e m = .ok a m₁ ∧ f a m₁ = .ok b m' := by
  simp only [bind, EStateM.bind]
  cases e m with
  | ok a m₁ => exact ⟨fun h => ⟨a, m₁, rfl, h⟩, by rintro ⟨_, _, ⟨⟩, h⟩; exact h⟩
  | error err m₁ => exact ⟨nofun, by rintro ⟨_, _, ⟨⟩, _⟩⟩

theorem map_eq_ok {e : Edit α} {f : α → β} {b : β} {m' : Model} :
    (f <$> e) m = .ok b m' ↔ ∃ a, e m = .ok a m' ∧ f a = b := by
  simp only [Functor.map, EStateM.map]
  cases e m with
  | ok a m₁ =>
    constructor
    · rintro ⟨⟩
      exact ⟨a, rfl, rfl⟩
    · rintro ⟨_, ⟨⟩, rfl⟩
      rfl
  | error err m₁ => exact ⟨nofun, by rintro ⟨_, ⟨⟩, _⟩⟩

theorem bind_eq_of_ok {e : Edit α} {f : α → Edit β} {a : α} {m' : Model}
    (run : e m = .ok a m') : (e >>= f) m = f a m' := by
  simp only [bind, EStateM.bind, run]

theorem bind_eq_of_error {e : Edit α} {f : α → Edit β} {err : ModelError} {m' : Model}
    (run : e m = .error err m') : (e >>= f) m = .error err m' := by
  simp only [bind, EStateM.bind, run]

theorem attempt_eq_error {change : Repository → Except ModelError Repository} {err : ModelError}
    (refused : change m.repository = .error err) : attempt change m = .error err m := by
  rw [attempt, refused]

theorem ask_eq_ok {question : Repository → Except ModelError α} {a : α}
    (answer : question m.repository = .ok a) : ask question m = .ok a m := by
  rw [ask, answer]

theorem yields_bind_of_ok {R : Except ModelError β → Model → Prop} {e : Edit α} {f : α → Edit β}
    {a : α} {m' : Model} (run : e m = .ok a m') : (e >>= f).Yields m R ↔ (f a).Yields m' R := by
  rw [yields_bind, Yields, run]

@[simp] theorem yields_map {R : Except ModelError β → Model → Prop} (e : Edit α) (f : α → β) :
    (f <$> e : Edit β).Yields m R ↔ e.Yields m fun out m' => R (f <$> out) m' := by
  simp only [Yields, Functor.map, EStateM.map]
  cases e m <;> rfl

@[simp] theorem yields_tryCatch (e : Edit α) (handle : ModelError → Edit α) :
    (tryCatch e handle : Edit α).Yields m Q ↔ e.Yields m fun out m' =>
      match out with
      | .ok a => Q (.ok a) m'
      | .error err => (handle err).Yields m' Q := by
  simp only [Yields, tryCatch, tryCatchThe, MonadExceptOf.tryCatch, EStateM.tryCatch,
    EStateM.Backtrackable.save, EStateM.Backtrackable.restore]
  cases e m <;> rfl

@[simp] theorem yields_get {R : Except ModelError Model → Model → Prop} :
    (get : Edit Model).Yields m R ↔ R (.ok m) m := Iff.rfl

@[simp] theorem yields_ask (question : Repository → Except ModelError α) :
    (ask question).Yields m Q ↔ Q (question m.repository) m := by
  simp only [Yields, ask]
  cases question m.repository <;> rfl

variable {U : Except ModelError Unit → Model → Prop}

@[simp] theorem yields_update (change : Repository → Repository) :
    (update change).Yields m U ↔ U (.ok ()) { m with repository := change m.repository } :=
  Iff.rfl

@[simp] theorem yields_attempt (change : Repository → Except ModelError Repository) :
    (attempt change).Yields m U ↔
      match change m.repository with
      | .ok r => U (.ok ()) { m with repository := r }
      | .error err => U (.error err) m := by
  simp only [Yields, attempt]
  cases change m.repository <;> rfl

@[simp] theorem yields_report (events : List Event) :
    (report events).Yields m U ↔ U (.ok ()) { m with events := m.events ++ events } := Iff.rfl

@[simp] theorem yields_push {R : Except ModelError TypeId → Model → Prop} (type : TypeNode) :
    (push type).Yields m R ↔
      R (.ok m.repository.nextId) { m with repository := m.repository.push type } := Iff.rfl

end Yields

theorem register_run {n : TypeNode} {m m' : Model} {id : TypeId}
    (run : Edit.register n m = .ok id m') :
    id = m.repository.nextId ∧ m.repository.register n = .ok m'.repository := by
  have whole : (Edit.register n).Yields m fun out m' => ∀ id, out = .ok id →
      id = m.repository.nextId ∧ m.repository.register n = .ok m'.repository := by
    rw [Edit.register, yields_bind, yields_ask]
    dsimp only
    rw [yields_bind, yields_attempt]
    cases registered : m.repository.register n with
    | error e => exact nofun
    | ok r =>
      rintro _ ⟨⟩
      exact ⟨rfl, rfl⟩
  exact whole.of_ok run id rfl

/-- The operation carried out on `m` ends with a value. -/
def succeeds (e : Edit α) (m : Model) : Bool :=
  match e m with
  | .ok _ _ => true
  | .error _ _ => false

theorem exists_of_succeeds {e : Edit α} {m : Model} (h : e.succeeds m = true) :
    ∃ a m', e m = .ok a m' := by
  rw [succeeds] at h
  split at h
  · next a m' run => exact ⟨a, m', run⟩
  · cases h

/-- What the operation carried out on `m` leaves, if it succeeds. -/
def result? (e : Edit α) (m : Model) : Option (α × Model) :=
  match e m with
  | .ok a m' => some (a, m')
  | .error _ _ => none

theorem result?_eq_some {e : Edit α} {m m' : Model} {a : α} :
    e.result? m = some (a, m') ↔ e m = .ok a m' := by
  rw [result?]
  cases e m <;> simp

/-- The error with which the operation carried out on `m` fails, and what it leaves. -/
def failure? (e : Edit α) (m : Model) : Option (ModelError × Model) :=
  match e m with
  | .ok _ _ => none
  | .error err m' => some (err, m')

theorem failure?_eq_some {e : Edit α} {m m' : Model} {err : ModelError} :
    e.failure? m = some (err, m') ↔ e m = .error err m' := by
  rw [failure?]
  cases e m <;> simp

/-- The operation keeps `P`, whether it succeeds or fails. -/
def Keeps (P : Repository → Prop) (e : Edit α) : Prop :=
  ∀ m, P m.repository → e.Yields m fun _ m' => P m'.repository

section Keeps

variable {P : Repository → Prop}

theorem Keeps.yields {e : Edit α} (h : Keeps P e) {m : Model} (hm : P m.repository) :
    e.Yields m fun _ m' => P m'.repository := h m hm

theorem keeps_pure (a : α) : Keeps P (pure a : Edit α) := fun _ h => h

theorem keeps_throw (err : ModelError) : Keeps P (throw err : Edit α) := fun _ h => h

theorem keeps_ask (question : Repository → Except ModelError α) : Keeps P (ask question) :=
  fun _ h => (yields_ask question).2 h

theorem keeps_report (events : List Event) : Keeps P (report events) := fun _ h => h

theorem keeps_get : Keeps P (get : Edit Model) := fun _ h => h

theorem keeps_bind {e : Edit α} {f : α → Edit β} (he : Keeps P e) (hf : ∀ a, Keeps P (f a)) :
    Keeps P (e >>= f) := by
  intro m h
  rw [yields_bind]
  refine (he m h).mono fun out m' h' => ?_
  cases out with
  | ok a => exact hf a m' h'
  | error err => exact h'

theorem keeps_map {e : Edit α} {f : α → β} (he : Keeps P e) : Keeps P (f <$> e : Edit β) :=
  fun m h => (yields_map e f).2 (he m h)

theorem keeps_update {change : Repository → Repository} (h : ∀ r, P r → P (change r)) :
    Keeps P (update change) := fun _ hm => h _ hm

theorem keeps_attempt {change : Repository → Except ModelError Repository}
    (h : ∀ r s, P r → change r = .ok s → P s) : Keeps P (attempt change) := by
  intro m hm
  rw [yields_attempt]
  split
  · next s found => exact h _ s hm found
  · exact hm

theorem keeps_forM {l : List β} {f : β → Edit Unit} (h : ∀ x ∈ l, Keeps P (f x)) :
    Keeps P (l.forM f) := by
  induction l with
  | nil => exact keeps_pure ()
  | cons x rest ih =>
    show Keeps P (f x >>= fun _ => rest.forM f)
    exact keeps_bind (h x List.mem_cons_self) fun _ =>
      ih fun y hy => h y (List.mem_cons_of_mem x hy)

theorem keeps_foldlM {l : List β} {f : α → β → Edit α} (h : ∀ a, ∀ x ∈ l, Keeps P (f a x))
    (start : α) : Keeps P (l.foldlM f start) := by
  induction l generalizing start with
  | nil => exact keeps_pure start
  | cons x rest ih =>
    rw [List.foldlM_cons]
    exact keeps_bind (h start x List.mem_cons_self) fun a =>
      ih (fun b y hy => h b y (List.mem_cons_of_mem x hy)) a

theorem keeps_mapM {l : List β} {f : β → Edit α} (h : ∀ x ∈ l, Keeps P (f x)) :
    Keeps P (l.mapM f) := by
  induction l with
  | nil =>
    rw [List.mapM_nil]
    exact keeps_pure []
  | cons x rest ih =>
    rw [List.mapM_cons]
    refine keeps_bind (h x List.mem_cons_self) fun _ => keeps_bind ?_ fun _ => keeps_pure _
    exact ih fun y hy => h y (List.mem_cons_of_mem x hy)

end Keeps

end Edit

end EntityModel
