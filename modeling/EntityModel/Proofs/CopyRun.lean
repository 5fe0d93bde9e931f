/-
The runs of a copy.

How a tree is copied, whatever the bound on its depth: one type after the other, each before what
it lists, and a copy becomes a subtype of the copy from whose source it was reached.

* `fillCopy_cases` — a fresh copy is filled, or a field without a name is refused;
* `CopyRun` — the runs; `copy_run` — every copy is one;
* `CopyRun.invariant` — what holds of a repository and the copies made so far, and is kept when
  a copy is attached and when a type is told of one, holds wherever the run ends;
* `CopyRun.Keeps.yields_copy` — so it holds after every copy, if it means that types are proper;
* `CopyRun.copiedAt` — the moment at which a copy was made.
-/
import EntityModel.Proofs.Additions

namespace EntityModel

open Repository

namespace Edit

/-! ### Copies that are filled, or refused -/

section Fill

variable {β : Type} {r : Repository} {id : TypeId} {n : TypeNode} {t : ComplexType}
variable (events : List Event) (found : r.get? id = some n)

include found

theorem modify_set_refused {f : ComplexType → Except ModelError ComplexType} {e : ModelError}
    (refused : f t = .error e) :
    Edit.modify id f ⟨r.set id (.complex t), events⟩ =
      .error e ⟨r.set id (.complex t), events⟩ := by
  have unchanged : (r.set id (.complex t)).modify id f = .error e := by
    rw [Repository.modify, complex_eq_ok_iff.2 (complex?_set_self found t)]
    show (f t >>= _) = _
    rw [refused]
    rfl
  rw [Edit.modify, attempt, unchanged]

/-- One type is changed again and again while it is being built, up to the first change that is
refused. -/
theorem forM_modify_cases {f : β → ComplexType → Except ModelError ComplexType}
    {h : TypeShape → β → TypeShape}
    (step : ∀ x s, f x (t.withDeclared s) = .ok (t.withDeclared (h s x)) ∨
      ∃ e, f x (t.withDeclared s) = .error e) (l : List β) (s : TypeShape) :
    l.forM (fun x => Edit.modify id (f x)) ⟨r.set id (.complex (t.withDeclared s)), events⟩ =
        .ok () ⟨r.set id (.complex (t.withDeclared (l.foldl h s))), events⟩ ∨
      ∃ e s', l.forM (fun x => Edit.modify id (f x))
          ⟨r.set id (.complex (t.withDeclared s)), events⟩ =
        .error e ⟨r.set id (.complex (t.withDeclared s')), events⟩ := by
  induction l generalizing s with
  | nil => exact .inl rfl
  | cons x rest ih =>
    rcases step x s with changed | ⟨e, refused⟩
    · have first := modify_set_run events found changed
      rcases ih (h s x) with done | ⟨e, s', refused⟩
      · exact .inl ((bind_eq_of_ok first).trans done)
      · exact .inr ⟨e, s', (bind_eq_of_ok first).trans refused⟩
    · exact .inr ⟨e, s, bind_eq_of_error (modify_set_refused events found refused)⟩

end Fill

theorem addField_cases (t : ComplexType) (f : Field) (s : TypeShape) :
    (t.withDeclared s).addField f = .ok (t.withDeclared (s.withField f)) ∨
      ∃ e, (t.withDeclared s).addField f = .error e := by
  by_cases named : f.name = ""
  · exact .inr ⟨_, (ComplexType.addField_of_building rfl f).trans (if_pos named)⟩
  · exact .inl (t.addField_withDeclared s named)

theorem registerKey_cases (t : ComplexType) (k : Field) (s : TypeShape) :
    (t.withDeclared s).registerKey k = .ok (t.withDeclared (s.withKey k)) ∨
      ∃ e, (t.withDeclared s).registerKey k = .error e := by
  by_cases named : k.name = ""
  · exact .inr ⟨_, (ComplexType.registerKey_of_building rfl k).trans (if_pos named)⟩
  · exact .inl (t.registerKey_withDeclared s named)

/-- A fresh copy is filled with what its source has, or something is refused on the way. -/
theorem fillCopy_cases {r : Repository} {id : TypeId} (source : ComplexType)
    (superTypes : List TypeId) (events : List Event)
    (found : r.get? id = some (.complex source.shallowCopy)) :
    fillCopy source id superTypes ⟨r, events⟩ =
        .ok () ⟨r.set id (.complex (source.deepCopy id superTypes)), events⟩ ∨
      ∃ e s, ¬ source.shape.IsProper ∧ fillCopy source id superTypes ⟨r, events⟩ =
        .error e ⟨r.set id (.complex (source.shallowCopy.withDeclared s)), events⟩ := by
  by_cases proper : source.shape.IsProper
  · exact .inl (fillCopy_run proper superTypes events found)
  have start : r = r.set id
      (.complex (source.shallowCopy.withDeclared source.shallowCopy.shape)) :=
    (set_of_get? found).symm
  have fields := forM_modify_cases events found (t := source.shallowCopy)
    (f := fun f t => t.addField (f.thawed.adopt id))
    (h := fun s f => s.withField (f.thawed.adopt id))
    (fun f s => addField_cases _ _ s) source.shape.fields.fields source.shallowCopy.shape
  have keys := forM_modify_cases events found (t := source.shallowCopy)
    (f := fun f t => t.registerKey (f.thawed.adopt id))
    (h := fun s f => s.withKey (f.thawed.adopt id))
    (fun f s => registerKey_cases _ _ s) source.shape.keyFields.fields
    ((source.shape.fields.fields.map (·.thawed.adopt id)).foldl .withField
      source.shallowCopy.shape)
  rw [← start, ← List.foldl_map (g := TypeShape.withField)] at fields
  rw [← List.foldl_map (g := TypeShape.withKey)] at keys
  rcases fields with fields | ⟨e, s, refused⟩
  · rcases keys with keys | ⟨e, s, refused⟩
    · left
      rw [fillCopy, bind_eq_of_ok fields, bind_eq_of_ok keys,
        bind_eq_of_ok (forM_addSuperType_run events found superTypes _)]
      exact modify_set_run events found rfl
    · exact .inr ⟨e, s, proper, (bind_eq_of_ok fields).trans (bind_eq_of_error refused)⟩
  · exact .inr ⟨e, s, proper, bind_eq_of_error refused⟩

theorem copyTree_of_refused {r r' : Repository} {id : TypeId} {source : ComplexType}
    {events events' : List Event} {e : ModelError} {copies : List (TypeId × TypeId)}
    (found : r.complex? id = some source) (depth : Nat)
    (refused : fillCopy source r.nextId
        (source.shape.superTypes.map (copyOr ((id, r.nextId) :: copies)))
        ⟨r.push (.complex source.shallowCopy), events⟩ = .error e ⟨r', events'⟩) :
    copyTree (depth + 1) id copies ⟨r, events⟩ = .error e ⟨r', events'⟩ := by
  have asked : ask (·.complex id) ⟨r, events⟩ = .ok source ⟨r, events⟩ :=
    ask_eq_ok (complex_eq_ok_iff.2 found)
  have pushed : push (.complex source.shallowCopy) ⟨r, events⟩ =
      .ok r.nextId ⟨r.push (.complex source.shallowCopy), events⟩ := rfl
  rw [copyTree, bind_eq_of_ok asked, bind_eq_of_ok pushed]
  exact bind_eq_of_error refused

end Edit

/-! ### Runs -/

section Lookup

variable {α β : Type} [BEq α] [LawfulBEq α] {l : List (α × β)} {x : α} {b : β}

theorem mem_of_lookup (found : l.lookup x = some b) : (x, b) ∈ l := by
  obtain ⟨before, after, rfl, -⟩ := List.lookup_eq_some_iff.1 found
  exact List.mem_append_right _ List.mem_cons_self

theorem not_mem_of_lookup (absent : l.lookup x = none) : x ∉ l.map Prod.fst := by
  intro mem
  obtain ⟨p, there, rfl⟩ := List.mem_map.1 mem
  simpa using List.lookup_eq_none_iff.1 absent p there

theorem lookup_cons_of_lookup {y : α} {c : β} (absent : l.lookup x = none)
    (found : l.lookup y = some c) (b : β) : ((x, b) :: l).lookup y = some c := by
  have other : y ≠ x := by
    rintro rfl
    cases absent.symm.trans found
  rw [List.lookup_cons, beq_false_of_ne other]
  exact found

end Lookup

namespace Repository

/-- The repository with a copy of the type `t` at `x`, which extends the copies made before of
what `t` extends. -/
def attachCopy (r : Repository) (x : TypeId) (t : ComplexType)
    (copies : List (TypeId × TypeId)) : Repository :=
  let superTypes := t.shape.superTypes.map (Edit.copyOr ((x, r.nextId) :: copies))
  r.attach (t.deepCopy r.nextId superTypes) superTypes

/-- The repository in which `parent`, if there is one, is told of a subtype. -/
def tellParent (r : Repository) (parent : Option TypeId) (c : TypeId) : Repository :=
  parent.elim r fun p => r.adjust p (·.registerSubType c)

end Repository

/-- The types of a list are copied, except for those of which there are copies, and `parent` is
told; the outcome is an error or all copies with their sources, the last one first. -/
inductive CopyRun : Option TypeId → List TypeId → Repository → List (TypeId × TypeId) →
    Except ModelError (List (TypeId × TypeId)) → Repository → Prop
  | nil {parent r copies} : CopyRun parent [] r copies (.ok copies) r
  | skip {parent x l r copies out r'} (copied : (copies.lookup x).isSome = true)
      (rest : CopyRun parent l r copies out r') : CopyRun parent (x :: l) r copies out r'
  | stopped {parent x l r copies} (e : ModelError) : CopyRun parent (x :: l) r copies (.error e) r
  | refused {parent x l r copies t} (found : r.complex? x = some t)
      (improper : ¬ t.shape.IsProper) (s : TypeShape) (e : ModelError) :
      CopyRun parent (x :: l) r copies (.error e)
        (r.push (.complex (t.shallowCopy.withDeclared s)))
  | failed {parent x l r copies t out r'} (fresh : copies.lookup x = none)
      (found : r.complex? x = some t)
      (below : CopyRun (some r.nextId) t.subTypes (r.attachCopy x t copies)
        ((x, r.nextId) :: copies) out r')
      (e : ModelError) : CopyRun parent (x :: l) r copies (.error e) r'
  | copied {parent x l r copies t copies₁ r₁ out r'} (fresh : copies.lookup x = none)
      (found : r.complex? x = some t)
      (below : CopyRun (some r.nextId) t.subTypes (r.attachCopy x t copies)
        ((x, r.nextId) :: copies) (.ok copies₁) r₁)
      (rest : CopyRun parent l (r₁.tellParent parent r.nextId) copies₁ out r') :
      CopyRun parent (x :: l) r copies out r'

namespace CopyRun

variable {parent : Option TypeId} {x : TypeId} {l : List TypeId} {r r₁ r' : Repository}
variable {copies copies₁ : List (TypeId × TypeId)} {e : ModelError}
variable {out : Except ModelError (List (TypeId × TypeId))}

/-- A type is copied, and then the others. -/
theorem cons_ok (run : CopyRun none [x] r copies (.ok copies₁) r₁) (fresh : copies.lookup x = none)
    (rest : CopyRun parent l (r₁.tellParent parent r.nextId) copies₁ out r') :
    CopyRun parent (x :: l) r copies out r' := by
  cases run with
  | skip copied => simp [fresh] at copied
  | copied _ found below last =>
    cases last with
    | nil => exact .copied fresh found below rest

/-- The copy of a type fails, and so the others are not copied. -/
theorem cons_error (run : CopyRun none [x] r copies (.error e) r')
    (fresh : copies.lookup x = none) : CopyRun parent (x :: l) r copies (.error e) r' := by
  cases run with
  | skip copied => simp [fresh] at copied
  | stopped => exact .stopped e
  | refused found improper s => exact .refused found improper s e
  | failed _ found below => exact .failed fresh found below e
  | copied _ _ _ last => cases last

/-- A type is copied, but the parent cannot be told. -/
theorem cons_untold (run : CopyRun none [x] r copies (.ok copies₁) r')
    (fresh : copies.lookup x = none) (e : ModelError) :
    CopyRun parent (x :: l) r copies (.error e) r' := by
  cases run with
  | skip copied => simp [fresh] at copied
  | copied _ found below last =>
    cases last with
    | nil => exact .failed fresh found below e

end CopyRun

/-! ### Every copy is a run -/

namespace Edit

variable {m : Model} {depth : Nat} {copies : List (TypeId × TypeId)}

theorem copySubTypes_cons_of_none {x copy : TypeId} {rest : List TypeId}
    (fresh : copies.lookup x = none) :
    copySubTypes depth copy (x :: rest) copies = copyTree depth x copies >>= fun made =>
      Edit.modify copy (fun t => .ok (t.registerSubType made.1)) >>= fun _ =>
        copySubTypes depth copy rest made.2 := by
  rw [copySubTypes, List.foldlM_cons, fresh, Option.isSome_none, if_neg Bool.false_ne_true]
  simp only [bind_assoc, pure_bind]
  rfl

theorem yields_tell {Q : Except ModelError Unit → Model → Prop} (id c : TypeId)
    (told : Q (.ok ()) { m with repository := m.repository.adjust id (·.registerSubType c) })
    (refused : ∀ e, Q (.error e) m) :
    (Edit.modify id fun t => .ok (t.registerSubType c)).Yields m Q := by
  rw [Edit.modify, yields_attempt]
  split
  · next s ok =>
    obtain ⟨t, t', found, registered, rfl⟩ := modify_eq_ok ok
    cases registered
    have same : m.repository.adjust id (·.registerSubType c) =
        m.repository.set id (.complex (t.registerSubType c)) := by rw [adjust, found]
    exact same ▸ told
  · next e _ => exact refused e

/-- A copy of the tree below `x` ends as a run does, and returns the first new type. -/
def RunsTree (x : TypeId) (m : Model) (copies : List (TypeId × TypeId))
    (out : Except ModelError (TypeId × List (TypeId × TypeId))) (m' : Model) : Prop :=
  CopyRun none [x] m.repository copies (out.map Prod.snd) m'.repository ∧
    ∀ made, out = .ok made → made.1 = m.repository.nextId

theorem RunsTree.of_error {x : TypeId} {m' : Model} {e : ModelError}
    (run : CopyRun none [x] m.repository copies (.error e) m'.repository) :
    RunsTree x m copies (.error e) m' := ⟨run, fun _ same => by cases same⟩

theorem copySubTypes_run
    (within : ∀ {m : Model} {copies} x, copies.lookup x = none →
      (copyTree depth x copies).Yields m (RunsTree x m copies)) (copy : TypeId) (l : List TypeId) :
    (copySubTypes depth copy l copies).Yields m fun out m' =>
      CopyRun (some copy) l m.repository copies out m'.repository := by
  induction l generalizing m copies with
  | nil => exact CopyRun.nil
  | cons x rest ih =>
    cases known : copies.lookup x with
    | some c =>
      have copied : (copies.lookup x).isSome = true := by rw [known]; rfl
      rw [copySubTypes_cons_of_isSome copied]
      exact ih.mono fun out m' run => .skip copied run
    | none =>
      rw [copySubTypes_cons_of_none known, yields_bind]
      refine (within x known).mono fun out m₁ => ?_
      rintro ⟨run, made⟩
      cases out with
      | error e => exact run.cons_error known
      | ok p =>
        dsimp only
        rw [yields_bind]
        refine yields_tell copy p.1 ?_ fun e => run.cons_untold known e
        refine ih.mono fun out m₂ rest => run.cons_ok known ?_
        rw [← made p rfl]
        exact rest

theorem copyTree_run (depth : Nat) (x : TypeId) (fresh : copies.lookup x = none) :
    (copyTree depth x copies).Yields m (RunsTree x m copies) := by
  induction depth generalizing m x copies with
  | zero => exact RunsTree.of_error (.stopped _)
  | succ depth ih =>
    obtain ⟨r, events⟩ := m
    cases asked : r.complex x with
    | error e =>
      rw [copyTree, yields_bind, yields_ask]
      dsimp only
      rw [asked]
      exact .of_error (.stopped e)
    | ok t =>
      have found := complex_eq_ok_iff.1 asked
      have cases := fillCopy_cases t (t.shape.superTypes.map (copyOr ((x, r.nextId) :: copies)))
        events (complex?_eq_some.1 (complex?_push_nextId r t.shallowCopy))
      rw [set_push] at cases
      rcases cases with filled | ⟨e, s, improper, refused⟩
      · rw [Yields, copyTree_of_filled found depth rfl filled, ← Yields, yields_bind]
        refine (copySubTypes_run (fun x => ih x) r.nextId t.subTypes).mono fun out m' below => ?_
        cases out with
        | error e => exact .of_error (.failed fresh found below e)
        | ok copies₁ =>
          refine ⟨.copied fresh found below .nil, ?_⟩
          rintro _ ⟨⟩
          rfl
      · rw [set_push] at refused
        rw [Yields, copyTree_of_refused found depth refused]
        exact .of_error (.refused found improper s e)

/-- Every copy of a type runs, from the type alone and no copies. -/
theorem copy_run (id : TypeId) (m : Model) : (copy id).Yields m fun out m' =>
    ∃ made, CopyRun none [id] m.repository [] made m'.repository ∧
      ∀ c, out = .ok c → c = m.repository.nextId ∧ ∃ copies, made = .ok copies := by
  rw [copy, yields_bind, yields_get]
  dsimp only
  rw [yields_bind]
  have fresh : ([] : List (TypeId × TypeId)).lookup id = none := rfl
  refine (copyTree_run (copyDepth m.repository) id fresh).mono fun out m₁ => ?_
  rintro ⟨run, first⟩
  cases out with
  | error e =>
    refine ⟨_, run, ?_⟩
    rintro _ ⟨⟩
  | ok p =>
    -- what is reported leaves the repository as it is
    dsimp only
    rw [yields_bind, yields_ask]
    split
    · rw [yields_bind, yields_report]
      refine ⟨_, run, ?_⟩
      rintro _ ⟨⟩
      exact ⟨first p rfl, _, rfl⟩
    · refine ⟨_, run, ?_⟩
      rintro _ ⟨⟩

end Edit

/-! ### What runs keep -/

namespace Repository

theorem listsMore_tellParent (r : Repository) (parent : Option TypeId) (c : TypeId) :
    r.ListsMore (r.tellParent parent c) := by
  cases parent with
  | none => exact r.listsMore_refl
  | some p => exact r.listsMore_adjust p c

end Repository

namespace CopyRun

variable {P : Repository → List (TypeId × TypeId) → Prop}
variable {parent : Option TypeId} {l l' : List TypeId} {r r' r₁ : Repository} {x y c : TypeId}
variable {copies copies₁ made before : List (TypeId × TypeId)} {t : ComplexType}
variable {out : Except ModelError (List (TypeId × TypeId))}

theorem listsMore (run : CopyRun parent l r copies out r') : r.ListsMore r' := by
  induction run with
  | nil => exact listsMore_refl _
  | skip _ _ ih => exact ih
  | stopped => exact listsMore_refl _
  | refused => exact listsMore_push _ _
  | failed _ _ _ _ ih => exact (listsMore_attach _ _ _).trans ih
  | copied _ _ _ _ ih ih' =>
    exact ((listsMore_attach _ _ _).trans ih).trans ((listsMore_tellParent _ _ _).trans ih')

/-- A run only adds copies. -/
theorem suffix (run : CopyRun parent l r copies (.ok made) r') : copies <:+ made := by
  generalize same : Except.ok made = out at run
  induction run generalizing made with
  | nil =>
    cases same
    exact List.suffix_rfl
  | skip _ _ ih => exact ih same
  | copied _ _ _ _ ih ih' => exact ((List.suffix_cons _ _).trans (ih rfl)).trans (ih' same)
  | stopped | refused | failed => cases same

/-- What is copied is not copied again. -/
theorem lookup_eq (run : CopyRun parent l r copies (.ok made) r')
    (known : copies.lookup x = some c) : made.lookup x = some c := by
  generalize same : Except.ok made = out at run
  induction run generalizing made with
  | nil =>
    cases same
    exact known
  | skip _ _ ih => exact ih known same
  | copied fresh _ _ _ ih ih' => exact ih' (ih (lookup_cons_of_lookup fresh known _) rfl) same
  | stopped | refused | failed => cases same

/-- A run that succeeds has copied all that it was to copy. -/
theorem subset (run : CopyRun parent l r copies (.ok made) r') : l ⊆ made.map Prod.fst := by
  generalize same : Except.ok made = out at run
  induction run generalizing made with
  | nil => exact List.nil_subset _
  | skip copied rest ih =>
    subst same
    obtain ⟨c, copied⟩ := Option.isSome_iff_exists.1 copied
    have known := rest.suffix.subset (mem_of_lookup copied)
    exact List.cons_subset.2 ⟨List.mem_map_of_mem known, ih rfl⟩
  | copied _ _ below rest _ ih =>
    subst same
    have known := rest.suffix.subset (below.suffix.subset List.mem_cons_self)
    exact List.cons_subset.2 ⟨List.mem_map_of_mem known, ih rfl⟩
  | stopped | refused | failed => cases same

/-- The parent, if there is one, is the copy of a type that lists `l`. -/
def IsParent (r : Repository) (copies : List (TypeId × TypeId)) (parent : Option TypeId)
    (l : List TypeId) : Prop :=
  ∀ p ∈ parent, ∃ x, copies.lookup x = some p ∧ ∀ y ∈ l, y ∈ r.declaredSubTypesOf x

theorem isParent_none (r : Repository) (copies : List (TypeId × TypeId)) (l : List TypeId) :
    IsParent r copies none l := by
  rintro _ ⟨⟩

/-- Whatever is copied first, its copy is the parent of what it lists. -/
theorem isParent_attach (found : r.complex? x = some t) (copies : List (TypeId × TypeId)) :
    IsParent (r.attachCopy x t copies) ((x, r.nextId) :: copies) (some r.nextId) t.subTypes := by
  rintro _ ⟨⟩
  refine ⟨x, List.lookup_cons_self, fun y mem => ?_⟩
  exact (listsMore_attach _ _ _).mem_declaredSubTypesOf ((mem_declaredSubTypesOf found).2 mem)

theorem IsParent.tail (h : IsParent r copies parent (x :: l)) : IsParent r copies parent l := by
  intro p mem
  obtain ⟨z, known, listed⟩ := h p mem
  exact ⟨z, known, fun y there => listed y (List.mem_cons_of_mem x there)⟩

/-- What the steps of a run keep: `P`, of the repository and the copies made so far. -/
structure Keeps (P : Repository → List (TypeId × TypeId) → Prop) : Prop where
  attach : ∀ {r copies x t}, P r copies → copies.lookup x = none → r.complex? x = some t →
    P (r.attachCopy x t copies) ((x, r.nextId) :: copies)
  /-- The copy `p` of `x` is told of that of `y`, which `x` lists and which was copied later. -/
  tell : ∀ {r copies before x p y c}, P r copies → (y, c) :: before <:+ copies →
    List.lookup x ((y, c) :: before) = some p → y ∈ r.declaredSubTypesOf x →
    P (r.adjust p (·.registerSubType c)) copies

/-- When what lies below a type is copied, the parent is told of its copy, and the rest is
copied. -/
theorem Keeps.rest (K : Keeps P) (parented : IsParent r copies parent (x :: l))
    (fresh : copies.lookup x = none)
    (below : CopyRun (some r.nextId) t.subTypes (r.attachCopy x t copies) ((x, r.nextId) :: copies)
      (.ok copies₁) r₁) (kept : P r₁ copies₁) :
    IsParent (r₁.tellParent parent r.nextId) copies₁ parent l ∧
      P (r₁.tellParent parent r.nextId) copies₁ := by
  cases parent with
  | none => exact ⟨isParent_none _ _ _, kept⟩
  | some p =>
    obtain ⟨z, known, listed⟩ := parented p rfl
    have known := lookup_cons_of_lookup fresh known r.nextId
    have more := (listsMore_attach _ _ _).trans below.listsMore
    constructor
    · rintro _ ⟨⟩
      refine ⟨z, below.lookup_eq known, fun y mem => ?_⟩
      have before := listed y (List.mem_cons_of_mem x mem)
      exact (more.trans (listsMore_adjust _ _ _)).mem_declaredSubTypesOf before
    · exact K.tell kept below.suffix known
        (more.mem_declaredSubTypesOf (listed x List.mem_cons_self))

/-- How a run ends: with more copies in a repository of which `P` holds, or in such a repository
but for a copy that was refused. -/
def EndsIn (P : Repository → List (TypeId × TypeId) → Prop) (copies : List (TypeId × TypeId)) :
    Except ModelError (List (TypeId × TypeId)) → Repository → Prop
  | .ok made, r' => copies <:+ made ∧ P r' made
  | .error _, r' => ∃ made r₁, P r₁ made ∧ (r' = r₁ ∨ ∃ (x : TypeId) (t : ComplexType)
      (s : TypeShape), r₁.complex? x = some t ∧ ¬ t.shape.IsProper ∧
        r' = r₁.push (.complex (t.shallowCopy.withDeclared s)))

theorem EndsIn.of_suffix (ends : EndsIn P made out r') (more : copies <:+ made) :
    EndsIn P copies out r' := by
  cases out with
  | ok made => exact ⟨more.trans ends.1, ends.2⟩
  | error e => exact ends

theorem EndsIn.fail (ends : EndsIn P made out r') (e : ModelError) :
    EndsIn P copies (.error e) r' := by
  cases out with
  | ok made => exact ⟨made, r', ends.2, .inl rfl⟩
  | error e => exact ends

/-- What attaching and telling keep holds wherever a run ends. -/
theorem invariant (K : Keeps P) (run : CopyRun parent l r copies out r')
    (parented : IsParent r copies parent l) (start : P r copies) : EndsIn P copies out r' := by
  -- a copy is attached before what its source lists is copied, and told of it afterwards
  induction run with
  | nil => exact ⟨List.suffix_rfl, start⟩
  | skip _ _ ih => exact ih parented.tail start
  | stopped => exact ⟨_, _, start, .inl rfl⟩
  | refused found improper s => exact ⟨_, _, start, .inr ⟨_, _, s, found, improper, rfl⟩⟩
  | failed fresh found _ e ih =>
    exact EndsIn.fail (ih (isParent_attach found _) (K.attach start fresh found)) e
  | copied fresh found below _ ih ih' =>
    obtain ⟨more, kept⟩ := ih (isParent_attach found _) (K.attach start fresh found)
    obtain ⟨parented, kept⟩ := K.rest parented fresh below kept
    exact (ih' parented kept).of_suffix ((List.suffix_cons _ _).trans more)

/-- What is kept holds after every copy, if no proper type is refused. -/
theorem Keeps.yields_copy (K : Keeps P) (proper : ∀ {r copies}, P r copies → r.IsProper) {m : Model}
    (start : P m.repository []) (id : TypeId) :
    (Edit.copy id).Yields m fun _ m' => ∃ copies, P m'.repository copies := by
  refine (Edit.copy_run id m).mono fun out m' => ?_
  rintro ⟨made, run, -⟩
  have ends := run.invariant K (isParent_none _ _ _) start
  cases made with
  | ok copies => exact ⟨copies, ends.2⟩
  | error e =>
    obtain ⟨copies, r₁, kept, same | ⟨x, t, s, found, improper, -⟩⟩ := ends
    · exact ⟨copies, same ▸ kept⟩
    · exact absurd (proper kept x t found) improper

/-- After the copies `before`, the type `t` at `x` was copied to `c`, and `P` held. -/
def CopiedAt (P : Repository → List (TypeId × TypeId) → Prop) (before : List (TypeId × TypeId))
    (x c : TypeId) (t : ComplexType) : Prop :=
  ∃ r : Repository, P r before ∧ before.lookup x = none ∧ r.complex? x = some t ∧ c = r.nextId

/-- Each copy was made of a type that was to be copied, or that a type copied before listed, and
what the type itself listed is copied as well. -/
theorem copiedAt (K : Keeps P) (run : CopyRun parent l r copies (.ok made) r')
    (parented : IsParent r copies parent l) (start : P r copies)
    (last : (x, c) :: before <:+ made) :
    (x, c) :: before <:+ copies ∨ ∃ t, CopiedAt P before x c t ∧ t.subTypes ⊆ made.map Prod.fst ∧
      (x ∈ l ∨ ∃ y d earlier s, (y, d) :: earlier <:+ before ∧ CopiedAt P earlier y d s ∧
        x ∈ s.subTypes) := by
  generalize same : Except.ok made = out at run
  induction run generalizing made with
  | nil =>
    cases same
    exact .inl last
  | skip _ _ ih =>
    refine (ih parented.tail start last same).imp_right ?_
    rintro ⟨t, at_, subs, origin⟩
    exact ⟨t, at_, subs, origin.imp_left (List.mem_cons_of_mem _)⟩
  | @copied parent z l r copies t copies₁ r₁ out r' fresh found below rest ih ih' =>
    subst same
    have here := isParent_attach found copies
    have attached := K.attach start fresh found
    obtain ⟨more, kept⟩ := below.invariant K here attached
    obtain ⟨parented, kept⟩ := K.rest parented fresh below kept
    have all : copies₁.map Prod.fst ⊆ made.map Prod.fst := (rest.suffix.map Prod.fst).subset
    rcases ih' parented kept last rfl with last | ⟨t, at_, subs, origin⟩
    · by_cases first : (x, c) :: before <:+ (z, r.nextId) :: copies
      · rcases List.suffix_cons_iff.1 first with self | old
        · cases self
          refine .inr ⟨t, ⟨r, start, fresh, found, rfl⟩, ?_, .inl List.mem_cons_self⟩
          exact List.Subset.trans below.subset all
        · exact .inl old
      · obtain ⟨s, at_, subs, origin⟩ := (ih here attached last rfl).resolve_left first
        refine .inr ⟨s, at_, List.Subset.trans subs all, .inr ?_⟩
        rcases origin with listed | origin
        · -- the copy of `z` was made before
          rcases List.suffix_or_suffix_of_suffix more last with older | newer
          · rcases List.suffix_cons_iff.1 older with self | older
            · exact absurd (self ▸ List.suffix_rfl) first
            · exact ⟨z, _, copies, t, older, ⟨r, start, fresh, found, rfl⟩, listed⟩
          · exact absurd newer first
        · exact origin
    · exact .inr ⟨t, at_, subs, origin.imp_left (List.mem_cons_of_mem _)⟩
  | stopped | refused | failed => cases same

end CopyRun

end EntityModel
