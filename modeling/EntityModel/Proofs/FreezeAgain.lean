/-
To freeze again what could not be frozen.

When a freeze fails, the complex type at which it fails and those whose freeze was waiting for
it get their declared shapes back.  The next attempt finds the same in its way, and fails in the
same way without changing anything (`FreezeRun.again`).

A simple type, however, is marked before its super types are frozen, and stays marked if that
fails: the next attempt takes it for frozen and passes over the error (`not_freeze_again`).  If
no simple type is left in this state (`CompletesSimple`), the freeze can be repeated.
-/
import EntityModel.Proofs.FreezeEffect

namespace EntityModel

namespace Repository

variable {r r₁ r' : Repository} {order : List TypeId} {id : TypeId} {t : ComplexType}
variable {declared : TypeShape}

/-- Each simple type that is frozen in `r'` but not in `r` has only super types that are frozen
in `r'`. -/
def CompletesSimple (r r' : Repository) : Prop :=
  ∀ u t, r.get? u = some (.simple t) → t.isFrozen = false → r'.isFrozen u = true →
    ∀ s ∈ t.superTypes, r'.isFrozen s = true

/-- The type at `u` is not one that has become frozen too early. -/
def completesSimpleAt (r r' : Repository) (u : TypeId) : Bool :=
  match r.get? u with
  | some (.simple t) => t.isFrozen || !r'.isFrozen u || t.superTypes.all r'.isFrozen
  | _ => true

theorem completesSimple_iff : CompletesSimple r r' ↔
    r.ids.all (r.completesSimpleAt r') = true := by
  rw [List.all_eq_true]
  constructor
  · intro h u _
    rw [completesSimpleAt]
    split
    · next t found =>
      cases fresh : t.isFrozen with
      | true => rfl
      | false =>
        cases frozen : r'.isFrozen u with
        | true => exact List.all_eq_true.2 (h u t found fresh frozen)
        | false => rfl
    · rfl
  · intro h u t found fresh frozen
    have here := h u (mem_ids_of_get? found)
    simp only [completesSimpleAt, found, fresh, frozen] at here
    exact List.all_eq_true.1 here

/-- What is left of a run completes simple types too. -/
theorem CompletesSimple.of_evolves (E : r.Evolves order r₁) (h : CompletesSimple r r') :
    CompletesSimple r₁ r' := by
  intro u t found fresh
  exact h u t (E.get?_of_not_isFrozen found fresh) fresh

/-- What is frozen does not depend on how far a type is that is not. -/
theorem isFrozen_restore (found : r.get? id = some (.complex t))
    (underWay : t.lifecycle = .freezing) (declared : TypeShape) (u : TypeId) :
    (r.setLifecycle id (.building declared)).isFrozen u = r.isFrozen u := by
  by_cases same : u = id
  · subst same
    rw [isFrozen_of_get? found, isFrozen_of_get? (get?_setLifecycle_self _ found)]
    exact (ComplexType.isFrozen_of_freezing underWay).symm
  · rw [isFrozen, isFrozen, get?_setLifecycle_of_ne _ same]

/-- The freeze of a complex type, as far as simple types are concerned, is that of its super
types. -/
theorem CompletesSimple.begin (found : r.get? id = some (.complex t))
    (found₁ : r₁.get? id = some (.complex { t with lifecycle := .freezing }))
    (h : CompletesSimple r (r₁.setLifecycle id (.building declared))) :
    CompletesSimple (r.setLifecycle id .freezing) r₁ := by
  intro u t' found' fresh frozen s mem
  have other : u ≠ id := by
    rintro rfl
    cases (get?_setLifecycle_self .freezing found).symm.trans found'
  rw [get?_setLifecycle_of_ne _ other] at found'
  rw [← isFrozen_restore found₁ rfl declared] at frozen ⊢
  exact h u t' found' fresh frozen s mem

end Repository

open Repository

/-- A run that fails can be repeated: it fails again, freezes nothing and changes nothing, and
one of the types that were asked for is not frozen. -/
theorem FreezeRun.again {ids order : List TypeId} {r r' : Repository} {e : ModelError}
    (run : FreezeRun ids r order (.error e) r') (whole : CompletesSimple r r') :
    FreezeRun ids r' [] (.error e) r' ∧ ∃ id ∈ ids, r'.isFrozen id = false := by
  generalize failed : (.error e : Except ModelError Unit) = out at run
  -- what was frozen before the failure is passed over, what failed fails for the same reason
  induction run with
  | nil => cases failed
  | @unknown id rest r absent =>
    cases failed
    exact ⟨.unknown absent, id, List.mem_cons_self, by simp [Repository.isFrozen, absent]⟩
  | @frozen id rest _ _ _ _ done tail ih =>
    obtain ⟨run, u, mem, fresh⟩ := ih whole failed
    exact ⟨.frozen (tail.evolves.1.preserves.isFrozen done) run, u, List.mem_cons_of_mem _ mem,
      fresh⟩
  | @simpleError id _ r t _ _ r₁ found fresh supers ih =>
    -- the type is left marked although one of its super types is not frozen
    cases failed
    have E := Evolves.markFrozen found
    obtain ⟨-, s, mem, open'⟩ := ih (whole.of_evolves E) rfl
    have marked := supers.evolves.1.preserves.isFrozen (isFrozen_markFrozen found)
    rw [whole id t found fresh marked s mem] at open'
    cases open'
  | @simple id _ r t _ r₁ _ _ _ found fresh supers tail _ ih =>
    have E := (Evolves.markFrozen found).trans supers.evolves.1
    obtain ⟨run, u, mem, open'⟩ := ih (whole.of_evolves E) failed
    have later := supers.evolves.1.trans tail.evolves.1
    have marked := later.preserves.isFrozen (isFrozen_markFrozen found)
    exact ⟨.frozen marked run, u, List.mem_cons_of_mem _ mem, open'⟩
  | @cyclic id _ _ t found underWay =>
    cases failed
    have fresh := (isFrozen_of_get? found).trans (ComplexType.isFrozen_of_freezing underWay)
    exact ⟨.cyclic found underWay, id, List.mem_cons_self, fresh⟩
  | @missing id _ _ t declared s found building absent =>
    cases failed
    have fresh := (isFrozen_of_get? found).trans (ComplexType.isFrozen_of_building building)
    exact ⟨.missing found building absent, id, List.mem_cons_self, fresh⟩
  | @complexError id _ r t declared _ _ r₁ found building known supers ih =>
    cases failed
    have E := supers.evolves.1
    have found₁ := (E.get?_freezing (get?_setLifecycle_self .freezing found) rfl).1
    obtain ⟨run, -⟩ := ih (whole.begin found found₁) rfl
    have E' := E.abort found building
    have found' := get?_setLifecycle_self (.building declared) found₁
    have known' := missingSuperType?_congr (fun _ => E'.get?_none) declared.superTypes
    refine ⟨.complexError found' rfl (known'.trans known) ?_, id, List.mem_cons_self,
      (isFrozen_of_get? found').trans rfl⟩
    -- once its freeze is under way again, the repository is what the super types have left
    rw [setLifecycle_restore found₁ rfl, ← E'.preserves.keptSuperTypes]
    exact run
  | @complex id _ r t declared _ r₁ _ _ _ found building known supers tail _ ih =>
    obtain ⟨E, done⟩ := supers.evolves
    have E' := E.complete found building (done rfl)
    obtain ⟨run, u, mem, open'⟩ := ih (whole.of_evolves E') failed
    have frozen := tail.evolves.1.preserves.isFrozen
      (E'.isFrozen_of_mem (List.mem_append_right _ List.mem_cons_self))
    exact ⟨.frozen frozen run, u, List.mem_cons_of_mem _ mem, open'⟩

/-- A complex type whose freeze fails is not frozen afterwards. -/
theorem FreezeRun.isFrozen_of_error {id : TypeId} {order : List TypeId} {r r' : Repository}
    {e : ModelError} {t : ComplexType} (run : FreezeRun [id] r order (.error e) r')
    (found : r.get? id = some (.complex t)) : r'.isFrozen id = false := by
  cases run with
  | unknown absent => cases found.symm.trans absent
  | frozen _ tail | simple _ _ _ tail | complex _ _ _ _ tail => cases tail
  | simpleError found' => cases found.symm.trans found'
  | cyclic found' underWay =>
    rw [isFrozen_of_get? found']
    exact ComplexType.isFrozen_of_freezing underWay
  | missing found' building =>
    rw [isFrozen_of_get? found']
    exact ComplexType.isFrozen_of_building building
  | complexError found' _ _ supers =>
    have found₁ := (supers.evolves.1.get?_freezing (get?_setLifecycle_self _ found') rfl).1
    exact isFrozen_of_get? (get?_setLifecycle_self _ found₁)

/-- A complex type whose freeze fails is not frozen afterwards.  If the freeze has left no simple
type frozen before its super types, then whatever the type is, it is not frozen, and the freeze can
be repeated: it ends with the same error and changes nothing more. -/
theorem Edit.freeze_again {m m' : Model} {id : TypeId} {e : ModelError}
    (failed : Edit.freeze id m = .error e m') :
    (∀ t, m.repository.complex? id = some t → m'.repository.isFrozen id = false) ∧
      (CompletesSimple m.repository m'.repository → m'.repository.isFrozen id = false ∧
        (Edit.freeze id).Yields m' fun out m'' =>
          out = .error e ∧ m''.repository = m'.repository) := by
  obtain ⟨order, run⟩ := (Edit.freeze_run id m).of_error failed
  refine ⟨fun t found => run.isFrozen_of_error (complex?_eq_some.1 found), fun whole => ?_⟩
  obtain ⟨again, u, mem, fresh⟩ := run.again whole
  obtain rfl := List.mem_singleton.1 mem
  refine ⟨fresh, (Edit.freeze_run u m').mono fun out m'' => ?_⟩
  rintro ⟨order', run'⟩
  obtain ⟨-, rfl, same⟩ := again.unique run'
  exact ⟨rfl, same.symm⟩

/-- A list of codes, which restrict a built-in type, also extends a type that cannot be frozen. -/
def brokenList : Repository :=
  [.addSimpleType ⟨"", "Code"⟩,
    .addComplexType ⟨"", "Broken"⟩ false {},
    .addComplexType ⟨"", "Codes"⟩ false {},
    .addSuperType ⟨33⟩ ⟨11⟩, .addSuperType ⟨34⟩ ⟨99⟩, .addSuperType ⟨35⟩ ⟨33⟩,
    .addSuperType ⟨35⟩ ⟨34⟩].foldl perform (Session.start {}).repository

/-- The code is frozen by the first attempt, and the second fails like it. -/
theorem freeze_again_brokenList : ∃ m',
    Edit.freeze ⟨35⟩ ⟨brokenList, []⟩ = .error (.unknownType ⟨99⟩) m' ∧
      brokenList.isFrozen ⟨33⟩ = false ∧ m'.repository.isFrozen ⟨33⟩ = true ∧
      CompletesSimple brokenList m'.repository ∧ m'.repository.isFrozen ⟨35⟩ = false ∧
      (Edit.freeze ⟨35⟩).Yields m' fun out m'' =>
        out = .error (.unknownType ⟨99⟩) ∧ m''.repository = m'.repository := by
  have fails : ((Edit.freeze ⟨35⟩).failure? ⟨brokenList, []⟩).any (fun (e, m') =>
      e = .unknownType ⟨99⟩ && !brokenList.isFrozen ⟨33⟩ && m'.repository.isFrozen ⟨33⟩ &&
        brokenList.ids.all (brokenList.completesSimpleAt m'.repository)) = true := by
    rw [brokenList, Session.repository_start]
    cbv
  obtain ⟨⟨e, m'⟩, run, ends⟩ := (Option.any_eq_true _ _).1 fails
  simp only [Bool.and_eq_true, decide_eq_true_eq, Bool.not_eq_true'] at ends
  obtain ⟨⟨⟨rfl, fresh⟩, marked⟩, whole⟩ := ends
  have run := Edit.failure?_eq_some.1 run
  have whole := completesSimple_iff.2 whole
  obtain ⟨-, again⟩ := Edit.freeze_again run
  exact ⟨m', run, fresh, marked, whole, again whole⟩

/-- A code that restricts a type that does not exist. -/
def danglingCode : Repository :=
  [.addSimpleType ⟨"", "Code"⟩, .addSuperType ⟨33⟩ ⟨99⟩].foldl perform
    (Session.start {}).repository

/-- It is not so of every type: the freeze of the code fails, and yet the code is frozen. -/
theorem not_freeze_again : ¬ ∀ (r : Repository) (id : TypeId) (e : ModelError) (m' : Model),
    r.Reachable → Edit.freeze id ⟨r, []⟩ = .error e m' → m'.repository.isFrozen id = false ∧
      (Edit.freeze id).Yields m' fun out m'' =>
        out = .error e ∧ m''.repository = m'.repository := by
  intro always
  have fails : ((Edit.freeze ⟨33⟩).failure? ⟨danglingCode, []⟩).any (fun outcome =>
      outcome.2.repository.isFrozen ⟨33⟩) = true := by
    rw [danglingCode, Session.repository_start]
    cbv
  obtain ⟨⟨e, m'⟩, run, frozen⟩ := (Option.any_eq_true _ _).1 fails
  have reachable : danglingCode.Reachable := Reachable.foldl_perform (.start {}) (by simp)
  obtain ⟨fresh, -⟩ := always _ _ e m' reachable (Edit.failure?_eq_some.1 run)
  cases frozen.symm.trans fresh

end EntityModel
