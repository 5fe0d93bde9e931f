/-
Which types can be frozen.

The freeze of a type succeeds if and only if every super type declared on the way exists and
no type on the way is above itself (`Reachable.freeze_ok_iff`).  Cycles are looked for nowhere
in the freeze; they show in the types whose freeze is under way:

* `FreezeRun.blocked` — a run that fails has reached a type that stands in its way, and if that
  type was under way the run has gone round in a circle;
* `FreezeRun.declaresKnown` — what a run has frozen declared only super types that exist;
* `Evolves.idxOf_lt_of_transGen` — in a run that succeeds, what a type keeps comes before it in
  the order, so that nothing comes before itself.
-/
import EntityModel.Proofs.FreezeEffect

namespace EntityModel

namespace Repository

variable {r r' : Repository} {order ids : List TypeId} {id u v : TypeId} {e : ModelError}
variable {t : ComplexType} {declared : TypeShape}

/-- The type at `u` is not frozen, and keeps `v` as a super type when it is frozen. -/
def Extends (r : Repository) (u v : TypeId) : Prop := v ∈ r.keptBy u

/-- The type and what is reached from it through super types that are kept. -/
def keptAbove (r : Repository) (id : TypeId) : Set TypeId :=
  {u | Relation.ReflTransGen r.Extends id u}

/-- Nothing stands in the way of the freeze of `id`. -/
structure IsFreezable (r : Repository) (id : TypeId) : Prop where
  /-- The super types that a type declares exist, whether it keeps them or not. -/
  known : ∀ u ∈ r.keptAbove id, ∀ t, r.complex? u = some t → t.isFrozen = false →
    ∀ s ∈ t.shape.superTypes, (r.get? s).isSome
  /-- No type is above itself. -/
  acyclic : ∀ u ∈ r.keptAbove id, ¬ Relation.TransGen r.Extends u u

/-- Only a type that is being built keeps super types, and they are among the declared ones. -/
theorem Extends.exists_building (h : r.Extends u v) : ∃ t declared,
    r.get? u = some (.complex t) ∧ t.lifecycle = .building declared ∧ v ∈ declared.superTypes := by
  rw [Extends, keptBy] at h
  split at h
  · next t found =>
    split at h
    · next declared building => exact ⟨t, declared, found, building, mem_keptSuperTypes h⟩
    · cases h
  · cases h

/-! ### What stands in the way of a freeze -/

/-- The freeze of the type at `u` begins with that of `v`. -/
def Pulls (r : Repository) (u v : TypeId) : Prop := v ∈ r.pulls u

/-- The freeze of the type at `u` cannot succeed, and this is the error that it ends with. -/
inductive Blocks (r : Repository) (u : TypeId) : ModelError → Prop
  | absent (h : r.get? u = none) : Blocks r u (.unknownType u)
  /-- The type declares a super type that does not exist. -/
  | missing {t : ComplexType} {declared : TypeShape} {s : TypeId}
      (found : r.get? u = some (.complex t)) (building : t.lifecycle = .building declared)
      (mem : s ∈ declared.superTypes) (absent : r.get? s = none) : Blocks r u (.unknownType s)
  /-- The freeze of the type waits for that of its super types. -/
  | underWay {t : ComplexType} (found : r.get? u = some (.complex t))
      (underWay : t.lifecycle = .freezing) : Blocks r u (.cyclicInheritance t.name)
  /-- The freeze of the type would have to wait for itself. -/
  | cycle {t : ComplexType} (found : r.get? u = some (.complex t))
      (round : Relation.TransGen r.Pulls u u) : Blocks r u (.cyclicInheritance t.name)

/-- One of the types `ids` leads to a type that stands in the way. -/
def Blocked (r : Repository) (ids : List TypeId) (e : ModelError) : Prop :=
  ∃ id ∈ ids, ∃ u, Relation.ReflTransGen r.Pulls id u ∧ r.Blocks u e

theorem not_isFrozen_of_round (round : Relation.TransGen r.Pulls u u) : r.isFrozen u = false := by
  obtain ⟨v, pulled, -⟩ := Relation.TransGen.head'_iff.1 round
  by_contra frozen
  rw [Bool.not_eq_false] at frozen
  rw [Pulls, pulls_of_isFrozen frozen] at pulled
  cases pulled

/-- What stands in the way later did so before, if nothing was taken away and no type pulled
less. -/
theorem Blocks.mono (absent : ∀ v, r'.get? v = none → r.get? v = none)
    (pulls : ∀ v w, r'.Pulls v w → r.Pulls v w)
    (same : ∀ n, r'.get? u = some n → n.isFrozen = false → r.get? u = some n)
    (h : r'.Blocks u e) : r.Blocks u e := by
  cases h with
  | absent h => exact .absent (absent u h)
  | missing found building mem h =>
    exact .missing (same _ found (ComplexType.isFrozen_of_building building)) building mem
      (absent _ h)
  | underWay found underWay =>
    exact .underWay (same _ found (ComplexType.isFrozen_of_freezing underWay)) underWay
  | cycle found round =>
    have fresh := not_isFrozen_of_round round
    rw [isFrozen_of_get? found] at fresh
    exact .cycle (same _ found fresh) (Relation.TransGen.mono pulls _ _ round)

theorem Blocked.mono {ids' : List TypeId} (sub : ∀ id ∈ ids, id ∈ ids') (h : r.Blocked ids e) :
    r.Blocked ids' e := by
  obtain ⟨id, mem, u, path, blocks⟩ := h
  exact ⟨id, sub id mem, u, path, blocks⟩

/-- What stands in the way of what a type pulls stands in its own way. -/
theorem Blocked.of_pulls {rest : List TypeId} (sub : ∀ s ∈ ids, r.Pulls id s)
    (h : r.Blocked ids e) : r.Blocked (id :: rest) e := by
  obtain ⟨s, mem, u, path, blocks⟩ := h
  exact ⟨id, List.mem_cons_self, u, path.head (sub s mem), blocks⟩

theorem Evolves.blocked (E : r.Evolves order r') (h : r'.Blocked ids e) : r.Blocked ids e := by
  have pulls : ∀ v w, r'.Pulls v w → r.Pulls v w := fun v w => E.pulls_subset
  obtain ⟨id, mem, u, path, blocks⟩ := h
  exact ⟨id, mem, u, Relation.ReflTransGen.mono pulls _ _ path,
    blocks.mono (fun v => E.get?_none.1) pulls fun n => E.get?_of_not_isFrozen⟩

/-- What stands in the way once the freeze of `id` is under way did so before, for if it is
`id` itself then `id` is above itself. -/
theorem blocked_begin {rest : List TypeId} (found : r.get? id = some (.complex t))
    (building : t.lifecycle = .building declared)
    (h : (r.setLifecycle id .freezing).Blocked
      (r.keptSuperTypes t.instantiable declared.superTypes) e) :
    r.Blocked (id :: rest) e := by
  have pulls : ∀ v w, (r.setLifecycle id .freezing).Pulls v w → r.Pulls v w :=
    fun v w => pulls_setLifecycle found
  obtain ⟨s, kept, u, path, blocks⟩ := h
  have super : r.Pulls id s := by
    simpa [Pulls, Repository.pulls, keptBy, found, building] using kept
  have path' : Relation.ReflTransGen r.Pulls s u := Relation.ReflTransGen.mono pulls _ _ path
  refine ⟨id, List.mem_cons_self, u, path'.head super, ?_⟩
  by_cases other : u = id
  · subst other
    have cyclic : r.Blocks u (.cyclicInheritance t.name) := .cycle found (.head' super path')
    have found₀ := get?_setLifecycle_self .freezing found
    cases blocks with
    | absent h => cases found₀.symm.trans h
    | missing found' building' =>
      cases found₀.symm.trans found'
      cases building'
    | underWay found' | cycle found' =>
      cases found₀.symm.trans found'
      exact cyclic
  · refine blocks.mono (fun v => (get?_setLifecycle_eq_none _).1) pulls fun n found' _ => ?_
    rwa [get?_setLifecycle_of_ne _ other] at found'

/-! ### What a freeze has met -/

/-- The super types that the type at `u` declares, if it is being built, exist. -/
def DeclaresKnown (r : Repository) (u : TypeId) : Prop :=
  ∀ t declared, r.get? u = some (.complex t) → t.lifecycle = .building declared →
    ∀ s ∈ declared.superTypes, r.get? s ≠ none

theorem DeclaresKnown.mono (known : ∀ v, r.get? v = none → r'.get? v = none)
    (same : ∀ n, r.get? u = some n → r'.get? u = some n) (h : r'.DeclaresKnown u) :
    r.DeclaresKnown u := by
  intro t declared found building s mem absent
  exact h t declared (same _ found) building s mem (known s absent)

theorem absent_of_missingSuperType? {superTypes : List TypeId} {s : TypeId}
    (missing : r.missingSuperType? superTypes = some s) : s ∈ superTypes ∧ r.get? s = none := by
  rw [missingSuperType?] at missing
  split at missing
  · cases missing
  · have absent := List.find?_some missing
    exact ⟨List.mem_of_find?_eq_some missing, Option.isNone_iff_eq_none.1 absent⟩

/-- Of an only super type the freeze makes sure by freezing it, of several by looking. -/
theorem get?_ne_none_of_missingSuperType? {superTypes : List TypeId} (b : Bool)
    (known : r.missingSuperType? superTypes = none)
    (kept : ∀ s ∈ r.keptSuperTypes b superTypes, r.get? s ≠ none) :
    ∀ s ∈ superTypes, r.get? s ≠ none := by
  intro s mem
  rw [missingSuperType?] at known
  rw [keptSuperTypes] at kept
  split at known
  · next single => exact kept s (by rwa [if_pos single])
  · have present := List.find?_eq_none.1 known s mem
    rwa [Option.isNone_iff_eq_none] at present

theorem get?_ne_none_of_isFrozen (frozen : r.isFrozen u = true) : r.get? u ≠ none := by
  intro absent
  simp [isFrozen, absent] at frozen

namespace Evolves

/-- What is frozen later declares what it declared before. -/
theorem declaresKnown {r₁ : Repository} {order' : List TypeId} (E : r.Evolves order r₁)
    (later : r₁.Evolves order' r') (mem : u ∈ order') (h : r₁.DeclaresKnown u) :
    r.DeclaresKnown u := by
  obtain ⟨t, declared, found, building⟩ := later.fresh u mem
  have before := E.get?_of_not_isFrozen found (ComplexType.isFrozen_of_building building)
  refine h.mono (fun v => E.get?_none.2) fun n found' => ?_
  rw [found, ← found', before]

theorem declaresKnown_of_begin (E : (r.setLifecycle id .freezing).Evolves order r')
    (found : r.get? id = some (.complex t)) (mem : u ∈ order)
    (h : (r.setLifecycle id .freezing).DeclaresKnown u) : r.DeclaresKnown u := by
  refine h.mono (fun v => (get?_setLifecycle_eq_none _).2) fun n found' => ?_
  rwa [get?_setLifecycle_of_ne _ (E.fresh_of_begin found mem).1]

/-- A type that keeps super types was being built, so if it is frozen it is of the order. -/
theorem mem_of_extends (E : r.Evolves order r') (frozen : r'.isFrozen u = true)
    (super : r.Extends u v) : u ∈ order := by
  obtain ⟨t, declared, found, building, -⟩ := super.exists_building
  exact E.mem_of_building found building frozen

/-- If a type is frozen, so is what it keeps. -/
theorem isFrozen_of_mem_keptAbove (E : r.Evolves order r') (frozen : r'.isFrozen id = true)
    (above : u ∈ r.keptAbove id) : r'.isFrozen u = true := by
  induction above with
  | refl => exact frozen
  | tail _ super ih => exact E.keptBy_of_mem (E.mem_of_extends ih super) _ super

/-- Along super types that are kept one goes back in the order. -/
theorem idxOf_lt_of_transGen (E : r.Evolves order r') (frozen : r'.isFrozen u = true)
    (path : Relation.TransGen r.Extends u v) (mem : v ∈ order) :
    order.idxOf v < order.idxOf u := by
  induction path with
  | single super => exact E.idxOf_lt (E.mem_of_extends frozen super) mem super
  | tail path super ih =>
    have here := E.isFrozen_of_mem_keptAbove frozen path.to_reflTransGen
    have between := E.mem_of_extends here super
    exact Nat.lt_trans (E.idxOf_lt between mem super) (ih between)

theorem not_transGen_self (E : r.Evolves order r') (frozen : r'.isFrozen u = true) :
    ¬ Relation.TransGen r.Extends u u := by
  intro round
  obtain ⟨v, super, -⟩ := Relation.TransGen.head'_iff.1 round
  exact Nat.lt_irrefl _ (E.idxOf_lt_of_transGen frozen round (E.mem_of_extends frozen super))

end Evolves

end Repository

open Repository

namespace FreezeRun

variable {ids order : List TypeId} {r r' : Repository} {e : ModelError}

/-- A run fails because of a type that it has reached. -/
theorem blocked (run : FreezeRun ids r order (.error e) r') : r.Blocked ids e := by
  generalize failed : (.error e : Except ModelError Unit) = out at run
  -- a failure after some types were frozen is traced back to the repository before that
  induction run with
  | nil => cases failed
  | unknown absent =>
    cases failed
    exact ⟨_, List.mem_cons_self, _, .refl, .absent absent⟩
  | frozen _ _ ih => exact (ih failed).mono fun _ => List.mem_cons_of_mem _
  | simpleError found fresh _ ih =>
    cases failed
    refine ((Evolves.markFrozen found).blocked (ih rfl)).of_pulls fun s mem => ?_
    simpa [Pulls, pulls, found, fresh] using mem
  | simple found _ supers _ _ ih =>
    have E := (Evolves.markFrozen found).trans supers.evolves.1
    exact (E.blocked (ih failed)).mono fun _ => List.mem_cons_of_mem _
  | cyclic found underWay =>
    cases failed
    exact ⟨_, List.mem_cons_self, _, .refl, .underWay found underWay⟩
  | missing found building absent =>
    cases failed
    obtain ⟨mem, unknown⟩ := absent_of_missingSuperType? absent
    exact ⟨_, List.mem_cons_self, _, .refl, .missing found building mem unknown⟩
  | complexError found building _ _ ih =>
    cases failed
    exact blocked_begin found building (ih rfl)
  | complex found building _ supers _ _ ih =>
    obtain ⟨E, done⟩ := supers.evolves
    have E' := E.complete found building (done rfl)
    exact (E'.blocked (ih failed)).mono fun _ => List.mem_cons_of_mem _

/-- What a run freezes declared only super types that exist. -/
theorem declaresKnown {out : Except ModelError Unit} (run : FreezeRun ids r order out r') :
    ∀ u ∈ order, r.DeclaresKnown u := by
  induction run with
  | nil | unknown | cyclic | missing => exact fun _ mem => nomatch mem
  | frozen _ _ ih => exact ih
  | simpleError found _ supers ih =>
    intro u mem
    exact (Evolves.markFrozen found).declaresKnown supers.evolves.1 mem (ih u mem)
  | simple found _ supers tail ih ih' =>
    have E := Evolves.markFrozen found
    intro u mem
    rcases List.mem_append.1 mem with mem | mem
    · exact E.declaresKnown supers.evolves.1 mem (ih u mem)
    · exact (E.trans supers.evolves.1).declaresKnown tail.evolves.1 mem (ih' u mem)
  | complexError found _ _ supers ih =>
    intro u mem
    exact supers.evolves.1.declaresKnown_of_begin found mem (ih u mem)
  | @complex id _ r t declared _ r₁ _ _ _ found building known supers tail ih ih' =>
    obtain ⟨E, done⟩ := supers.evolves
    have E' := E.complete found building (done rfl)
    intro u mem
    rcases List.mem_append.1 mem with mem | mem
    · exact E.declaresKnown_of_begin found mem (ih u mem)
    rcases List.mem_cons.1 mem with rfl | mem
    · intro t' declared' found' building'
      cases found.symm.trans found'
      cases building.symm.trans building'
      -- what it keeps is frozen, so it exists
      refine get?_ne_none_of_missingSuperType? t.instantiable known fun s kept absent => ?_
      refine get?_ne_none_of_isFrozen (done rfl s kept) (E.get?_none.2 ?_)
      exact (get?_setLifecycle_eq_none _).2 absent
    · exact E'.declaresKnown tail.evolves.1 mem (ih' u mem)

/-- Nothing stood in the way of a freeze that succeeds. -/
theorem isFreezable {id : TypeId} (run : FreezeRun [id] r order (.ok ()) r') (idle : r.IsIdle) :
    r.IsFreezable id := by
  obtain ⟨E, done⟩ := run.evolves
  have frozen := done rfl id List.mem_cons_self
  constructor
  · intro u above t found fresh s super
    have frozen' := E.isFrozen_of_mem_keptAbove frozen above
    cases lifecycle : t.lifecycle with
    | building declared =>
      have found := complex?_eq_some.1 found
      have mem := E.mem_of_building found lifecycle frozen'
      rw [ComplexType.shape, lifecycle] at super
      rw [Option.isSome_iff_ne_none]
      exact run.declaresKnown u mem t declared found lifecycle s super
    | freezing => exact absurd lifecycle (idle u t found)
    | frozen => simp [ComplexType.isFrozen, lifecycle, Lifecycle.isFrozen] at fresh
  · intro u above
    exact E.not_transGen_self (E.isFrozen_of_mem_keptAbove frozen above)

end FreezeRun

/-- To freeze what is frozen changes nothing. -/
theorem Edit.freeze_of_isFrozen {m : Model} {id : TypeId}
    (frozen : m.repository.isFrozen id = true) : Edit.freeze id m = .ok () m := by
  rw [isFrozen] at frozen
  obtain ⟨n, found, done⟩ := (Option.any_eq_true _ _).1 frozen
  rw [freeze, bind_eq_of_ok (e := get) rfl, freezeWithin,
    bind_eq_of_ok (ask_eq_ok (get_eq_ok found))]
  cases n with
  | simple t =>
    have marked : t.isFrozen = true := done
    simp only [marked, if_true]
    rfl
  | complex t =>
    have final : t.isFrozen = true := done
    simp only [final, if_true]
    rfl

namespace Repository

variable {r : Repository} {id u : TypeId} {t : ComplexType} {e : ModelError}

/-- The reasons for which the freeze of `id` is refused, each with its error. -/
inductive Refuses (r : Repository) (id : TypeId) : ModelError → Prop
  /-- A super type that is declared does not exist. -/
  | unknown {u s : TypeId} {t : ComplexType} (above : u ∈ r.keptAbove id)
      (found : r.complex? u = some t) (fresh : t.isFrozen = false) (mem : s ∈ t.shape.superTypes)
      (absent : r.get? s = none) : Refuses r id (.unknownType s)
  /-- A type is above itself. -/
  | cyclic {u : TypeId} {t : ComplexType} (above : u ∈ r.keptAbove id)
      (found : r.complex? u = some t) (round : Relation.TransGen r.Extends u u) :
      Refuses r id (.cyclicInheritance t.name)

theorem Refuses.not_isFreezable (h : r.Refuses id e) : ¬ r.IsFreezable id := by
  intro freezable
  cases h with
  | unknown above found fresh mem absent =>
    have known := freezable.known _ above _ found fresh _ mem
    rw [absent] at known
    cases known
  | cyclic above _ round => exact freezable.acyclic _ above round

section SimpleFrozen

variable (simple : ∀ s t, r.get? s = some (.simple t) → t.isFrozen = true)

include simple

/-- Where all simple types are frozen, types pull only the super types that they keep. -/
theorem pulls_eq_extends : r.Pulls = r.Extends := by
  funext u v
  rw [Pulls, Extends, pulls]
  cases found : r.get? u with
  | none => rfl
  | some n =>
    cases n with
    | simple t => simp [simple u t found, keptBy, found]
    | complex t => rfl

/-- What stands in the way, if the freeze of no type is under way. -/
theorem Blocked.refuses (idle : r.IsIdle) (found : r.complex? id = some t)
    (h : r.Blocked [id] e) : r.Refuses id e := by
  obtain ⟨_, mem, u, path, blocks⟩ := h
  obtain rfl := List.mem_singleton.1 mem
  rw [pulls_eq_extends simple] at path
  cases blocks with
  | absent absent =>
    -- something extends the type that does not exist, for what is asked for does
    rcases path.cases_tail with rfl | ⟨w, above, super⟩
    · rw [complex?_eq_some, absent] at found
      cases found
    · obtain ⟨t', declared, found', building, mem'⟩ := super.exists_building
      refine .unknown above (complex?_eq_some.2 found') (ComplexType.isFrozen_of_building building)
        ?_ absent
      rwa [ComplexType.shape, building]
  | missing found' building mem' absent =>
    refine .unknown path (complex?_eq_some.2 found') (ComplexType.isFrozen_of_building building)
      ?_ absent
    rwa [ComplexType.shape, building]
  | underWay found' underWay => exact absurd underWay (idle u _ (complex?_eq_some.2 found'))
  | cycle found' round =>
    rw [pulls_eq_extends simple] at round
    exact .cyclic path (complex?_eq_some.2 found') round

/-- The freeze of a type ends, however deep its super types are.  It succeeds if and only if
nothing stands in its way, and fails with what does.  If it succeeds the type and all that it
keeps are frozen, and to freeze it again changes nothing. -/
theorem Reachable.freeze_ok_iff (h : r.Reachable) (found : r.complex? id = some t)
    (events : List Event) : (Edit.freeze id).Yields ⟨r, events⟩ fun out m' =>
      (∃ order, FreezeRun [id] r order out m'.repository) ∧
      (out = .ok () ↔ r.IsFreezable id) ∧
      (∀ e, out = .error e → r.Refuses id e) ∧
      (out = .ok () → (∀ u ∈ r.keptAbove id, m'.repository.isFrozen u = true) ∧
        Edit.freeze id m' = .ok () m') := by
  have idle := h.isIdle
  refine (Edit.freeze_run id ⟨r, events⟩).mono fun out m' => ?_
  rintro ⟨order, run⟩
  refine ⟨⟨order, run⟩, ?_⟩
  cases out with
  | error e =>
    have refused := run.blocked.refuses simple idle found
    refine ⟨⟨nofun, fun freezable => absurd freezable refused.not_isFreezable⟩, ?_, nofun⟩
    rintro _ ⟨⟩
    exact refused
  | ok _ =>
    obtain ⟨E, done⟩ := run.evolves
    have frozen := done rfl id List.mem_cons_self
    refine ⟨⟨fun _ => run.isFreezable idle, fun _ => rfl⟩, nofun, fun _ => ⟨?_, ?_⟩⟩
    · intro u above
      exact E.isFrozen_of_mem_keptAbove frozen above
    · exact Edit.freeze_of_isFrozen frozen

end SimpleFrozen

/-- A disc is a figure, and has a tag that is not instantiable and extends itself. -/
def taggedDisc : Repository :=
  [.addComplexType ⟨"", "Figure"⟩ true {},
    .addComplexType ⟨"", "Tag"⟩ false {},
    .addComplexType ⟨"", "Disc"⟩ true {},
    .addSuperType ⟨34⟩ ⟨34⟩, .addSuperType ⟨35⟩ ⟨33⟩,
    .addSuperType ⟨35⟩ ⟨34⟩].foldl perform (Session.start {}).repository

/-- The disc does not keep the tag, so it can be frozen, and the tag cannot. -/
theorem freeze_ok_iff_taggedDisc : taggedDisc.Reachable ∧
    (∀ s t, taggedDisc.get? s = some (.simple t) → t.isFrozen = true) ∧
    (∃ t, taggedDisc.complex? ⟨35⟩ = some t) ∧ taggedDisc.IsFreezable ⟨35⟩ ∧
    (∃ t, taggedDisc.complex? ⟨34⟩ = some t) ∧
    taggedDisc.Refuses ⟨34⟩ (.cyclicInheritance "Tag") := by
  have reachable : taggedDisc.Reachable := Reachable.foldl_perform (.start {}) (by simp)
  have types : (taggedDisc.types.all (fun n => n.complex?.isSome || n.isFrozen) &&
      (taggedDisc.complex? ⟨35⟩).isSome && (taggedDisc.complex? ⟨34⟩).isSome) = true := by
    rw [taggedDisc, Session.repository_start]
    cbv
  have succeeds : (Edit.freeze ⟨35⟩).succeeds ⟨taggedDisc, []⟩ = true := by
    rw [taggedDisc, Session.repository_start]
    cbv
  have fails : ((Edit.freeze ⟨34⟩).failure? ⟨taggedDisc, []⟩).any (fun failure =>
      failure.1 = .cyclicInheritance "Tag") = true := by
    rw [taggedDisc, Session.repository_start]
    cbv
  rw [Bool.and_eq_true, Bool.and_eq_true, Array.all_eq_true', Option.isSome_iff_exists,
    Option.isSome_iff_exists] at types
  obtain ⟨⟨marked, disc, found⟩, tag, found'⟩ := types
  have simple : ∀ s t, taggedDisc.get? s = some (.simple t) → t.isFrozen = true := by
    intro s t found
    exact marked _ (Array.mem_of_getElem? found)
  obtain ⟨⟨⟩, m', run⟩ := Edit.exists_of_succeeds succeeds
  obtain ⟨⟨e, m''⟩, run', cyclic⟩ := (Option.any_eq_true _ _).1 fails
  obtain rfl : e = .cyclicInheritance "Tag" := of_decide_eq_true cyclic
  -- from here on it does not matter what the repository is
  generalize taggedDisc = r at *
  have ends := Reachable.freeze_ok_iff simple reachable found []
  have ends := ends.of_ok run
  have ends' := Reachable.freeze_ok_iff simple reachable found' []
  have ends' := ends'.of_error (Edit.failure?_eq_some.1 run')
  exact ⟨reachable, simple, ⟨disc, found⟩, ends.2.1.1 rfl, ⟨tag, found'⟩, ends'.2.2.1 _ rfl⟩

end Repository

end EntityModel
