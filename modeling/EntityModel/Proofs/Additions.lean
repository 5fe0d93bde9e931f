/-
Repositories that gain types.

* `Repository.ListsMore` — every type is there, and lists what it listed and perhaps more;
* `Repository.Gains` — types are added, and nothing else happens but that a type lists new types
  that extend it;
* `Gains.attach`, `Gains.tell` — so it is when a new type is attached, and when one is told of
  another.
-/
import EntityModel.Proofs.CopySteps
import EntityModel.Proofs.SubtypeTrees

namespace EntityModel

/-! ### Types that list more -/

/-- The type with more subtypes, if it is complex. -/
def TypeNode.listing (n : TypeNode) (added : List TypeId) : TypeNode :=
  n.mapComplex fun t => { t with subTypes := t.subTypes ++ added }

namespace TypeNode

theorem listing_nil (n : TypeNode) : n.listing [] = n := by
  cases n with
  | simple t => rfl
  | complex t => simp [listing]

theorem listing_listing (n : TypeNode) (l l' : List TypeId) :
    (n.listing l).listing l' = n.listing (l ++ l') := by
  cases n with
  | simple t => rfl
  | complex t => simp [listing, List.append_assoc]

/-- A type that may be told of a subtype lists at most that in addition. -/
theorem exists_eq_listing (p : Prop) [Decidable p] (n : TypeNode) (c : TypeId) : ∃ added,
    (n.mapComplex fun t => if p then t.registerSubType c else t) = n.listing added ∧
      ∀ y ∈ added, y = c ∧ p := by
  cases n with
  | simple t => exact ⟨[], rfl, nofun⟩
  | complex t =>
    by_cases told : p ∧ c ∉ t.subTypes
    · refine ⟨[c], ?_, fun y mem => ⟨List.mem_singleton.1 mem, told.1⟩⟩
      simp [listing, ComplexType.registerSubType, appendNew, told.1, told.2]
    · refine ⟨[], ?_, nofun⟩
      by_cases holds : p
      · have known : c ∈ t.subTypes := not_not.1 fun out => told ⟨holds, out⟩
        simp [listing, ComplexType.registerSubType, appendNew, holds, known]
      · simp [listing, holds]

end TypeNode

namespace Repository

variable {r r' r₀ : Repository} {u c p x id : TypeId} {n : TypeNode} {t : ComplexType}

/-- The type `u` is complex and has `v` among its super types. -/
def HasSuper (r : Repository) (u v : TypeId) : Prop :=
  ∃ t, r.complex? u = some t ∧ v ∈ t.shape.superTypes

theorem hasSuper_iff_mem : r.HasSuper u c ↔ c ∈ r.complexSuperTypesOf u := by
  rw [HasSuper, complexSuperTypesOf]
  cases r.complex? u with
  | none => simp
  | some t => simp

/-- Every type of `r` is there in `r'`, where it may list more. -/
def ListsMore (r r' : Repository) : Prop :=
  ∀ u n, r.get? u = some n → ∃ added, r'.get? u = some (n.listing added)

theorem listsMore_refl (r : Repository) : r.ListsMore r := fun u n found =>
  ⟨[], by rw [found, n.listing_nil]⟩

theorem listsMore_push (r : Repository) (n : TypeNode) : r.ListsMore (r.push n) := fun _ m found =>
  ⟨[], by rw [get?_push_of_some found, m.listing_nil]⟩

theorem get?_adjust_of_some (found : r.get? u = some n) (p c : TypeId) : ∃ added,
    (r.adjust p (·.registerSubType c)).get? u = some (n.listing added) ∧
      ∀ y ∈ added, y = c ∧ u = p := by
  obtain ⟨added, same, only⟩ := n.exists_eq_listing (u = p) c
  exact ⟨added, by rw [get?_adjust, found, Option.map_some, same], only⟩

theorem get?_attach_of_some (found : r.get? u = some n) (t : ComplexType)
    (superTypes : List TypeId) : ∃ added,
    (r.attach t superTypes).get? u = some (n.listing added) ∧
      ∀ y ∈ added, y = r.nextId ∧ u ∈ superTypes := by
  have old : u ≠ r.nextId := by
    rintro rfl
    cases get?_nextId.symm.trans found
  obtain ⟨added, same, only⟩ := n.exists_eq_listing (u ∈ superTypes) r.nextId
  exact ⟨added, by rw [get?_attach, if_neg old, found, Option.map_some, same], only⟩

theorem exists_complex?_attach_nextId (r : Repository) (t : ComplexType)
    (superTypes : List TypeId) :
    ∃ l, (r.attach t superTypes).complex? r.nextId = some { t with subTypes := l } := by
  rw [complex?_attach_nextId]
  split
  · exact ⟨_, rfl⟩
  · exact ⟨t.subTypes, rfl⟩

theorem listsMore_adjust (r : Repository) (p c : TypeId) :
    r.ListsMore (r.adjust p (·.registerSubType c)) := fun _ _ found =>
  (get?_adjust_of_some found p c).imp fun _ => And.left

theorem listsMore_attach (r : Repository) (t : ComplexType) (superTypes : List TypeId) :
    r.ListsMore (r.attach t superTypes) := fun _ _ found =>
  (get?_attach_of_some found t superTypes).imp fun _ => And.left

namespace ListsMore

variable (h : r.ListsMore r')

include h

theorem trans {r'' : Repository} (next : r'.ListsMore r'') : r.ListsMore r'' := by
  intro u n found
  obtain ⟨added, here⟩ := h u n found
  obtain ⟨more, there⟩ := next u _ here
  exact ⟨added ++ more, by rw [there, TypeNode.listing_listing]⟩

theorem complex? (found : r.complex? u = some t) :
    ∃ added, r'.complex? u = some { t with subTypes := t.subTypes ++ added } := by
  obtain ⟨added, there⟩ := h u _ (complex?_eq_some.1 found)
  exact ⟨added, complex?_eq_some.2 there⟩

theorem hasSuper (super : r.HasSuper u c) : r'.HasSuper u c := by
  obtain ⟨t, found, super⟩ := super
  obtain ⟨added, found'⟩ := h.complex? found
  exact ⟨_, found', super⟩

theorem mem_declaredSubTypesOf (listed : c ∈ r.declaredSubTypesOf u) :
    c ∈ r'.declaredSubTypesOf u := by
  obtain ⟨t, found, listed⟩ := exists_of_mem_declaredSubTypesOf listed
  obtain ⟨added, found'⟩ := h.complex? found
  exact (Repository.mem_declaredSubTypesOf found').2 (List.mem_append_left _ listed)

/-- What is complex and was there was complex before. -/
theorem complex?_of_mem_ids {t' : ComplexType} (found' : r'.complex? u = some t')
    (mem : u ∈ r.ids) : ∃ t added, r.complex? u = some t ∧
      t' = { t with subTypes := t.subTypes ++ added } := by
  obtain ⟨n, found⟩ := Option.isSome_iff_exists.1 (mem_ids_iff_get?.1 mem)
  obtain ⟨added, there⟩ := h u n found
  have same := Option.some.inj (there.symm.trans (complex?_eq_some.1 found'))
  cases n with
  | simple => cases same
  | complex t => exact ⟨t, added, complex?_eq_some.2 found, (TypeNode.complex.inj same).symm⟩

/-- A type that was there extends what it extended. -/
theorem hasSuper_iff (old : u ∈ r.ids) : r'.HasSuper u c ↔ c ∈ r.complexSuperTypesOf u := by
  rw [← hasSuper_iff_mem]
  refine ⟨?_, h.hasSuper⟩
  rintro ⟨t', found', super⟩
  obtain ⟨t, added, found, rfl⟩ := h.complex?_of_mem_ids found' old
  exact ⟨t, found, super⟩

theorem mem_ids (mem : u ∈ r.ids) : u ∈ r'.ids := by
  obtain ⟨n, found⟩ := Option.isSome_iff_exists.1 (mem_ids_iff_get?.1 mem)
  obtain ⟨added, found'⟩ := h u n found
  exact mem_ids_of_get? found'

end ListsMore

/-! ### Repositories that gain types -/

/-- A type that is new to `r`: it can be changed, is embedded nowhere, and lists only new types. -/
structure IsNew (r : Repository) (t : ComplexType) : Prop where
  unfrozen : t.isFrozen = false
  container : t.container = none
  subTypes : ∀ c ∈ t.subTypes, c ∉ r.ids

/-- Types are added, and nothing else happens: a type that was there lists what it listed, and
then new types that extend it. -/
structure Gains (r r' : Repository) : Prop where
  names : r'.names = r.names
  builtinNamespace : r'.builtinNamespace = r.builtinNamespace
  old : ∀ u n, r.get? u = some n → ∃ added, r'.get? u = some (n.listing added) ∧
    ∀ c ∈ added, c ∉ r.ids ∧ r'.HasSuper c u
  new : ∀ u ∈ r'.ids, u ∉ r.ids → ∃ t, r'.complex? u = some t ∧ r.IsNew t

theorem IsNew.registerSubType (h : r.IsNew t) (new : c ∉ r.ids) (p : Prop) [Decidable p] :
    r.IsNew (if p then t.registerSubType c else t) where
  unfrozen := by
    split
    · exact h.unfrozen
    · exact h.unfrozen
  container := by
    split
    · exact h.container
    · exact h.container
  subTypes y listed := by
    rcases ComplexType.mem_subTypes_ite.1 listed with old | ⟨-, rfl⟩
    · exact h.subTypes y old
    · exact new

theorem names_attach (r : Repository) (t : ComplexType) (superTypes : List TypeId) :
    (r.attach t superTypes).names = r.names ∧
      (r.attach t superTypes).builtinNamespace = r.builtinNamespace := by
  have told : ∀ (l : List TypeId) (s : Repository),
      (l.foldl (fun s v => s.adjust v (·.registerSubType r.nextId)) s).names = s.names ∧
        (l.foldl (fun s v => s.adjust v (·.registerSubType r.nextId)) s).builtinNamespace =
          s.builtinNamespace := by
    intro l
    induction l with
    | nil => exact fun s => ⟨rfl, rfl⟩
    | cons v rest ih =>
      intro s
      have first := ih (s.adjust v (·.registerSubType r.nextId))
      rwa [names_adjust, builtinNamespace_adjust] at first
  exact told superTypes _

namespace Gains

theorem refl (r : Repository) : r.Gains r where
  names := rfl
  builtinNamespace := rfl
  old u n found := ⟨[], by rw [found, n.listing_nil], nofun⟩
  new _ mem fresh := absurd mem fresh

variable (G : r₀.Gains r)

include G

theorem listsMore : r₀.ListsMore r := fun u n found => (G.old u n found).imp fun _ => And.left

theorem nextId_not_mem : r.nextId ∉ r₀.ids := by
  intro mem
  have known := G.listsMore.mem_ids mem
  rw [mem_ids_iff_get?, get?_nextId] at known
  cases known

/-- A new type is added, and what it extends is told. -/
theorem attach (new : r₀.IsNew t) {superTypes : List TypeId}
    (extended : ∀ v ∈ superTypes, v ∈ t.shape.superTypes) :
    r₀.Gains (r.attach t superTypes) where
  names := (names_attach r t superTypes).1.trans G.names
  builtinNamespace := (names_attach r t superTypes).2.trans G.builtinNamespace
  old u n found := by
    obtain ⟨added, here, news⟩ := G.old u n found
    obtain ⟨more, there, self⟩ := get?_attach_of_some here t superTypes
    refine ⟨added ++ more, by rw [there, TypeNode.listing_listing], fun c mem => ?_⟩
    rcases List.mem_append.1 mem with mem | mem
    · exact ⟨(news c mem).1, (r.listsMore_attach t superTypes).hasSuper (news c mem).2⟩
    · obtain ⟨rfl, super⟩ := self c mem
      refine ⟨G.nextId_not_mem, _, complex?_attach_nextId r t superTypes, ?_⟩
      rw [ComplexType.shape_ite]
      exact extended u super
  new u mem fresh := by
    by_cases here : u = r.nextId
    · subst here
      exact ⟨_, complex?_attach_nextId r t superTypes,
        new.registerSubType G.nextId_not_mem _⟩
    · have known : u ∈ r.ids := by
        rw [mem_ids, size_attach] at mem
        rw [mem_ids]
        have other : u.index ≠ r.types.size := fun same => here (congrArg TypeId.mk same)
        omega
      obtain ⟨t', found, new'⟩ := G.new u known fresh
      exact ⟨_, complex?_attach_of_ne here found t superTypes,
        new'.registerSubType G.nextId_not_mem _⟩

/-- A new type is told of a new type. -/
theorem tell (newParent : p ∉ r₀.ids) (new : c ∉ r₀.ids) :
    r₀.Gains (r.adjust p (·.registerSubType c)) where
  names := (names_adjust _).trans G.names
  builtinNamespace := (builtinNamespace_adjust _).trans G.builtinNamespace
  old u n found := by
    obtain ⟨added, here, news⟩ := G.old u n found
    obtain ⟨more, there, self⟩ := get?_adjust_of_some here p c
    refine ⟨added ++ more, by rw [there, TypeNode.listing_listing], fun y mem => ?_⟩
    rcases List.mem_append.1 mem with mem | mem
    · exact ⟨(news y mem).1, (r.listsMore_adjust p c).hasSuper (news y mem).2⟩
    · rw [(self y mem).2] at found
      exact absurd (mem_ids_of_get? found) newParent
  new u mem fresh := by
    rw [ids_congr (size_adjust _)] at mem
    obtain ⟨t, found, newType⟩ := G.new u mem fresh
    refine ⟨_, ?_, newType.registerSubType new (u = p)⟩
    rw [complex?_eq_map (get?_adjust _), found]
    rfl

end Gains

end Repository

end EntityModel
