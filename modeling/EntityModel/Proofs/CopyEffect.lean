/-
What a copy does to a repository.

However it ends, a copy only adds types: what was there is what it was, but for new types at the
end of what it lists (`Repository.Gains`).  If it ends well, the new types are the copies of as
many others (`Repository.IsCopiedBy`), among them all that lies below the type.

* `CopyState` — what is true while a tree is copied; `CopyState.keeps` are its steps;
* `CopyRun.sources_eq` — the types that were there are copied in the order of the tree;
* `CopyRun.sources_subset_of_pairwise`, `CopyRun.pairwise_of_sources_subset` — nothing else is
  copied if and only if none of them comes before one of its super types;
* `Edit.copy_adds` — so much for every copy; `Edit.not_copy_once` — where a type comes before one
  of its super types, a copy is copied again.
-/
import EntityModel.Proofs.CopyRun
import EntityModel.Proofs.DeepCopy

namespace EntityModel

section Suffixes

variable {α : Type} {l : List α} {a : α}

theorem exists_suffix_of_mem (mem : a ∈ l) : ∃ before, a :: before <:+ l := by
  obtain ⟨after, before, rfl⟩ := List.append_of_mem mem
  exact ⟨before, after, rfl⟩

theorem exists_of_mem_map_fst {β : Type} {l : List (α × β)} (mem : a ∈ l.map Prod.fst) :
    ∃ b, (a, b) ∈ l := by
  obtain ⟨⟨_, b⟩, there, rfl⟩ := List.mem_map.1 mem
  exact ⟨b, there⟩

theorem pairwise_iff_forall_suffix {R : α → α → Prop} :
    l.Pairwise R ↔ ∀ a before, a :: before <:+ l → ∀ b ∈ before, R a b := by
  induction l with
  | nil =>
    refine ⟨fun _ a before last => ?_, fun _ => .nil⟩
    cases List.suffix_nil.1 last
  | cons x rest ih =>
    rw [List.pairwise_cons, ih]
    constructor
    · rintro ⟨here, later⟩ a before last
      rcases List.suffix_cons_iff.1 last with self | last
      · cases self
        exact here
      · exact later a before last
    · exact fun all => ⟨all x rest List.suffix_rfl, fun a before last =>
        all a before (last.trans (List.suffix_cons x rest))⟩

end Suffixes

/-! ### While a tree is copied -/

open Repository

namespace Repository

variable {r : Repository} {x : TypeId} {t : ComplexType}

/-- Those of `l` that are complex types. -/
def complexAmong (r : Repository) (l : List TypeId) : List TypeId :=
  l.filter fun x => (r.complex? x).isSome

theorem complexAmong_cons_of_isSome (here : (r.complex? x).isSome) (l : List TypeId) :
    r.complexAmong (x :: l) = x :: r.complexAmong l :=
  List.filter_cons_of_pos (p := fun x => (r.complex? x).isSome) here

theorem complexAmong_cons_of_not_isSome (absent : ¬ (r.complex? x).isSome) (l : List TypeId) :
    r.complexAmong (x :: l) = r.complexAmong l :=
  List.filter_cons_of_neg (p := fun x => (r.complex? x).isSome) absent

theorem complexAmong_eq_nil {l : List TypeId} (absent : ∀ x ∈ l, x ∉ r.ids) :
    r.complexAmong l = [] :=
  List.filter_eq_nil_iff.2 fun x mem here => absent x mem (mem_ids_of_isSome here)

theorem complexSubTypesOf_eq (found : r.complex? x = some t) :
    r.complexSubTypesOf x = r.complexAmong t.subTypes := by
  rw [complexSubTypesOf, found]
  rfl

end Repository

/-- The type at `c` is the copy of that at `x`, and what it extends of the types of `r₀` lists it;
`copies` say what it extends. -/
def IsCopyAt (r₀ r : Repository) (copies : List (TypeId × TypeId)) (x c : TypeId) : Prop :=
  ∃ t l, r.complex? x = some t ∧
    r.complex? c = some { t.deepCopy c (t.shape.superTypes.map (Edit.copyOr copies)) with
      subTypes := l } ∧
    ∀ v ∈ t.shape.superTypes.map (Edit.copyOr copies), (r₀.complex? v).isSome →
      c ∈ r.declaredSubTypesOf v

/-- What is true while a tree of `r₀` is copied. -/
structure CopyState (r₀ r : Repository) (copies : List (TypeId × TypeId)) : Prop where
  gains : r₀.Gains r
  size : r.types.size = r₀.types.size + copies.length
  sources : (copies.map Prod.fst).Nodup
  copied : (copies.map Prod.snd).reverse =
    (List.range copies.length).map fun i => ⟨r₀.types.size + i⟩
  alike : ∀ x c before, (x, c) :: before <:+ copies → IsCopyAt r₀ r ((x, c) :: before) x c

section State

variable {r r' r₀ : Repository} {copies before : List (TypeId × TypeId)} {x c p u v : TypeId}
variable {t : ComplexType}

theorem IsCopyAt.mono (h : IsCopyAt r₀ r copies x c) (more : r.ListsMore r') :
    IsCopyAt r₀ r' copies x c := by
  obtain ⟨t, l, source, copy, listed⟩ := h
  obtain ⟨added, source'⟩ := more.complex? source
  obtain ⟨added', copy'⟩ := more.complex? copy
  exact ⟨_, _, source', copy', fun v super old => more.mem_declaredSubTypesOf (listed v super old)⟩

/-- What a copy extends of the types of `r₀` is extended by the source. -/
theorem IsCopyAt.hasSuper (h : IsCopyAt r₀ r copies x c) (super : r.HasSuper c v) :
    ∃ s, r.HasSuper x s ∧ Edit.copyOr copies s = v := by
  obtain ⟨t, l, source, copy, -⟩ := h
  obtain ⟨t', copy', super⟩ := super
  obtain rfl := Option.some.inj (copy.symm.trans copy')
  have super : v ∈ (t.deepCopy c (t.shape.superTypes.map (Edit.copyOr copies))).shape.superTypes :=
    super
  rw [ComplexType.superTypes_deepCopy, mem_foldl_appendNew] at super
  obtain ⟨s, mem, same⟩ := List.mem_map.1 (super.resolve_left List.not_mem_nil)
  exact ⟨s, ⟨t, source, mem⟩, same⟩

theorem isNew_deepCopy (r : Repository) (t : ComplexType) (c : TypeId) (superTypes : List TypeId) :
    r.IsNew (t.deepCopy c superTypes) :=
  ⟨rfl, rfl, by rw [ComplexType.subTypes_deepCopy]; exact nofun⟩

namespace CopyState

theorem start (r : Repository) : CopyState r r [] where
  gains := .refl r
  size := rfl
  sources := .nil
  copied := rfl
  alike x c before last := by cases List.suffix_nil.1 last

section Copied

variable (S : CopyState r₀ r copies)

include S

theorem mem_copied : c ∈ copies.map Prod.snd ↔ c ∈ r.ids ∧ c ∉ r₀.ids := by
  rw [← List.mem_reverse, S.copied, List.mem_map, mem_ids, mem_ids, S.size]
  constructor
  · rintro ⟨i, mem, rfl⟩
    have lt := List.mem_range.1 mem
    dsimp only
    omega
  · rintro ⟨lt, ge⟩
    refine ⟨c.index - r₀.types.size, List.mem_range.2 (by omega), ?_⟩
    exact congrArg TypeId.mk (by omega)

theorem nodup_copied : (copies.map Prod.snd).Nodup := by
  rw [← List.nodup_reverse, S.copied]
  refine List.nodup_range.map fun i j same => ?_
  have same := congrArg TypeId.index same
  exact Nat.add_left_cancel same

theorem attach (fresh : copies.lookup x = none) (found : r.complex? x = some t) :
    CopyState r₀ (r.attachCopy x t copies) ((x, r.nextId) :: copies) where
  gains := by
    refine S.gains.attach (isNew_deepCopy r₀ t _ _) fun v mem => ?_
    rw [ComplexType.superTypes_deepCopy, mem_foldl_appendNew]
    exact .inr mem
  size := by rw [attachCopy, size_attach, S.size, List.length_cons, Nat.add_assoc]
  sources := List.nodup_cons.2 ⟨not_mem_of_lookup fresh, S.sources⟩
  copied := by
    rw [List.map_cons, List.reverse_cons, S.copied, List.length_cons, List.range_succ,
      List.map_append, nextId, S.size]
    rfl
  alike z c before last := by
    rcases List.suffix_cons_iff.1 last with self | earlier
    · cases self
      obtain ⟨added, source⟩ := (r.listsMore_attach (t.deepCopy r.nextId (t.shape.superTypes.map
        (Edit.copyOr ((x, r.nextId) :: copies)))) _).complex? found
      obtain ⟨l, copy⟩ := r.exists_complex?_attach_nextId (t.deepCopy r.nextId
        (t.shape.superTypes.map (Edit.copyOr ((x, r.nextId) :: copies)))) _
      refine ⟨_, l, source, copy, fun v super known => ?_⟩
      -- the types that were there are told
      obtain ⟨s, known⟩ := Option.isSome_iff_exists.1 known
      obtain ⟨more, here⟩ := S.gains.listsMore.complex? known
      have other : v ≠ r.nextId := by
        rintro rfl
        rw [complex?, get?_nextId] at here
        cases here
      refine (mem_declaredSubTypesOf (complex?_attach_of_ne other here _ _)).2 ?_
      exact ComplexType.mem_subTypes_ite.2 (.inr ⟨super, rfl⟩)
    · exact (S.alike z c before earlier).mono (r.listsMore_attach _ _)

theorem tell (parent : p ∈ copies.map Prod.snd) (child : c ∈ copies.map Prod.snd) :
    CopyState r₀ (r.adjust p (·.registerSubType c)) copies where
  gains := S.gains.tell (S.mem_copied.1 parent).2 (S.mem_copied.1 child).2
  size := (size_adjust _).trans S.size
  sources := S.sources
  copied := S.copied
  alike x c' before last := (S.alike x c' before last).mono (r.listsMore_adjust p c)

end Copied

/-- A new type that extends one that was there is the copy of another that does. -/
theorem exists_source (S : CopyState r₀ r copies) (new : c ∉ r₀.ids) (super : r.HasSuper c v)
    (old : v ∈ r₀.ids) : ∃ x, (x, c) ∈ copies ∧ r.HasSuper x v := by
  obtain ⟨t, found, -⟩ := id super
  obtain ⟨⟨x, _⟩, mem, rfl⟩ :=
    List.mem_map.1 (S.mem_copied.2 ⟨mem_ids_of_complex? found, new⟩)
  obtain ⟨before, last⟩ := exists_suffix_of_mem mem
  obtain ⟨s, extended, same⟩ := (S.alike x _ before last).hasSuper super
  refine ⟨x, mem, ?_⟩
  -- what it extends is no copy, so it extends what its source does
  cases copy : ((x, _) :: before).lookup s with
  | none =>
    rw [Edit.copyOr, copy] at same
    exact same ▸ extended
  | some c' =>
    rw [Edit.copyOr, copy] at same
    have copied := last.subset (mem_of_lookup copy)
    have copied : c' ∈ copies.map Prod.snd := List.mem_map_of_mem copied
    obtain rfl : c' = v := same
    exact absurd old (S.mem_copied.1 copied).2

/-- Of what a type lists, those that were there are what it listed then. -/
theorem complexAmong_subTypes (S : CopyState r₀ r copies) (found : r.complex? x = some t) :
    r₀.complexAmong t.subTypes = r₀.complexSubTypesOf x := by
  by_cases old : x ∈ r₀.ids
  · obtain ⟨n, before⟩ := Option.isSome_iff_exists.1 (mem_ids_iff_get?.1 old)
    obtain ⟨added, here, news⟩ := S.gains.old x n before
    have same := Option.some.inj (here.symm.trans (complex?_eq_some.1 found))
    cases n with
    | simple => cases same
    | complex t₀ =>
      obtain rfl := TypeNode.complex.inj same
      have dropped := complexAmong_eq_nil fun c mem => (news c mem).1
      rw [complexSubTypesOf_eq (complex?_eq_some.2 before)]
      exact (List.filter_append ..).trans ((congrArg _ dropped).trans (List.append_nil _))
  · obtain ⟨t', found', new⟩ := S.gains.new x (mem_ids_of_complex? found) old
    obtain rfl := Option.some.inj (found.symm.trans found')
    have absent : r₀.complex? x = none := Option.not_isSome_iff_eq_none.1 fun here =>
      old (mem_ids_of_isSome here)
    rw [complexAmong_eq_nil new.subTypes, complexSubTypesOf, absent]

theorem keeps (r₀ : Repository) : CopyRun.Keeps (CopyState r₀) where
  attach S := S.attach
  tell S last known _ :=
    have parent := List.mem_map_of_mem (f := Prod.snd) (last.subset (mem_of_lookup known))
    have child := List.mem_map_of_mem (f := Prod.snd) (last.subset List.mem_cons_self)
    S.tell parent child

end CopyState

end State

/-! ### The order in which types are copied -/

namespace CopyRun

variable {parent : Option TypeId} {l : List TypeId} {r r' r₀ : Repository} {id x c : TypeId}
variable {copies made before : List (TypeId × TypeId)} {t : ComplexType}

/-- The types of `r₀` of which there are copies, in the order in which they were copied. -/
def sources (r₀ : Repository) (copies : List (TypeId × TypeId)) : List TypeId :=
  (r₀.complexAmong (copies.map Prod.fst)).reverse

theorem mem_sources : x ∈ sources r₀ copies ↔
    x ∈ copies.map Prod.fst ∧ (r₀.complex? x).isSome := by
  rw [sources, List.mem_reverse, complexAmong, List.mem_filter]

theorem sources_cons_of_isSome (old : (r₀.complex? x).isSome) :
    sources r₀ ((x, c) :: copies) = sources r₀ copies ++ [x] := by
  rw [sources, List.map_cons, complexAmong_cons_of_isSome old, List.reverse_cons, sources]

theorem sources_cons_of_not_isSome (new : ¬ (r₀.complex? x).isSome) :
    sources r₀ ((x, c) :: copies) = sources r₀ copies := by
  rw [sources, List.map_cons, complexAmong_cons_of_not_isSome new, sources]

/-- Of the types that were there, a run copies what a search lists, in that order. -/
theorem sources_eq (run : CopyRun parent l r copies (.ok made) r')
    (parented : IsParent r copies parent l) (S : CopyState r₀ r copies) :
    sources r₀ made = sources r₀ copies ++ visit r₀.ids r₀.complexSubTypesOf (sources r₀ copies)
      (r₀.complexAmong l) := by
  generalize same : Except.ok made = out at run
  induction run generalizing made with
  | nil =>
    cases same
    rw [complexAmong, List.filter_nil, visit, List.append_nil]
  | @skip parent x l r copies out r' copied _ ih =>
    rw [ih parented.tail S same]
    by_cases old : (r₀.complex? x).isSome
    · obtain ⟨c, copied⟩ := Option.isSome_iff_exists.1 copied
      have marked := mem_sources.2 ⟨List.mem_map_of_mem (mem_of_lookup copied), old⟩
      rw [complexAmong_cons_of_isSome old, visit, if_pos marked]
    · rw [complexAmong_cons_of_not_isSome old]
  | @copied parent x l r copies t copies₁ r₁ out r' fresh found below rest ih ih' =>
    subst same
    have here := isParent_attach found copies
    have S' := S.attach fresh found
    obtain ⟨-, kept⟩ := below.invariant (CopyState.keeps r₀) here S'
    obtain ⟨parented, kept⟩ := (CopyState.keeps r₀).rest parented fresh below kept
    have below := ih here S' rfl
    rw [S.complexAmong_subTypes found] at below
    rw [ih' parented kept rfl]
    by_cases old : (r₀.complex? x).isSome
    · have unmarked : x ∉ sources r₀ copies := fun mem =>
        not_mem_of_lookup fresh (mem_sources.1 mem).1
      have marked : ∀ y, y ∈ x :: sources r₀ copies ↔ y ∈ sources r₀ copies ++ [x] :=
        fun y => by simp [or_comm]
      have first : sources r₀ copies₁ = sources r₀ copies ++
          visit r₀.ids r₀.complexSubTypesOf (sources r₀ copies) [x] := by
        rw [below, sources_cons_of_isSome old, visit, if_neg unmarked,
          if_pos (mem_ids_of_isSome old), List.append_nil, visit_congr_seen marked,
          List.append_assoc, List.singleton_append]
      rw [complexAmong_cons_of_isSome old, first, List.append_assoc, ← visit_append,
        List.singleton_append]
    · have bare : r₀.complexSubTypesOf x = [] := by
        rw [complexSubTypesOf, Option.not_isSome_iff_eq_none.1 old]
      rw [bare, visit, List.append_nil, sources_cons_of_not_isSome old] at below
      rw [complexAmong_cons_of_not_isSome old, below]
  | stopped | refused | failed => cases same

/-! ### The whole copy -/

section Whole

variable (run : CopyRun none [id] r [] (.ok made) r')

include run

theorem copyState : CopyState r r' made :=
  (run.invariant (CopyState.keeps r) (isParent_none _ _ _) (CopyState.start r)).2

/-- Every copy was made at some moment: of the first type, or of what another one listed. -/
theorem exists_copiedAt (last : (x, c) :: before <:+ made) :
    ∃ t, CopiedAt (CopyState r) before x c t ∧ t.subTypes ⊆ made.map Prod.fst ∧
      (x = id ∨ ∃ y d earlier s, (y, d) :: earlier <:+ before ∧
        CopiedAt (CopyState r) earlier y d s ∧ x ∈ s.subTypes) := by
  rcases run.copiedAt (CopyState.keeps r) (isParent_none _ _ _) (CopyState.start r) last with none | moment
  · cases List.suffix_nil.1 none
  · obtain ⟨t, at_, subs, origin⟩ := moment
    exact ⟨t, at_, subs, origin.imp_left List.mem_singleton.1⟩

theorem isSome_root : (r.complex? id).isSome = true := by
  cases run with
  | skip copied => cases copied
  | copied _ found => rw [found]; rfl

theorem sources_eq_tree : sources r made = r.tree id := by
  have root := run.isSome_root
  rw [run.sources_eq (isParent_none _ _ _) (CopyState.start r), complexAmong_cons_of_isSome root]
  exact visit_eq_tree

/-- What was there and is copied is complex, and lies below the first type. -/
theorem mem_below_of_mem (mem : x ∈ made.map Prod.fst) (old : x ∈ r.ids) :
    (r.complex? x).isSome ∧ x ∈ r.below id := by
  obtain ⟨c, pair⟩ := exists_of_mem_map_fst mem
  obtain ⟨before, last⟩ := exists_suffix_of_mem pair
  obtain ⟨t, l, source, -, -⟩ := run.copyState.alike x c before last
  obtain ⟨t₀, added, found, -⟩ := run.copyState.gains.listsMore.complex?_of_mem_ids source old
  have here : (r.complex? x).isSome := by rw [found]; rfl
  refine ⟨here, mem_below_of_mem_tree ?_⟩
  rw [← run.sources_eq_tree]
  exact mem_sources.2 ⟨mem, here⟩

/-- All that lies below the type is copied. -/
theorem mem_of_mem_below (mem : x ∈ r.below id) : x ∈ made.map Prod.fst := by
  induction mem with
  | refl => exact run.subset List.mem_cons_self
  | @tail y x _ edge ih =>
    cases found : r.complex? y with
    | none => simp [declaredSubTypesOf, found] at edge
    | some t₀ =>
      obtain ⟨d, pair⟩ := exists_of_mem_map_fst ih
      obtain ⟨before, last⟩ := exists_suffix_of_mem pair
      obtain ⟨t, ⟨r₁, S, -, here, -⟩, subs, -⟩ := run.exists_copiedAt last
      -- what it listed at first it listed when it was copied
      have listed := S.gains.listsMore.mem_declaredSubTypesOf edge
      exact subs ((mem_declaredSubTypesOf here).1 listed)

/-- The tree is sorted if and only if nothing is copied after a type that extends it. -/
theorem pairwise_tree_iff : ((r.tree id).Pairwise fun x s => s ∉ r.complexSuperTypesOf x) ↔
    ∀ x c y d before, (y, d) :: before <:+ made → (x, c) ∈ before →
      (r.complex? y).isSome → y ∉ r.complexSuperTypesOf x := by
  rw [← run.sources_eq_tree, sources, List.pairwise_reverse, complexAmong, List.pairwise_filter,
    List.pairwise_map, pairwise_iff_forall_suffix]
  constructor
  · intro sorted x c y d before last mem old super
    have source : (r.complex? x).isSome := by
      rw [complexSuperTypesOf] at super
      split at super
      · next found => rw [found]; rfl
      · cases super
    exact sorted (y, d) before last (x, c) mem old source super
  · rintro sorted ⟨y, d⟩ before last ⟨x, c⟩ mem old -
    exact sorted x c y d before last mem old

/-- If only types are copied that were there, none comes before one of its super types: else the
super type would list the copy, which would be copied. -/
theorem pairwise_of_sources_subset (old : made.map Prod.fst ⊆ r.ids) :
    (r.tree id).Pairwise fun x s => s ∉ r.complexSuperTypesOf x := by
  rw [run.pairwise_tree_iff]
  intro x c s e before last mem known super
  obtain ⟨t, ⟨r₁, S, fresh, here, -⟩, subs, -⟩ := run.exists_copiedAt last
  obtain ⟨earlier, there⟩ := exists_suffix_of_mem mem
  obtain ⟨t₁, l, source, copy, told⟩ := S.alike x c earlier there
  have there' := mem_ids_of_mem_complexSuperTypesOf super
  obtain ⟨t₂, source', super⟩ := (S.gains.listsMore.hasSuper_iff there').2 super
  obtain rfl := Option.some.inj (source.symm.trans source')
  -- the super type has no copy yet, so it is told of this one
  have absent : ((x, c) :: earlier).lookup s = none := by
    rw [List.lookup_eq_none_iff] at fresh ⊢
    exact fun p mem => fresh p (there.subset mem)
  have listed := told s (List.mem_map.2 ⟨s, super, by rw [Edit.copyOr, absent]; rfl⟩) known
  have copied := old (subs ((mem_declaredSubTypesOf here).1 listed))
  exact (S.mem_copied.1 (List.mem_map_of_mem mem)).2 copied

/-- If all types below were there, and none comes before one of its super types, only types are
copied that were there. -/
theorem sources_subset_of_pairwise (present : ∀ x ∈ r.below id, x ∈ r.ids)
    (sorted : (r.tree id).Pairwise fun x s => s ∉ r.complexSuperTypesOf x) :
    made.map Prod.fst ⊆ r.ids := by
  rw [run.pairwise_tree_iff] at sorted
  -- by induction on the copies made so far
  suffices all : ∀ copies, copies <:+ made → copies.map Prod.fst ⊆ r.ids from
    all made List.suffix_rfl
  intro copies
  induction copies with
  | nil => exact fun _ => List.nil_subset _
  | cons p before ih =>
    intro last
    obtain ⟨k, e⟩ := p
    have olds := ih ((List.suffix_cons _ _).trans last)
    refine List.cons_subset.2 ⟨?_, olds⟩
    obtain ⟨-, -, -, origin⟩ := run.exists_copiedAt last
    rcases origin with rfl | ⟨y, d, earlier, s, there, ⟨r₁, S, -, here, -⟩, listed⟩
    · exact present _ .refl
    · have within := there.trans ((List.suffix_cons _ _).trans last)
      have known : y ∈ r.ids := olds (List.mem_map_of_mem (there.subset List.mem_cons_self))
      obtain ⟨old, below⟩ := run.mem_below_of_mem
        (List.mem_map_of_mem (within.subset List.mem_cons_self)) known
      obtain ⟨t₀, found⟩ := Option.isSome_iff_exists.1 old
      obtain ⟨added, after, news⟩ := S.gains.old y _ (complex?_eq_some.1 found)
      obtain rfl := Option.some.inj (here.symm.trans (complex?_eq_some.2 after))
      rcases List.mem_append.1 listed with first | new
      · exact present k (.tail below ((mem_declaredSubTypesOf found).2 first))
      · -- it would be the copy of a type that extends `y`, and was copied before
        obtain ⟨fresh, super⟩ := news k new
        obtain ⟨w, mem, super⟩ := S.exists_source fresh super known
        have source := olds (List.mem_map_of_mem (there.subset (List.mem_cons_of_mem _ mem)))
        rw [S.gains.listsMore.hasSuper_iff source] at super
        exact absurd super (sorted w k y d earlier within mem old)

/-- The first type is copied first. -/
theorem root_mem : (id, r.nextId) ∈ made := by
  cases run with
  | skip copied => cases copied
  | copied _ _ below rest =>
    cases rest
    exact below.suffix.subset List.mem_cons_self

end Whole

/-- However a run ends, types were only added. -/
theorem gains {out : Except ModelError (List (TypeId × TypeId))}
    (run : CopyRun none [id] r [] out r') : r.Gains r' := by
  have ends := run.invariant (CopyState.keeps r) (isParent_none _ _ _) (CopyState.start r)
  cases out with
  | ok made => exact ends.2.gains
  | error e =>
    obtain ⟨made, r₁, S, rfl | ⟨x, t, s, -, -, rfl⟩⟩ := ends
    · exact S.gains
    · -- the copy that was refused stays
      have new : r.IsNew (t.shallowCopy.withDeclared s) := ⟨rfl, rfl, nofun⟩
      have added : r.Gains (r₁.attach (t.shallowCopy.withDeclared s) []) :=
        S.gains.attach new nofun
      exact added

end CopyRun

/-! ### What a copy does -/

/-- The type `t` is like `s`, but is embedded nowhere. -/
structure ComplexType.Resembles (t s : ComplexType) : Prop where
  qualifiedName : t.qualifiedName = s.qualifiedName
  labels : t.labels = s.labels
  directives : t.directives = s.directives
  schematron : t.schematron = s.schematron
  instantiable : t.instantiable = s.instantiable
  usages : t.usages = s.usages
  data : t.data = s.data
  container : t.container = none

/-- The types that `r'` has and `r` has not are copies of as many others, their sources, which
`copies` lists; what lies below `id` is among the sources. -/
structure Repository.IsCopiedBy (r : Repository) (id : TypeId) (copies : List (TypeId × TypeId))
    (r' : Repository) : Prop where
  sources : (copies.map Prod.fst).Nodup
  copied : (copies.map Prod.snd).Nodup
  added : ∀ c, c ∈ copies.map Prod.snd ↔ c ∈ r'.ids ∧ c ∉ r.ids
  alike : ∀ x c, (x, c) ∈ copies →
    ∃ s t, r'.complex? x = some s ∧ r'.complex? c = some t ∧ t.Resembles s
  below : ∀ x ∈ r.below id, x ∈ copies.map Prod.fst
  /-- Any other source is a copy itself. -/
  old : ∀ x ∈ copies.map Prod.fst, x ∈ r.ids → x ∈ r.below id
  /-- There is no other source just if no type comes before one of its super types. -/
  once : (∀ x ∈ r.below id, x ∈ r.ids) → ((∀ x ∈ copies.map Prod.fst, x ∈ r.below id) ↔
    (r.tree id).Pairwise fun x s => s ∉ r.complexSuperTypesOf x)

theorem CopyRun.isCopiedBy {r r' : Repository} {id : TypeId} {made : List (TypeId × TypeId)}
    (run : CopyRun none [id] r [] (.ok made) r') : r.IsCopiedBy id made r' where
  sources := run.copyState.sources
  copied := run.copyState.nodup_copied
  added _ := run.copyState.mem_copied
  alike x c mem := by
    obtain ⟨before, last⟩ := exists_suffix_of_mem mem
    obtain ⟨t, l, source, copy, -⟩ := run.copyState.alike x c before last
    exact ⟨t, _, source, copy, rfl, rfl, rfl, rfl, rfl, rfl, rfl, rfl⟩
  below _ mem := run.mem_of_mem_below mem
  old _ mem known := (run.mem_below_of_mem mem known).2
  once present := by
    refine ⟨fun all => run.pairwise_of_sources_subset fun x mem => present x (all x mem), ?_⟩
    intro sorted x mem
    exact (run.mem_below_of_mem mem (run.sources_subset_of_pairwise present sorted mem)).2

namespace Edit

/-- However a copy ends, types were only added; if it ends well, they are the copies of what lies
below the type, or of such copies. -/
theorem copy_adds (id : TypeId) (m : Model) : (copy id).Yields m fun out m' =>
    m.repository.Gains m'.repository ∧ ∀ c, out = .ok c →
      ∃ copies, (id, c) ∈ copies ∧ m.repository.IsCopiedBy id copies m'.repository := by
  refine (copy_run id m).mono fun out m' => ?_
  rintro ⟨made, run, result⟩
  refine ⟨run.gains, ?_⟩
  intro c ok
  obtain ⟨rfl, copies, rfl⟩ := result c ok
  exact ⟨copies, run.root_mem, run.isCopiedBy⟩

/-- More types may be added than lie below the type: the patron comes before the customer, so the
customer lists its copy, which is copied again. -/
theorem not_copy_once : ¬ ∀ (r : Repository) (id c : TypeId) (events : List Event) (m' : Model),
    r.Reachable → (∀ x ∈ r.below id, (r.complex? x).isSome) →
    copy id ⟨r, events⟩ = .ok c m' →
    m'.repository.types.size = r.types.size + (r.tree id).length := by
  intro once
  have tree : patrons.tree ⟨33⟩ = [⟨33⟩, ⟨34⟩, ⟨36⟩, ⟨35⟩] := by
    rw [patrons, Session.repository_start]
    cbv
  have edges : ∀ x ∈ patrons.tree ⟨33⟩, (patrons.complex? x).isSome ∧
      ∀ y ∈ patrons.declaredSubTypesOf x, y ∈ patrons.tree ⟨33⟩ := by
    rw [tree, patrons, Session.repository_start]
    decide +kernel
  have listed := forall_mem_below List.mem_cons_self fun x mem => (edges x mem).2
  have sizes : ((copy ⟨33⟩).result? ⟨patrons, []⟩).map
      (fun p => (patrons.types.size, p.2.repository.types.size)) = some (37, 42) := by
    rw [patrons, Session.repository_start]
    cbv
  cases run : copy ⟨33⟩ ⟨patrons, []⟩ with
  | error e m' =>
    rw [result?, run] at sizes
    cases sizes
  | ok c m' =>
    rw [result?_eq_some.2 run] at sizes
    have added := once patrons ⟨33⟩ c [] m' (.build (.start {}) _ _)
      (fun x mem => (edges x (listed x mem)).1) run
    have sizes := Prod.mk.inj (Option.some.inj sizes)
    rw [tree, sizes.1, sizes.2] at added
    cases added

end Edit

end EntityModel
