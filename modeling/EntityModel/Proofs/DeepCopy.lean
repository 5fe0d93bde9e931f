/-
Copies of trees of subtypes.

A type is copied with what lies below it (`Repository.below`), in the order in which its
subtypes are listed (`Repository.tree`).  Where no type comes before one of its super types
(`Repository.CopiesWell`), the copies are related as their sources are (`Repository.IsCopy`):

* `Copying` — what is true while the tree is being copied; `Copying.attach` and
  `Copying.tell` are the steps;
* `copiesWithin` — the copy of a type carries it on over what is listed from there;
* `Reachable.copy_isCopy` — so the whole tree is copied;
* `not_copy_isCopy` — a type that comes before one of its super types is copied twice, and
  extends a source.
-/
import EntityModel.Proofs.CopySteps
import EntityModel.Proofs.SubtypeTrees

namespace EntityModel

namespace Repository

variable {r r' : Repository} {id x y s : TypeId} {t t' : ComplexType}

/-! ### Where copies go -/

/-- Where the copy of a type of the tree goes; other types are not copied. -/
def copyOf (r : Repository) (id x : TypeId) : TypeId :=
  if x ∈ r.tree id then ⟨r.types.size + (r.tree id).idxOf x⟩ else x

theorem copyOf_of_mem (mem : x ∈ r.tree id) :
    r.copyOf id x = ⟨r.types.size + (r.tree id).idxOf x⟩ := if_pos mem

theorem copyOf_of_not_mem (out : x ∉ r.tree id) : r.copyOf id x = x := if_neg out

theorem size_le_index_copyOf (mem : x ∈ r.tree id) : r.types.size ≤ (r.copyOf id x).index := by
  rw [copyOf_of_mem mem]
  exact Nat.le_add_right _ _

/-- A type below `id`, and any super type that is no copy, are told apart by where their copies
are. -/
theorem copyOf_inj (hx : x ∈ r.tree id) (hs : s ∈ r.tree id ∨ s.index < r.types.size ∨
    r.types.size + (r.tree id).length ≤ s.index) : r.copyOf id s = r.copyOf id x ↔ s = x := by
  refine ⟨fun same => ?_, fun same => by rw [same]⟩
  rw [copyOf_of_mem hx] at same
  by_cases mem : s ∈ r.tree id
  · rw [copyOf_of_mem mem] at same
    have place := congrArg TypeId.index same
    exact (List.idxOf_inj mem).1 (Nat.add_left_cancel place)
  · rw [copyOf_of_not_mem mem] at same
    have place := congrArg TypeId.index same
    have lt := List.idxOf_lt_length_of_mem hx
    dsimp only at place
    rcases hs.resolve_left mem with old | later <;> omega

theorem not_mem_map_copyOf (complete : ∀ x ∈ r.below id, (r.complex? x).isSome)
    (mem : x ∈ r.tree id) (l : List TypeId) : x ∉ l.map (r.copyOf id) := by
  intro copied
  obtain ⟨s, -, rfl⟩ := List.mem_map.1 copied
  by_cases source : s ∈ r.tree id
  · have old := index_lt_of_mem_tree complete mem
    exact absurd (size_le_index_copyOf source) (by omega)
  · rw [copyOf_of_not_mem source] at mem
    exact source mem

/-- The types of `done` were copied first, and `x` is the next. -/
theorem copyOf_next {done : List TypeId} (next : done ++ [x] <+: r.tree id) :
    r.copyOf id x = ⟨r.types.size + done.length⟩ ∧
      ∀ y ∈ done, (r.copyOf id y).index < r.types.size + done.length := by
  obtain ⟨rest, whole⟩ := next
  rw [List.append_assoc, List.singleton_append] at whole
  have distinct : (r.tree id).Nodup := nodup_tree
  rw [← whole] at distinct
  have fresh : x ∉ done := fun mem =>
    (List.nodup_append.1 distinct).2.2 x mem x List.mem_cons_self rfl
  constructor
  · rw [copyOf_of_mem (by rw [← whole]; simp), ← whole, List.idxOf_append_of_notMem fresh,
      List.idxOf_cons_self, Nat.add_zero]
  · intro y mem
    rw [copyOf_of_mem (by rw [← whole]; simp [mem]), ← whole, List.idxOf_append_of_mem mem]
    exact Nat.add_lt_add_left (List.idxOf_lt_length_of_mem mem) _

/-! ### While a tree is copied -/

/-- The tree can be copied from its first type to its last. -/
structure CopiesWell (r : Repository) (id : TypeId) : Prop where
  /-- No type comes before one of its super types. -/
  sorted : (r.tree id).Pairwise fun x s => s ∉ r.complexSuperTypesOf x
  /-- A super type lists what extends it. -/
  known : ∀ x ∈ r.tree id, ∀ s ∈ r.tree id,
    s ∈ r.complexSuperTypesOf x → x ∈ r.declaredSubTypesOf s
  /-- A subtype that does not extend the type is listed by no other. -/
  listed : ∀ x ∈ r.tree id, ∀ y ∈ r.declaredSubTypesOf x, x ∉ r.complexSuperTypesOf y →
    y ≠ id ∧ ∀ z ∈ r.tree id, y ∈ r.declaredSubTypesOf z → z = x
  /-- No super type is a handle that a copy is going to have. -/
  free : ∀ x ∈ r.tree id, ∀ s ∈ r.complexSuperTypesOf x,
    s.index < r.types.size ∨ r.types.size + (r.tree id).length ≤ s.index

/-- The type `t'` extends the copies of what `t` extends, and lists copies of what `t` lists;
`φ` says where copies are. -/
structure Mirrors (φ : TypeId → TypeId) (t t' : ComplexType) : Prop where
  superTypes : t'.shape.superTypes = t.shape.superTypes.map φ
  subTypes : ∀ c ∈ t'.subTypes, ∃ y ∈ t.subTypes, φ y = c

/-- The type at `x` is copied, and its copy lists the copies of those of `done` that extend it. -/
def IsCopied (r : Repository) (id : TypeId) (done : List TypeId) (r' : Repository)
    (x : TypeId) : Prop :=
  ∃ t t', r.complex? x = some t ∧ r'.complex? (r.copyOf id x) = some t' ∧
    Mirrors (r.copyOf id) t t' ∧
    ∀ y ∈ done, x ∈ r.complexSuperTypesOf y → r.copyOf id y ∈ t'.subTypes

/-- The copy of a type that lists `y` lists the copy of `y`. -/
def IsTold (r : Repository) (id : TypeId) (done : List TypeId) (r' : Repository)
    (y : TypeId) : Prop :=
  ∃ x ∈ done, y ∈ r.declaredSubTypesOf x ∧
    r.copyOf id y ∈ r'.declaredSubTypesOf (r.copyOf id x)

/-- The types of `done` are copied, by `copies`.  Those of `waiting` are perhaps not yet listed
by the copy of the type from which they were reached. -/
structure Copying (r : Repository) (id : TypeId) (done waiting : List TypeId)
    (copies : List (TypeId × TypeId)) (r' : Repository) : Prop where
  size : r'.types.size = r.types.size + done.length
  sources : ∀ x ∈ r.tree id, r'.get? x = r.get? x
  lookup : ∀ s, copies.lookup s = if s ∈ done then some (r.copyOf id s) else none
  copied : ∀ x ∈ done, r.IsCopied id done r' x
  told : ∀ y ∈ done, y ∈ waiting ∨ r.IsTold id done r' y

theorem Mirrors.tell {φ : TypeId → TypeId} {p : Prop} [Decidable p] (h : Mirrors φ t t')
    (mem : p → y ∈ t.subTypes) : Mirrors φ t (if p then t'.registerSubType (φ y) else t') where
  superTypes := by rw [ComplexType.shape_ite, h.superTypes]
  subTypes c told := by
    rcases ComplexType.mem_subTypes_ite.1 told with old | ⟨holds, rfl⟩
    · exact h.subTypes c old
    · exact ⟨y, mem holds, rfl⟩

theorem copying_nil (r : Repository) (id : TypeId) : Copying r id [] [] [] r where
  size := rfl
  sources _ _ := rfl
  lookup _ := rfl
  copied := nofun
  told := nofun

namespace CopiesWell

variable {done : List TypeId} (H : r.CopiesWell id)

include H

/-- What comes later is no super type. -/
theorem not_mem_superTypes (whole : done <+: r.tree id) (hy : y ∈ done) (later : s ∈ r.tree id)
    (out : s ∉ done) : s ∉ r.complexSuperTypesOf y := by
  obtain ⟨rest, whole⟩ := whole
  have sorted := H.sorted
  rw [← whole] at later sorted
  exact (List.pairwise_append.1 sorted).2.2 y hy s ((List.mem_append.1 later).resolve_left out)

theorem copyOf_mem_map_iff (hx : x ∈ r.tree id) (found : r.complex? x = some t)
    (hy : y ∈ r.tree id) : r.copyOf id y ∈ t.shape.superTypes.map (r.copyOf id) ↔
      y ∈ r.complexSuperTypesOf x := by
  rw [mem_complexSuperTypesOf found]
  refine ⟨fun mem => ?_, fun mem => List.mem_map_of_mem mem⟩
  obtain ⟨s, super, same⟩ := List.mem_map.1 mem
  have free := H.free x hx s ((mem_complexSuperTypesOf found).2 super)
  rwa [← (copyOf_inj hy (.inr free)).1 same]

theorem nodup_map_copyOf (hx : x ∈ r.tree id) (found : r.complex? x = some t)
    (distinct : t.shape.superTypes.Nodup) : (t.shape.superTypes.map (r.copyOf id)).Nodup := by
  have free : ∀ s ∈ t.shape.superTypes, s.index < r.types.size ∨
      r.types.size + (r.tree id).length ≤ s.index :=
    fun s super => H.free x hx s ((mem_complexSuperTypesOf found).2 super)
  refine distinct.map_on fun s hs v hv same => ?_
  by_cases mem : v ∈ r.tree id
  · exact (copyOf_inj mem (.inr (free s hs))).1 same
  · by_cases mem' : s ∈ r.tree id
    · exact ((copyOf_inj mem' (.inr (free v hv))).1 same.symm).symm
    · rwa [copyOf_of_not_mem mem, copyOf_of_not_mem mem'] at same

end CopiesWell

namespace Copying

variable {done waiting : List TypeId} {copies : List (TypeId × TypeId)}

section Attach

variable (C : Copying r id done waiting copies r') (next : done ++ [x] <+: r.tree id)

include C next

theorem nextId : r'.nextId = r.copyOf id x := by
  rw [Repository.nextId, C.size, (copyOf_next next).1]

theorem copyOf_ne_nextId (hy : y ∈ done) : r.copyOf id y ≠ r'.nextId := by
  intro same
  have lt := (copyOf_next next).2 y hy
  rw [same, Repository.nextId, C.size] at lt
  exact lt.false

theorem lookup_cons (s : TypeId) :
    ((x, r'.nextId) :: copies).lookup s =
      if s ∈ done ++ [x] then some (r.copyOf id s) else none := by
  rw [List.lookup_cons]
  by_cases here : s = x
  · subst here
    simp [C.nextId next]
  · have other : (s == x) = false := by simpa using here
    rw [other, C.lookup]
    simp [here]

variable (H : r.CopiesWell id)

include H

/-- The super types of the next type are copied, or stay what they are. -/
theorem copyOr_eq (super : s ∈ r.complexSuperTypesOf x) :
    Edit.copyOr ((x, r'.nextId) :: copies) s = r.copyOf id s := by
  rw [Edit.copyOr, C.lookup_cons next]
  by_cases earlier : s ∈ done ++ [x]
  · rw [if_pos earlier]
    rfl
  · have out : s ∉ r.tree id := fun later =>
      H.not_mem_superTypes next (by simp) later earlier super
    rw [if_neg earlier, copyOf_of_not_mem out]
    rfl

variable (found : r.complex? x = some t)

include found

/-- The copy of a super type is told of the next copy. -/
theorem isCopied_attach_of_mem (t' : ComplexType) (hy : y ∈ done) :
    r.IsCopied id (done ++ [x]) (r'.attach t' (t.shape.superTypes.map (r.copyOf id))) y := by
  have hx : x ∈ r.tree id := next.subset (by simp)
  have hy' : y ∈ r.tree id := next.subset (by simp [hy])
  obtain ⟨s, s', source, copy, mirrors, subs⟩ := C.copied y hy
  have after := complex?_attach_of_ne (C.copyOf_ne_nextId next hy) copy t'
    (t.shape.superTypes.map (r.copyOf id))
  have super := H.copyOf_mem_map_iff hx found hy'
  rw [C.nextId next] at after
  refine ⟨s, _, source, after, mirrors.tell fun told => ?_, fun z hz extended => ?_⟩
  · exact (mem_declaredSubTypesOf source).1 (H.known x hx y hy' (super.1 told))
  · rw [ComplexType.mem_subTypes_ite]
    rcases List.mem_append.1 hz with hz | hz
    · exact .inl (subs z hz extended)
    · rw [List.mem_singleton.1 hz] at extended ⊢
      exact .inr ⟨super.2 extended, rfl⟩

theorem isCopied_attach_self
    (supers : t'.shape.superTypes = t.shape.superTypes.map (r.copyOf id))
    (bare : t'.subTypes = []) :
    r.IsCopied id (done ++ [x]) (r'.attach t' (t.shape.superTypes.map (r.copyOf id))) x := by
  have hx : x ∈ r.tree id := next.subset (by simp)
  have after := complex?_attach_nextId r' t' (t.shape.superTypes.map (r.copyOf id))
  have super := H.copyOf_mem_map_iff hx found hx
  rw [C.nextId next] at after
  have mirrors : Mirrors (r.copyOf id) t t' := ⟨supers, by rw [bare]; nofun⟩
  refine ⟨t, _, found, after, mirrors.tell fun told => ?_, fun z hz extended => ?_⟩
  · exact (mem_declaredSubTypesOf found).1 (H.known x hx x hx (super.1 told))
  · rw [ComplexType.mem_subTypes_ite]
    rcases List.mem_append.1 hz with hz | hz
    · -- nothing that was copied before extends `x`
      have fresh : x ∉ done := fun mem => C.copyOf_ne_nextId next mem (C.nextId next).symm
      have before := (List.prefix_append done [x]).trans next
      exact absurd extended (H.not_mem_superTypes before hz hx fresh)
    · rw [List.mem_singleton.1 hz] at extended ⊢
      exact .inr ⟨super.2 extended, rfl⟩

/-- The next type is copied, and its super types are told. -/
theorem attach (complete : ∀ x ∈ r.below id, (r.complex? x).isSome)
    (supers : t'.shape.superTypes = t.shape.superTypes.map (r.copyOf id))
    (bare : t'.subTypes = []) :
    Copying r id (done ++ [x]) (x :: waiting) ((x, r'.nextId) :: copies)
      (r'.attach t' (t.shape.superTypes.map (r.copyOf id))) := by
  have hx : x ∈ r.tree id := next.subset (by simp)
  refine ⟨?_, ?_, C.lookup_cons next, ?_, ?_⟩
  · rw [size_attach, C.size, List.length_append, List.length_singleton, Nat.add_assoc]
  · intro u hu
    have old := index_lt_of_mem_tree complete hu
    have new := size_le_index_copyOf hx
    rw [get?_attach_of_not_mem _ _ (not_mem_map_copyOf complete hu _), C.sources u hu]
    rintro rfl
    rw [C.nextId next] at old
    omega
  · intro y hy
    rcases List.mem_append.1 hy with old | new
    · exact C.isCopied_attach_of_mem next H found t' old
    · rw [List.mem_singleton.1 new]
      exact C.isCopied_attach_self next H found supers bare
  · intro y hy
    rcases List.mem_append.1 hy with old | new
    · rcases C.told y old with waits | ⟨p, hp, edge, told⟩
      · exact .inl (List.mem_cons_of_mem x waits)
      · obtain ⟨-, s', -, copy, -, -⟩ := C.copied p hp
        have after := complex?_attach_of_ne (C.copyOf_ne_nextId next hp) copy t'
          (t.shape.superTypes.map (r.copyOf id))
        rw [mem_declaredSubTypesOf copy] at told
        refine .inr ⟨p, List.mem_append_left _ hp, edge, ?_⟩
        exact (mem_declaredSubTypesOf after).2 (ComplexType.mem_subTypes_ite.2 (.inl told))
    · rw [List.mem_singleton.1 new]
      exact .inl List.mem_cons_self

end Attach

/-- The copy of a type is told of the copy of one that it lists. -/
theorem tell {p : TypeId} (C : Copying r id done (x :: waiting) copies r')
    (complete : ∀ x ∈ r.below id, (r.complex? x).isSome) (sub : done ⊆ r.tree id)
    (hp : p ∈ done) (edge : x ∈ r.declaredSubTypesOf p)
    (found : r'.complex? (r.copyOf id p) = some t') :
    Copying r id done waiting copies
      (r'.set (r.copyOf id p) (.complex (t'.registerSubType (r.copyOf id x)))) := by
  have after := complex?_set_self (complex?_eq_some.1 found) (t'.registerSubType (r.copyOf id x))
  have apart : ∀ y ∈ done, y ≠ p → r.copyOf id y ≠ r.copyOf id p := fun y hy other same =>
    other ((copyOf_inj (sub hp) (.inl (sub hy))).1 same)
  refine ⟨?_, ?_, C.lookup, ?_, ?_⟩
  · rw [size_set, C.size]
  · intro u hu
    have old := index_lt_of_mem_tree complete hu
    have new := size_le_index_copyOf (sub hp)
    rw [get?_set_of_ne, C.sources u hu]
    rintro rfl
    omega
  · intro y hy
    obtain ⟨s, s', source, copy, mirrors, subs⟩ := C.copied y hy
    by_cases here : y = p
    · subst here
      obtain rfl := Option.some.inj (found.symm.trans copy)
      refine ⟨s, _, source, after, ?_, fun z hz extended => ?_⟩
      · exact mirrors.tell (p := True) fun _ => (mem_declaredSubTypesOf source).1 edge
      · exact mem_appendNew.2 (.inl (subs z hz extended))
    · refine ⟨s, s', source, ?_, mirrors, subs⟩
      rw [complex?_eq_some, get?_set_of_ne (apart y hy here), complex?_eq_some.1 copy]
  · intro y hy
    by_cases here : y = x
    · subst here
      exact .inr ⟨p, hp, edge, (mem_declaredSubTypesOf after).2 (mem_appendNew.2 (.inr rfl))⟩
    · rcases C.told y hy with waits | ⟨q, hq, edge', told⟩
      · exact .inl ((List.mem_cons.1 waits).resolve_left here)
      · refine .inr ⟨q, hq, edge', ?_⟩
        by_cases same : q = p
        · subst same
          rw [mem_declaredSubTypesOf found] at told
          exact (mem_declaredSubTypesOf after).2 (mem_appendNew.2 (.inl told))
        · rwa [declaredSubTypesOf, complex?, get?_set_of_ne (apart q hq same)]

end Copying

/-! ### The run -/

section Run

variable {done waiting : List TypeId} {copies : List (TypeId × TypeId)} {depth : Nat}
variable (complete : ∀ x ∈ r.below id, (r.complex? x).isSome)

/-- From every type, the copy carries on over what the search lists from there. -/
def CopiesWithin (r : Repository) (id : TypeId) (depth : Nat) : Prop :=
  ∀ {x done waiting copies m}, done ++ visit r.ids r.complexSubTypesOf done [x] <+: r.tree id →
    x ∉ done → (r.tree id).length < depth + done.length →
    Copying r id done waiting copies m.repository →
    ∃ copies' m', Edit.copyTree depth x copies m = .ok (r.copyOf id x, copies') m' ∧
      Copying r id (done ++ visit r.ids r.complexSubTypesOf done [x]) (x :: waiting) copies'
        m'.repository

include complete

theorem CopiesWithin.copySubTypes (within : r.CopiesWithin id depth) {m : Model}
    {l : List TypeId} (edges : ∀ y ∈ l, y ∈ r.declaredSubTypesOf x) (hx : x ∈ done)
    (whole : done ++ visit r.ids r.complexSubTypesOf done l <+: r.tree id)
    (deep : (r.tree id).length < depth + done.length)
    (C : Copying r id done waiting copies m.repository) :
    ∃ copies' m', Edit.copySubTypes depth (r.copyOf id x) l copies m = .ok copies' m' ∧
      Copying r id (done ++ visit r.ids r.complexSubTypesOf done l) waiting copies'
        m'.repository := by
  induction l generalizing done copies m with
  | nil =>
    refine ⟨copies, m, rfl, ?_⟩
    rwa [visit, List.append_nil]
  | cons y rest ih =>
    have edges' := fun z mem => edges z (List.mem_cons_of_mem y mem)
    by_cases mem : y ∈ done
    · rw [visit, if_pos mem] at whole ⊢
      have copied : (copies.lookup y).isSome = true := by rw [C.lookup, if_pos mem]; rfl
      rw [Edit.copySubTypes_cons_of_isSome copied]
      exact ih edges' hx whole deep C
    · have split : done ++ visit r.ids r.complexSubTypesOf done (y :: rest) =
          (done ++ visit r.ids r.complexSubTypesOf done [y]) ++ visit r.ids r.complexSubTypesOf
            (done ++ visit r.ids r.complexSubTypesOf done [y]) rest := by
        rw [List.append_assoc, ← visit_append, List.singleton_append]
      rw [split] at whole ⊢
      have first := (List.prefix_append _ _).trans whole
      obtain ⟨copies', m', run, C'⟩ := within first mem deep C
      -- the copy of `x` is told of the copy of `y`
      obtain ⟨-, t', -, found, -, -⟩ := C'.copied x (List.mem_append_left _ hx)
      have fresh : copies.lookup y = none := by rw [C.lookup, if_neg mem]
      rw [Edit.copySubTypes_cons_of_run fresh run found]
      refine ih edges' (List.mem_append_left _ hx) whole ?_ ?_
      · rw [List.length_append]
        omega
      · exact C'.tell complete first.subset (List.mem_append_left _ hx)
          (edges y List.mem_cons_self) found

theorem copiesWithin (H : r.CopiesWell id) (proper : r.IsProper) (depth : Nat) :
    r.CopiesWithin id depth := by
  induction depth with
  | zero =>
    intro x done waiting copies m whole _ deep _
    have shorter := whole.length_le
    rw [List.length_append] at shorter
    omega
  | succ depth ih =>
    intro x done waiting copies m whole fresh deep C
    obtain ⟨r', events⟩ := m
    have C : Copying r id done waiting copies r' := C
    have listed : x ∈ visit r.ids r.complexSubTypesOf done [x] :=
      (mem_visit_of_mem List.mem_cons_self).resolve_left fresh
    have hx : x ∈ r.tree id := whole.subset (List.mem_append_right _ listed)
    obtain ⟨t, found⟩ := exists_of_mem_tree complete hx
    have vertex : x ∈ r.ids := mem_ids.2 (index_lt_of_mem_tree complete hx)
    have marked : ∀ y, y ∈ x :: done ↔ y ∈ done ++ [x] := fun y => by simp [or_comm]
    have unfolded : done ++ visit r.ids r.complexSubTypesOf done [x] =
        (done ++ [x]) ++ visit r.ids r.complexSubTypesOf (done ++ [x]) t.subTypes := by
      rw [visit, if_neg fresh, if_pos vertex, List.append_nil,
        complexSubTypesOf_of_mem_tree complete hx found, List.append_assoc, List.singleton_append,
        visit_congr_seen marked]
    rw [unfolded] at whole ⊢
    have next := (List.prefix_append _ _).trans whole
    have here : r'.complex? x = some t := by rw [complex?, C.sources x hx, ← complex?, found]
    have supers : t.shape.superTypes.map (Edit.copyOr ((x, r'.nextId) :: copies)) =
        t.shape.superTypes.map (r.copyOf id) :=
      List.map_congr_left fun s super =>
        C.copyOr_eq next H ((mem_complexSuperTypesOf found).2 super)
    have distinct := H.nodup_map_copyOf hx found (proper x t found).superTypes
    have extended := t.superTypes_deepCopy r'.nextId (t.shape.superTypes.map (r.copyOf id))
    rw [foldl_appendNew_of_nodup distinct, List.nil_append] at extended
    have C' := C.attach next H found complete extended (t.subTypes_deepCopy _ _)
    obtain ⟨copies', m', run, C''⟩ := ih.copySubTypes complete
      (fun y => (mem_declaredSubTypesOf found).2) (by simp) whole
      (by rw [List.length_append, List.length_singleton]; omega) (m := ⟨_, events⟩) C'
    refine ⟨copies', m', ?_, C''⟩
    rw [← C.nextId next] at run ⊢
    rw [Edit.copyTree_succ here (proper x t found), supers]
    exact Edit.bind_eq_of_ok run

end Run

/-! ### The whole copy -/

/-- The map `φ` takes the types of `tree` to the types that `r'` has and `r` has not, and the
edges among them to the edges among those. -/
structure IsCopy (r r' : Repository) (tree : Set TypeId) (φ : TypeId → TypeId) : Prop where
  fixed : ∀ s, s ∉ tree → φ s = s
  bijOn : Set.BijOn φ tree {c | c ∈ r'.ids ∧ c ∉ r.ids}
  edges : ∀ x ∈ tree, ∃ t t', r.complex? x = some t ∧ r'.complex? (φ x) = some t' ∧
    t'.shape.superTypes = t.shape.superTypes.map φ ∧
    ∀ c, c ∈ t'.subTypes ↔ ∃ y ∈ t.subTypes, φ y = c

section Whole

variable {copies : List (TypeId × TypeId)}
variable (complete : ∀ x ∈ r.below id, (r.complex? x).isSome)
variable (C : Copying r id (r.tree id) [id] copies r')

include complete C

theorem Copying.bijOn :
    Set.BijOn (r.copyOf id) (r.below id) {c | c ∈ r'.ids ∧ c ∉ r.ids} := by
  refine ⟨?_, ?_, ?_⟩
  · intro x mem
    have mem := (mem_tree_iff complete).2 mem
    have lt := List.idxOf_lt_length_of_mem mem
    show r.copyOf id x ∈ r'.ids ∧ r.copyOf id x ∉ r.ids
    rw [copyOf_of_mem mem, mem_ids, mem_ids, C.size]
    dsimp only
    omega
  · intro x hx y hy same
    have hy := (mem_tree_iff complete).2 hy
    exact (copyOf_inj hy (.inl ((mem_tree_iff complete).2 hx))).1 same
  · rintro ⟨place⟩ ⟨present, new⟩
    rw [mem_ids, C.size] at present
    rw [mem_ids] at new
    dsimp only at present new
    have lt : place - r.types.size < (r.tree id).length := by omega
    have mem := List.getElem_mem lt
    refine ⟨(r.tree id)[place - r.types.size], (mem_tree_iff complete).1 mem, ?_⟩
    rw [copyOf_of_mem mem, nodup_tree.idxOf_getElem]
    congr 1
    omega

theorem Copying.isCopy (H : r.CopiesWell id) :
    IsCopy r r' (r.below id) (r.copyOf id) where
  fixed s out := copyOf_of_not_mem fun mem => out ((mem_tree_iff complete).1 mem)
  bijOn := C.bijOn complete
  edges x mem := by
    have hx := (mem_tree_iff complete).2 mem
    obtain ⟨t, t', source, copy, mirrors, subs⟩ := C.copied x hx
    refine ⟨t, t', source, copy, mirrors.superTypes, fun c => ⟨mirrors.subTypes c, ?_⟩⟩
    rintro ⟨y, edge, rfl⟩
    have edge := (mem_declaredSubTypesOf source).2 edge
    have hy := mem_tree_of_mem complete hx edge
    by_cases extended : x ∈ r.complexSuperTypesOf y
    · exact subs y hy extended
    · -- the copy of the only type that lists `y` was told
      obtain ⟨notRoot, only⟩ := H.listed x hx y edge extended
      rcases C.told y hy with root | ⟨p, hp, edge', told⟩
      · exact absurd (List.mem_singleton.1 root) notRoot
      · obtain rfl := only p hp edge'
        exact (mem_declaredSubTypesOf copy).1 told

end Whole

theorem length_tree_lt (complete : ∀ x ∈ r.below id, (r.complex? x).isSome) :
    (r.tree id).length < Edit.copyDepth r := by
  refine (Nat.lt_succ_of_le (length_tree_le complete)).trans_le ?_
  exact Nat.le_mul_of_pos_left _ (Nat.succ_pos _)

/-- A tree that can be copied from its first type to its last is copied, with its edges. -/
theorem Reachable.copy_isCopy (h : r.Reachable)
    (complete : ∀ x ∈ r.below id, (r.complex? x).isSome) (H : r.CopiesWell id)
    (events : List Event) :
    ∃ copy m' φ, Edit.copy id ⟨r, events⟩ = .ok copy m' ∧ φ id = copy ∧
      IsCopy r m'.repository (r.below id) φ := by
  have within : r.CopiesWithin id (Edit.copyDepth r) := copiesWithin complete H h.isProper _
  obtain ⟨copies, m', run, C⟩ := within (x := id) (m := ⟨r, events⟩)
    (by rw [List.nil_append, visit_eq_tree]) List.not_mem_nil (length_tree_lt complete)
    (copying_nil r id)
  rw [List.nil_append, visit_eq_tree] at C
  obtain ⟨-, t', -, copy, -, -⟩ := C.copied id List.mem_cons_self
  have asked : Edit.ask (·.complex (r.copyOf id id)) m' = .ok t' m' :=
    Edit.ask_eq_ok (complex_eq_ok_iff.2 copy)
  refine ⟨r.copyOf id id, { m' with
    events := m'.events ++ [.copied t'.qualifiedName (r.copyOf id id)] }, r.copyOf id, ?_, rfl,
    C.isCopy complete H⟩
  exact (Edit.bind_eq_of_ok run).trans (Edit.bind_eq_of_ok asked)

/-- An employee is a person, and is declared to be a party as well. -/
def staff : Repository :=
  (Session.start {}).repository.perform (.build { types :=
    [{ name := "Party" }, { name := "Person", superTypes := ["Party"] },
      { name := "Employee", superTypes := ["Person", "Party"] }] } {})

theorem tree_staff : staff.tree ⟨33⟩ = [⟨33⟩, ⟨34⟩, ⟨35⟩] := by
  rw [staff, Session.repository_start]
  cbv

theorem copiesWell_staff : staff.CopiesWell ⟨33⟩ := by
  refine ⟨?_, ?_, ?_, ?_⟩
  · rw [tree_staff, staff, Session.repository_start]
    decide +kernel
  · rw [tree_staff, staff, Session.repository_start]
    decide +kernel
  · rw [tree_staff, staff, Session.repository_start]
    decide +kernel
  · rw [tree_staff, staff, Session.repository_start]
    decide +kernel

theorem copy_isCopy_staff : (∀ x ∈ staff.below ⟨33⟩, (staff.complex? x).isSome) ∧
    ∃ copy m' φ, Edit.copy ⟨33⟩ ⟨staff, []⟩ = .ok copy m' ∧ φ ⟨33⟩ = copy ∧
      IsCopy staff m'.repository (staff.below ⟨33⟩) φ := by
  have edges : ∀ x ∈ staff.tree ⟨33⟩, (staff.complex? x).isSome ∧
      ∀ y ∈ staff.declaredSubTypesOf x, y ∈ staff.tree ⟨33⟩ := by
    rw [tree_staff, staff, Session.repository_start]
    decide +kernel
  have listed := forall_mem_below List.mem_cons_self fun x mem => (edges x mem).2
  have complete := fun x mem => (edges x (listed x mem)).1
  exact ⟨complete, Reachable.copy_isCopy (.build (.start {}) _ _) complete copiesWell_staff []⟩

/-- A patron is a person and a customer, and both are parties. -/
def patrons : Repository :=
  (Session.start {}).repository.perform (.build { types :=
    [{ name := "Party" }, { name := "Person", superTypes := ["Party"] },
      { name := "Customer", superTypes := ["Party"] },
      { name := "Patron", superTypes := ["Person", "Customer"] }] } {})

/-- The copies need not be related as their sources are: the patron comes before the customer,
so its copy extends the customer itself. -/
theorem not_copy_isCopy : ¬ ∀ (r : Repository) (id : TypeId) (events : List Event), r.Reachable →
    (∀ x ∈ r.below id, (r.complex? x).isSome) →
    ∃ copy m' φ, Edit.copy id ⟨r, events⟩ = .ok copy m' ∧ φ id = copy ∧
      IsCopy r m'.repository (r.below id) φ := by
  intro isomorphic
  have tree : patrons.tree ⟨33⟩ = [⟨33⟩, ⟨34⟩, ⟨36⟩, ⟨35⟩] := by
    rw [patrons, Session.repository_start]
    cbv
  have edges : ∀ x ∈ patrons.tree ⟨33⟩, (patrons.complex? x).isSome ∧
      (∀ y ∈ patrons.declaredSubTypesOf x, y ∈ patrons.tree ⟨33⟩) ∧
      ∀ s ∈ patrons.complexSuperTypesOf x, s ∈ patrons.tree ⟨33⟩ := by
    rw [tree, patrons, Session.repository_start]
    decide +kernel
  have listed := forall_mem_below List.mem_cons_self fun x mem => (edges x mem).2.1
  have complete := fun x mem => (edges x (listed x mem)).1
  have stray : ((Edit.copy ⟨33⟩).result? ⟨patrons, []⟩).map
      (fun p => p.2.repository.complexSuperTypesOf ⟨39⟩) = some [⟨38⟩, ⟨35⟩] := by
    rw [patrons, Session.repository_start]
    cbv
  have old : (⟨35⟩ : TypeId) ∈ patrons.ids ∧ (⟨39⟩ : TypeId) ∉ patrons.ids := by
    rw [patrons, Session.repository_start]
    decide +kernel
  obtain ⟨copy, m', φ, run, -, iso⟩ :=
    isomorphic patrons ⟨33⟩ [] (.build (.start {}) _ _) complete
  rw [Edit.result?_eq_some.2 run] at stray
  have supers : m'.repository.complexSuperTypesOf ⟨39⟩ = [⟨38⟩, ⟨35⟩] := Option.some.inj stray
  have stray : (⟨35⟩ : TypeId) ∈ m'.repository.complexSuperTypesOf ⟨39⟩ := by simp [supers]
  have present := mem_ids_of_mem_complexSuperTypesOf stray
  obtain ⟨x, mem, there⟩ := iso.bijOn.surjOn ⟨present, old.2⟩
  obtain ⟨t, t', source, copy, supers, -⟩ := iso.edges x mem
  rw [there] at copy
  rw [mem_complexSuperTypesOf copy, supers] at stray
  -- so the customer would be the copy of a party
  obtain ⟨s, super, same⟩ := List.mem_map.1 stray
  have super := (mem_complexSuperTypesOf source).2 super
  have below := (edges x (listed x mem)).2.2 s super
  have new := iso.bijOn.mapsTo ((mem_tree_iff complete).1 below)
  rw [same] at new
  exact new.2 old.1

end Repository

end EntityModel
