/-
Copies as shadows.

However often types are copied, every type is one of those that were there or the copy of one,
perhaps by way of other copies: it has a source among them (`Repository.ShadowedBy`).  It has no
fields but those that its source has, and extends and lists only what its source does, if sources
stand for copies (`Repository.Shadows`).  A type that was there lists what it listed before,
and then copies.

* `ShadowedBy.push`, `ShadowedBy.tell` — the two changes that a copy is made of;
* `Shadowing.attach`, `Shadowing.tell` — the steps of a copy, so `keeps_shadowedBy_copy` whether
  it ends well or not;
* `IsComplete.foldl_perform` — so any number of copies.
-/
import EntityModel.Proofs.BuiltModels
import EntityModel.Proofs.CopiedFields

namespace EntityModel

/-- The copy of a proper type is proper. -/
theorem ComplexType.isProper_deepCopy {t : ComplexType} (h : t.shape.IsProper) (copy : TypeId)
    (superTypes : List TypeId) : (t.deepCopy copy superTypes).shape.IsProper := by
  have distinct : ∀ (l ids : List TypeId), ids.Nodup → (l.foldl appendNew ids).Nodup := by
    intro l
    induction l with
    | nil => exact fun _ nodup => nodup
    | cons v rest ih => exact fun ids nodup => ih _ (nodup_appendNew nodup v)
  refine ⟨?_, ?_, ?_⟩
  · rw [shape_deepCopy, FieldTable.names_copied]
    exact h.fields
  · rw [names_keyFields_deepCopy, List.mem_eraseDups, List.mem_append]
    rintro (flagged | key)
    · exact h.fields ((List.filter_sublist.map NamedField.key).subset flagged)
    · exact h.keyFields key
  · rw [superTypes_deepCopy]
    exact distinct superTypes [] .nil

namespace Repository

section Grows

variable {r r₀ r' : Repository} {id u : TypeId} {t : ComplexType}

/-- Every type of `r` is in `r'`, and is what it was but for its subtypes. -/
def GrowsTo (r r' : Repository) : Prop :=
  ∀ u n, r.get? u = some n → ∃ n', r'.get? u = some n' ∧ n'.withoutSubTypes = n.withoutSubTypes

theorem GrowsTo.refl (r : Repository) : r.GrowsTo r := fun _ n found => ⟨n, found, rfl⟩

theorem GrowsTo.complex? (h : r.GrowsTo r') (found : r.complex? u = some t) :
    ∃ t', r'.complex? u = some t' ∧ t' = { t with subTypes := t'.subTypes } := by
  obtain ⟨n', found', same⟩ := h u _ (complex?_eq_some.1 found)
  cases n' with
  | simple => cases same
  | complex t' =>
    refine ⟨t', complex?_eq_some.2 found', ?_⟩
    have bare := TypeNode.complex.inj same
    obtain ⟨⟩ := t
    obtain ⟨⟩ := t'
    simpa using bare

theorem GrowsTo.push (h : r₀.GrowsTo r) (n : TypeNode) : r₀.GrowsTo (r.push n) := fun u m found =>
  (h u m found).imp fun _ ⟨here, same⟩ => ⟨get?_push_of_some here n, same⟩

theorem GrowsTo.set_registerSubType (h : r₀.GrowsTo r) (found : r.complex? id = some t)
    (c : TypeId) : r₀.GrowsTo (r.set id (.complex (t.registerSubType c))) := by
  intro u m before
  obtain ⟨n, here, same⟩ := h u m before
  by_cases there : u = id
  · subst there
    rw [complex?_eq_some.1 found] at here
    obtain rfl := Option.some.inj here
    exact ⟨_, get?_set_self (complex?_eq_some.1 found) _, same⟩
  · exact ⟨n, by rw [get?_set_of_ne there, here], same⟩

theorem GrowsTo.get?_nextId (h : r₀.GrowsTo r) : r₀.get? r.nextId = none := by
  refine Option.eq_none_iff_forall_ne_some.2 fun n found => ?_
  obtain ⟨n', here, -⟩ := h _ n found
  rw [Repository.get?_nextId] at here
  cases here

end Grows

/-- In `s`, the type `t'` has no more than `t` has, and what is a copy there counts as its
source. -/
structure Shadows (s : Repository) (source : TypeId → TypeId) (t' t : ComplexType) : Prop where
  name : t'.name = t.name
  proper : t'.shape.IsProper
  fields : t'.shape.fields.names ⊆ t.shape.fields.names
  superTypes : ∀ v ∈ t'.shape.superTypes, v ∈ s.ids ∧ source v ∈ t.shape.superTypes
  subTypes : ∀ v ∈ t'.subTypes, v ∈ s.ids ∧ source v ∈ t.subTypes

/-- All types of `s` are types of `r` or copies of those, their sources. -/
structure ShadowedBy (r : Repository) (source : TypeId → TypeId) (s : Repository) : Prop where
  grows : r.GrowsTo s
  fixed : ∀ u ∈ r.ids, source u = u
  shadows : ∀ u t', s.complex? u = some t' →
    ∃ t, r.complex? (source u) = some t ∧ s.Shadows source t' t
  /-- What a type lists and did not list in `r` are copies. -/
  added : ∀ u t', s.complex? u = some t' →
    ∃ copies, t'.subTypes = ((r.complex? u).map (·.subTypes)).getD [] ++ copies ∧
      ∀ c ∈ copies, c ∉ r.ids

/-- The types of `s` are there in `s'`, and have the sources that they had. -/
structure KeepsSources (s : Repository) (source : TypeId → TypeId) (s' : Repository)
    (source' : TypeId → TypeId) : Prop where
  ids : s.ids ⊆ s'.ids
  sources : ∀ u ∈ s.ids, source' u = source u

variable {r s s' : Repository} {source source' : TypeId → TypeId} {id u c x : TypeId}
variable {t t' : ComplexType}

namespace KeepsSources

theorem of_size_eq (source : TypeId → TypeId) (same : s'.types.size = s.types.size) :
    KeepsSources s source s' source :=
  ⟨(ids_congr same).symm ▸ List.Subset.refl _, fun _ _ => rfl⟩

/-- A new type may have any source. -/
theorem push (s : Repository) (source : TypeId → TypeId) (n : TypeNode) (x : TypeId) :
    KeepsSources s source (s.push n) (Function.update source s.nextId x) where
  ids := s.ids_subset_push n
  sources u mem := Function.update_of_ne (by
    rintro rfl
    rw [mem_ids_iff_get?, get?_nextId] at mem
    cases mem) _ _

end KeepsSources

theorem Shadows.keep (h : s.Shadows source t' t) (K : KeepsSources s source s' source') :
    s'.Shadows source' t' t where
  name := h.name
  proper := h.proper
  fields := h.fields
  superTypes v mem := by
    obtain ⟨known, super⟩ := h.superTypes v mem
    exact ⟨K.ids known, (K.sources v known).symm ▸ super⟩
  subTypes v mem := by
    obtain ⟨known, sub⟩ := h.subTypes v mem
    exact ⟨K.ids known, (K.sources v known).symm ▸ sub⟩

/-- A type that extends only copies, or what stands for them, is a shadow of what it was copied
from. -/
theorem Shadows.deepCopy (h : s.Shadows source t' t) {superTypes : List TypeId}
    (extended : ∀ v ∈ superTypes, v ∈ s.ids ∧ source v ∈ t.shape.superTypes) (c : TypeId) :
    s.Shadows source (t'.deepCopy c superTypes) t where
  name := h.name
  proper := ComplexType.isProper_deepCopy h.proper c superTypes
  fields := by
    rw [ComplexType.shape_deepCopy, FieldTable.names_copied]
    exact h.fields
  superTypes v mem := by
    rw [ComplexType.superTypes_deepCopy, mem_foldl_appendNew] at mem
    exact extended v (mem.resolve_left List.not_mem_nil)
  subTypes := by
    rw [ComplexType.subTypes_deepCopy]
    exact nofun

/-- Before anything is copied, every type is its own source. -/
theorem IsComplete.shadowedBy_self (h : r.IsComplete) : r.ShadowedBy (fun u => u) r where
  grows := .refl r
  fixed _ _ := rfl
  shadows u t found := by
    refine ⟨t, found, rfl, h.reachable.isProper u t found, List.Subset.refl _, ?_, ?_⟩
    · intro v super
      obtain ⟨n, here, -⟩ := h.closed u t found (h.frozen u t found) v super
      exact ⟨mem_ids_of_get? here, super⟩
    · intro v sub
      obtain ⟨t', here, -⟩ := h.listsHeirs u t found v sub
      exact ⟨mem_ids_of_complex? here, sub⟩
  added u t found := ⟨[], by simp [found], nofun⟩

namespace ShadowedBy

variable (S : r.ShadowedBy source s)

include S

theorem nextId_not_mem : s.nextId ∉ r.ids := by
  intro mem
  rw [mem_ids_iff_get?, S.grows.get?_nextId] at mem
  cases mem

theorem mem_ids (mem : u ∈ r.ids) : u ∈ s.ids := by
  obtain ⟨n, found⟩ := Option.isSome_iff_exists.1 (mem_ids_iff_get?.1 mem)
  obtain ⟨n', found', -⟩ := S.grows u n found
  exact mem_ids_of_get? found'

/-- A shadow of a type is added, which lists nothing. -/
theorem push (found : r.complex? x = some t) (bare : t'.subTypes = [])
    (shadow : (s.push (.complex t')).Shadows (Function.update source s.nextId x) t' t) :
    r.ShadowedBy (Function.update source s.nextId x) (s.push (.complex t')) where
  grows := S.grows.push _
  fixed u mem := by
    have other : u ≠ s.nextId := ne_of_mem_of_not_mem mem S.nextId_not_mem
    rw [Function.update_of_ne other, S.fixed u mem]
  shadows u t₁ found₁ := by
    have K := KeepsSources.push s source (.complex t') x
    rcases complex?_push s u _ found₁ with ⟨rfl, same⟩ | found₁
    · rw [← TypeNode.complex.inj same, Function.update_self]
      exact ⟨t, found, shadow⟩
    · obtain ⟨t₀, before, shadows⟩ := S.shadows u t₁ found₁
      have known : u ∈ s.ids := mem_ids_of_complex? found₁
      exact ⟨t₀, by rw [K.sources u known, before], shadows.keep K⟩
  added u t₁ found₁ := by
    rcases complex?_push s u _ found₁ with ⟨rfl, same⟩ | found₁
    · have absent : r.complex? s.nextId = none := by rw [complex?, S.grows.get?_nextId]; rfl
      rw [← TypeNode.complex.inj same, bare, absent]
      exact ⟨[], rfl, fun _ mem => absurd mem List.not_mem_nil⟩
    · exact S.added u t₁ found₁

/-- A type is told of a copy whose source its own source lists. -/
theorem tell (known : c ∈ s.ids) (new : c ∉ r.ids)
    (listed : ∀ t, r.complex? (source u) = some t → source c ∈ t.subTypes) :
    r.ShadowedBy source (s.adjust u (·.registerSubType c)) := by
  rw [adjust]
  split
  · next t' found =>
    have K : KeepsSources s source (s.set u (.complex (t'.registerSubType c))) source :=
      .of_size_eq source (size_set _)
    refine ⟨S.grows.set_registerSubType found c, S.fixed, ?_, ?_⟩
    · intro v t₁ found₁
      rcases complex?_set s u v _ found₁ with ⟨rfl, same, -⟩ | ⟨-, found₁⟩
      · obtain rfl := TypeNode.complex.inj same
        obtain ⟨t, before, shadows⟩ := S.shadows v t' found
        refine ⟨t, before, { shadows.keep K with subTypes := fun w mem => ?_ }⟩
        rcases mem_appendNew.1 mem with old | rfl
        · exact (shadows.keep K).subTypes w old
        · exact ⟨K.ids known, listed t before⟩
      · obtain ⟨t, before, shadows⟩ := S.shadows v t₁ found₁
        exact ⟨t, before, shadows.keep K⟩
    · intro v t₁ found₁
      rcases complex?_set s u v _ found₁ with ⟨rfl, same, -⟩ | ⟨-, found₁⟩
      · obtain rfl := TypeNode.complex.inj same
        obtain ⟨copies, all, news⟩ := S.added v t' found
        show ∃ copies, appendNew t'.subTypes c = _ ∧ _
        rw [appendNew]
        split
        · exact ⟨copies, all, news⟩
        · refine ⟨copies ++ [c], by rw [all, List.append_assoc], fun w mem => ?_⟩
          rcases List.mem_append.1 mem with mem | mem
          · exact news w mem
          · rwa [List.mem_singleton.1 mem]
      · exact S.added v t₁ found₁
  · exact S

theorem foldl_tell (known : c ∈ s.ids) (new : c ∉ r.ids) {l : List TypeId}
    (listed : ∀ u ∈ l, ∀ t, r.complex? (source u) = some t → source c ∈ t.subTypes) :
    r.ShadowedBy source (l.foldl (fun s u => s.adjust u (·.registerSubType c)) s) := by
  induction l generalizing s with
  | nil => exact S
  | cons u rest ih =>
    refine ih (S.tell known new (listed u List.mem_cons_self)) ?_ fun v mem =>
      listed v (List.mem_cons_of_mem u mem)
    rwa [ids_congr (size_adjust _)]

end ShadowedBy

/-! ### The copy of a tree -/

/-- The copies are there, and have the sources of what they were made of. -/
def MadeFrom (s : Repository) (source : TypeId → TypeId) (copies : List (TypeId × TypeId)) :
    Prop :=
  ∀ u c, (u, c) ∈ copies → u ∈ s.ids ∧ c ∈ s.ids ∧ source c = source u

namespace MadeFrom

variable {copies : List (TypeId × TypeId)} (C : s.MadeFrom source copies)

include C

theorem keep (K : KeepsSources s source s' source') : s'.MadeFrom source' copies := by
  intro u c copied
  obtain ⟨known, known', same⟩ := C u c copied
  exact ⟨K.ids known, K.ids known', by rw [K.sources u known, K.sources c known', same]⟩

theorem cons (known : u ∈ s.ids) (known' : c ∈ s.ids) (same : source c = source u) :
    s.MadeFrom source ((u, c) :: copies) := by
  intro v w copied
  rcases List.mem_cons.1 copied with here | copied
  · cases here
    exact ⟨known, known', same⟩
  · exact C v w copied

/-- A copy stands for what it was made of. -/
theorem copyOr (known : u ∈ s.ids) :
    Edit.copyOr copies u ∈ s.ids ∧ source (Edit.copyOr copies u) = source u := by
  rw [Edit.copyOr]
  cases copied : copies.lookup u with
  | none => exact ⟨known, rfl⟩
  | some c => exact (C u c (mem_of_lookup copied)).2

theorem map_copyOr {l sources : List TypeId} (h : ∀ v ∈ l, v ∈ s.ids ∧ source v ∈ sources) :
    ∀ v ∈ l.map (Edit.copyOr copies), v ∈ s.ids ∧ source v ∈ sources := by
  intro v mem
  obtain ⟨w, listed, rfl⟩ := List.mem_map.1 mem
  obtain ⟨known, super⟩ := h w listed
  obtain ⟨present, stands⟩ := C.copyOr known
  exact ⟨present, stands ▸ super⟩

end MadeFrom

/-- While a tree is copied, all types have sources, and the copies those of what they were made
of. -/
structure Shadowing (r : Repository) (source : TypeId → TypeId) (s : Repository)
    (copies : List (TypeId × TypeId)) : Prop where
  shadowed : r.ShadowedBy source s
  made : s.MadeFrom source copies
  new : ∀ c ∈ copies.map Prod.snd, c ∉ r.ids

namespace Shadowing

variable {copies before : List (TypeId × TypeId)} {p y : TypeId}

theorem start (S : r.ShadowedBy source s) : r.Shadowing source s [] :=
  ⟨S, fun _ _ copied => absurd copied List.not_mem_nil, fun _ copied =>
    absurd copied List.not_mem_nil⟩

variable (S : r.Shadowing source s copies)

include S

/-- A type is copied, and the types that it extends, or their copies, are told. -/
theorem attach (h : r.IsComplete) (found : s.complex? u = some t') :
    ∃ source', r.Shadowing source' (s.attachCopy u t' copies) ((u, s.nextId) :: copies) := by
  obtain ⟨t, before, shadow⟩ := S.shadowed.shadows u t' found
  have known : u ∈ s.ids := mem_ids_of_complex? found
  rw [attachCopy]
  generalize supers : t'.shape.superTypes.map (Edit.copyOr ((u, s.nextId) :: copies)) = superTypes
  generalize there : t'.deepCopy s.nextId superTypes = copy
  generalize same : Function.update source s.nextId (source u) = source'
  have K : KeepsSources s source (s.push (.complex copy)) source' :=
    same ▸ KeepsSources.push s source _ _
  have here : source' s.nextId = source u := by rw [← same, Function.update_self]
  have present : s.nextId ∈ (s.push (.complex copy)).ids :=
    mem_ids_iff_get?.2 (by rw [get?_push, if_pos rfl]; rfl)
  have C' : (s.push (.complex copy)).MadeFrom source' ((u, s.nextId) :: copies) :=
    (S.made.keep K).cons (K.ids known) present (here.trans (K.sources u known).symm)
  have extended := C'.map_copyOr (shadow.keep K).superTypes
  rw [supers] at extended
  have S' : r.ShadowedBy source' (s.push (.complex copy)) := by
    have shadow' := (shadow.keep K).deepCopy extended s.nextId
    rw [there] at shadow'
    subst same
    exact S.shadowed.push before (by rw [← there, t'.subTypes_deepCopy]) shadow'
  -- a type that is extended lists what extends it
  have listed : ∀ v ∈ superTypes, ∀ t₁, r.complex? (source' v) = some t₁ →
      source' s.nextId ∈ t₁.subTypes := by
    intro v mem t₁ found₁
    rw [here]
    exact h.listsFrozen _ t before (h.frozen _ t before) _ (extended v mem).2 t₁ found₁
  have size : (s.attach copy superTypes).types.size = (s.push (.complex copy)).types.size := by
    rw [size_attach, Repository.push, Array.size_push]
  have K' : KeepsSources (s.push (.complex copy)) source' (s.attach copy superTypes) source' :=
    .of_size_eq source' size
  have new := S.shadowed.nextId_not_mem
  exact ⟨source', S'.foldl_tell present new listed, C'.keep K',
    List.forall_mem_cons.2 ⟨new, S.new⟩⟩

/-- The copy of a type is told of the copy of one that it lists. -/
theorem tell (source_p : (x, p) ∈ copies) (source_c : (y, c) ∈ copies)
    (listed : y ∈ s.declaredSubTypesOf x) :
    r.Shadowing source (s.adjust p (·.registerSubType c)) copies := by
  obtain ⟨-, -, parent⟩ := S.made x p source_p
  obtain ⟨-, known, child⟩ := S.made y c source_c
  have new : c ∉ r.ids := S.new c (List.mem_map_of_mem source_c)
  have K : KeepsSources s source (s.adjust p (·.registerSubType c)) source :=
    .of_size_eq source (size_adjust _)
  refine ⟨S.shadowed.tell known new fun t before => ?_, S.made.keep K, S.new⟩
  obtain ⟨t', found, listed⟩ := exists_of_mem_declaredSubTypesOf listed
  obtain ⟨t₁, before₁, shadow⟩ := S.shadowed.shadows x t' found
  rw [parent, before₁] at before
  obtain rfl := Option.some.inj before
  rw [child]
  exact (shadow.subTypes y listed).2

end Shadowing

theorem keeps_shadowing (h : r.IsComplete) :
    CopyRun.Keeps fun s copies => ∃ source, r.Shadowing source s copies where
  attach := by
    rintro s copies x t ⟨source, S⟩ - found
    exact S.attach h found
  tell := by
    rintro s copies before x p y c ⟨source, S⟩ last known listed
    have later := last.subset (mem_of_lookup known)
    exact ⟨source, S.tell later (last.subset List.mem_cons_self) listed⟩

end Repository

/-! ### Any number of copies -/

namespace Edit

open Repository

variable {r : Repository}

theorem keeps_shadowedBy_copy (h : r.IsComplete) (id : TypeId) :
    Keeps (fun s => ∃ source, r.ShadowedBy source s) (Edit.copy id) := by
  rintro m ⟨source, S⟩
  have start : ∃ source, r.Shadowing source m.repository [] := ⟨source, .start S⟩
  refine ((keeps_shadowing h).yields_copy ?_ start id).mono fun out m' => ?_
  · rintro s copies ⟨source, S⟩ u t' found
    obtain ⟨t, -, shadow⟩ := S.shadowed.shadows u t' found
    exact shadow.proper
  · rintro ⟨copies, source', S'⟩
    exact ⟨source', S'.shadowed⟩

theorem keeps_shadowedBy_copyShallow (id : TypeId) :
    Keeps (fun s => ∃ source, r.ShadowedBy source s) (copyShallow id) := by
  refine keeps_ask_bind fun t' m S found => ?_
  obtain ⟨source, S⟩ := S
  obtain ⟨t, before, shadow⟩ := S.shadows id t' (complex_eq_ok_iff.1 found)
  exact ⟨_, S.push before rfl ⟨shadow.name, ⟨List.not_mem_nil, List.not_mem_nil, .nil⟩, nofun, nofun,
    nofun⟩⟩

end Edit

/-- The operation makes a copy. -/
def Operation.IsCopying (operation : Operation) : Prop :=
  ∃ id, operation = .copy id ∨ operation = .copyShallow id

namespace Repository

/-- However often types are copied, all types have sources in the complete model. -/
theorem IsComplete.foldl_perform {r s : Repository} (h : r.IsComplete)
    {operations : List Operation} (copying : ∀ operation ∈ operations, operation.IsCopying)
    (S : ∃ source, r.ShadowedBy source s) :
    ∃ source, r.ShadowedBy source (operations.foldl Repository.perform s) := by
  induction operations generalizing s with
  | nil => exact S
  | cons operation rest ih =>
    refine ih (fun o mem => copying o (List.mem_cons_of_mem _ mem)) ?_
    obtain ⟨id, rfl | rfl⟩ := copying operation List.mem_cons_self
    · have keeps : Edit.Keeps (fun s => ∃ source, r.ShadowedBy source s) (Operation.copy id).run :=
        Edit.keeps_map (Edit.keeps_shadowedBy_copy h id)
      exact perform_keeps keeps S
    · have keeps : Edit.Keeps (fun s => ∃ source, r.ShadowedBy source s)
          (Operation.copyShallow id).run :=
        Edit.keeps_map (Edit.keeps_shadowedBy_copyShallow id)
      exact perform_keeps keeps S

end Repository

end EntityModel
