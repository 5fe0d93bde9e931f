/-
What a search of a hierarchy answers.

* `subTypes_enumerates` — the subtypes of a type are the types that can be reached from it
  through direct subtypes, in depth-first order;
* `isAssignable_iff` — a type is assignable to all that bear its name or that of a type above it;
* `isAssignable_eq_iff_asks` — the same is answered where each type asks those above it, and one
  that is asked again says no.

The direct subtypes may form cycles, and may lead to types that are simple or unknown; so may the
super types.
-/
import EntityModel.Proofs.DepthFirst
import EntityModel.Proofs.SubtypeTrees

namespace EntityModel

/-- A search among answers that do not fail. -/
theorem anyM_eq_ok {α ε : Type} {f : α → Except ε Bool} {p : α → Bool} {l : List α}
    (h : ∀ x ∈ l, f x = .ok (p x)) : l.anyM f = .ok (l.any p) := by
  induction l with
  | nil => rfl
  | cons x rest ih =>
    obtain ⟨first, others⟩ := List.forall_mem_cons.1 h
    rw [List.anyM, first, List.any_cons, ih others]
    cases p x <;> rfl

section Search

variable {α ε : Type} {f : α → Except ε Bool} {x : α} {l l' : List α} {a : Except ε Bool}

theorem anyM_cons_of_no (h : f x = .ok false) : (x :: l).anyM f = l.anyM f := by
  rw [List.anyM, h]
  rfl

theorem anyM_cons_of_ne (h : f x = a) (stop : a ≠ .ok false) : (x :: l).anyM f = a := by
  rw [List.anyM, h]
  match a, stop with
  | .ok true, _ => rfl
  | .error _, _ => rfl

theorem anyM_append_of_no (h : l.anyM f = .ok false) : (l ++ l').anyM f = l'.anyM f := by
  induction l with
  | nil => rfl
  | cons x rest ih =>
    by_cases first : f x = .ok false
    · rw [anyM_cons_of_no first] at h
      exact (anyM_cons_of_no first).trans (ih h)
    · rw [anyM_cons_of_ne rfl first] at h
      exact absurd h first

theorem anyM_append_of_ne (h : l.anyM f = a) (stop : a ≠ .ok false) : (l ++ l').anyM f = a := by
  induction l with
  | nil => exact absurd h.symm stop
  | cons x rest ih =>
    by_cases first : f x = .ok false
    · rw [anyM_cons_of_no first] at h
      exact (anyM_cons_of_no first).trans (ih h)
    · rw [anyM_cons_of_ne rfl first] at h
      exact anyM_cons_of_ne h stop

end Search

namespace Repository

variable {r : Repository} {id other u v : TypeId}

/-! ### Subtypes -/

/-- The complex type `u` lists the complex type `v` as a direct subtype. -/
def HasSubType (r : Repository) (u v : TypeId) : Prop :=
  (∃ t, r.complex? u = some t ∧ v ∈ t.subTypes) ∧ ∃ t, r.complex? v = some t

theorem mem_complexSubTypesOf_iff_hasSubType : v ∈ r.complexSubTypesOf u ↔ r.HasSubType u v := by
  rw [mem_complexSubTypesOf, HasSubType, Option.isSome_iff_exists]
  refine and_congr_left fun _ => ⟨exists_of_mem_declaredSubTypesOf, ?_⟩
  rintro ⟨t, found, listed⟩
  exact (mem_declaredSubTypesOf found).2 listed

theorem depthFirst_iff_subTypes {l : List TypeId} :
    DepthFirst r.complexSubTypesOf [] [id] l ↔ l = id :: r.subTypes id := by
  rw [depthFirst_iff fun _ _ => mem_ids_of_mem_complexSubTypesOf, visit_eq_tree, tree]

/-- The subtypes of a type are all complex types that can be reached from it through direct
subtypes.  None is listed twice, and the type itself is not listed.  They stand in depth-first
order, in which the direct subtypes of a type have the order of its list. -/
theorem subTypes_enumerates (r : Repository) (id : TypeId) :
    (∀ u, u ∈ r.subTypes id ↔ u ≠ id ∧ Relation.TransGen r.HasSubType id u) ∧
      (r.subTypes id).Nodup ∧
      ∀ l, DepthFirst r.complexSubTypesOf [] [id] l ↔ l = id :: r.subTypes id := by
  refine ⟨fun u => ?_, nodup_visit, fun l => depthFirst_iff_subTypes⟩
  simp only [subTypes, mem_visit_iff_transGen fun _ _ => mem_ids_of_mem_complexSubTypesOf,
    mem_complexSubTypesOf_iff_hasSubType]

/-! ### Names above a type -/

/-- The type, or one that it inherits from through types of either sort, is called `name`. -/
def BearsName (r : Repository) (id : TypeId) (name : String) : Prop :=
  ∃ u n, Relation.ReflTransGen (fun u v => v ∈ r.superTypesOf u) id u ∧ r.get? u = some n ∧
    n.name = name

theorem mem_ids_of_mem_superTypesOf (h : v ∈ r.superTypesOf u) : u ∈ r.ids := by
  refine mem_ids_iff_get?.2 ?_
  rw [superTypesOf] at h
  split at h
  · next found => rw [found]; rfl
  · cases h

theorem mem_ancestry_iff :
    u ∈ r.ancestry id ↔ Relation.ReflTransGen (fun u v => v ∈ r.superTypesOf u) id u :=
  mem_visit_iff_reflTransGen fun _ _ => mem_ids_of_mem_superTypesOf

/-- Each type above is a super type of one that is searched. -/
theorem bearsName_iff {name : String} : r.BearsName id name ↔
    ((r.ancestry id).any (fun u => (r.superTypesOf u).any fun v =>
      (r.get? v).any (·.name == name)) || (r.get? id).any (·.name == name)) = true := by
  simp only [Bool.or_eq_true, List.any_eq_true, Option.any_eq_true, beq_iff_eq]
  constructor
  · rintro ⟨v, n, path, found, named⟩
    rcases Relation.ReflTransGen.cases_tail path with rfl | ⟨u, path, edge⟩
    · exact .inr ⟨n, found, named⟩
    · exact .inl ⟨u, mem_ancestry_iff.2 path, v, edge, n, found, named⟩
  · rintro (⟨u, mem, v, edge, n, found, named⟩ | ⟨n, found, named⟩)
    · exact ⟨v, n, .tail (mem_ancestry_iff.1 mem) edge, found, named⟩
    · exact ⟨id, n, .refl, found, named⟩

theorem anyNamed_eq_ok {name : String} {ids : List TypeId} (known : ∀ u ∈ ids, (r.get? u).isSome) :
    r.anyNamed name ids = .ok (ids.any fun u => (r.get? u).any (·.name == name)) := by
  refine anyM_eq_ok fun u mem => ?_
  obtain ⟨n, found⟩ := Option.isSome_iff_exists.1 (known u mem)
  rw [get_eq_ok found, found]
  rfl

section Known

variable {o : TypeNode} (found : r.get? other = some o)
variable (known : ∀ u, Relation.ReflTransGen (fun u v => v ∈ r.superTypesOf u) id u →
  (r.get? u).isSome)

include found known

/-- Among known types, the answer is found by name one level above each type that is searched,
and then at the type itself. -/
theorem isAssignable_eq_ok : r.isAssignable id other =
    .ok (((r.ancestry id).any fun u => (r.superTypesOf u).any fun v =>
      (r.get? v).any (·.name == o.name)) || (r.get? id).any (·.name == o.name)) := by
  obtain ⟨n, here⟩ := Option.isSome_iff_exists.1 (known id .refl)
  have above : ∀ u ∈ r.ancestry id, r.anyNamed o.name (r.superTypesOf u) =
      .ok ((r.superTypesOf u).any fun v => (r.get? v).any (·.name == o.name)) :=
    fun u mem => anyNamed_eq_ok fun v edge => known v (.tail (mem_ancestry_iff.1 mem) edge)
  rw [isAssignable, get_eq_ok here, get_eq_ok found]
  simp only [bind, Except.bind]
  rw [anyM_eq_ok above, here]
  cases (r.ancestry id).any fun u => (r.superTypesOf u).any fun v =>
      (r.get? v).any (·.name == o.name) with
  | true => rfl
  | false => rfl

/-- Where all that is above a type is known, the answer is whether the type, or one above it, bears
the name of the other. -/
theorem isAssignable_iff :
    (r.isAssignable id other = .ok true ↔ r.BearsName id o.name) ∧
      (r.isAssignable id other = .ok false ↔ ¬ r.BearsName id o.name) := by
  rw [isAssignable_eq_ok found known, bearsName_iff]
  simp only [Except.ok.injEq, Bool.not_eq_true, and_self]

end Known

/-! ### The search that asks the types above

`isAssignable` goes through a list of types.  The same question can be put to a type, which looks
one level ahead, hands it on to its super types and at last looks at itself.  A type may be asked
again, through another type or through itself; it then says no, since whoever asked it first has
its answer. -/

/-- Whether a super type of the type is called `name`. -/
def aheadNamed (r : Repository) (name : String) (id : TypeId) : Except ModelError Bool :=
  r.anyNamed name (r.superTypesOf id)

/-- The types are asked one after the other, until one does not say no.  Those that were asked for
the first time are `asked`. -/
inductive Asks (r : Repository) (name : String) :
    (marked ids asked : List TypeId) → (answer : Except ModelError Bool) → Prop
  | done (marked) : Asks r name marked [] [] (.ok false)
  | unknown {marked x ids e} (lost : r.get x = .error e) :
      Asks r name marked (x :: ids) [] (.error e)
  | again {marked x n ids l a} (here : r.get x = .ok n) (seen : x ∈ marked)
      (rest : Asks r name marked ids l a) : Asks r name marked (x :: ids) l a
  | ahead {marked x n ids a} (here : r.get x = .ok n) (fresh : x ∉ marked)
      (look : r.aheadNamed name x = a) (stop : a ≠ .ok false) :
      Asks r name marked (x :: ids) [x] a
  | above {marked x n ids below a} (here : r.get x = .ok n) (fresh : x ∉ marked)
      (look : r.aheadNamed name x = .ok false)
      (sub : Asks r name (x :: marked) (r.superTypesOf x) below a) (stop : a ≠ .ok false) :
      Asks r name marked (x :: ids) (x :: below) a
  | itself {marked x n ids below} (here : r.get x = .ok n) (fresh : x ∉ marked)
      (look : r.aheadNamed name x = .ok false)
      (sub : Asks r name (x :: marked) (r.superTypesOf x) below (.ok false))
      (named : n.name = name) : Asks r name marked (x :: ids) (x :: below) (.ok true)
  | next {marked x n ids below l a} (here : r.get x = .ok n) (fresh : x ∉ marked)
      (look : r.aheadNamed name x = .ok false)
      (sub : Asks r name (x :: marked) (r.superTypesOf x) below (.ok false))
      (unlike : n.name ≠ name) (rest : Asks r name (x :: marked ++ below) ids l a) :
      Asks r name marked (x :: ids) (x :: (below ++ l)) a

section Asking

variable {name : String} {marked ids l : List TypeId} {a : Except ModelError Bool}

/-- Whatever is asked, the search ends. -/
theorem exists_asks (r : Repository) (name : String) (marked ids : List TypeId) :
    ∃ l a, r.Asks name marked ids l a := by
  match ids with
  | [] => exact ⟨_, _, .done marked⟩
  | x :: ids =>
    match here : r.get x with
    | .error e => exact ⟨_, _, .unknown here⟩
    | .ok n =>
      have vertex : x ∈ r.ids := mem_ids_of_get? (get_eq_ok_iff.1 here)
      by_cases seen : x ∈ marked
      · obtain ⟨l, a, rest⟩ := exists_asks r name marked ids
        exact ⟨l, a, .again here seen rest⟩
      by_cases look : r.aheadNamed name x = .ok false
      · obtain ⟨below, a, sub⟩ := exists_asks r name (x :: marked) (r.superTypesOf x)
        by_cases no : a = .ok false
        · subst no
          by_cases named : n.name = name
          · exact ⟨_, _, .itself here seen look sub named⟩
          · obtain ⟨l, a, rest⟩ := exists_asks r name (x :: marked ++ below) ids
            exact ⟨_, a, .next here seen look sub named rest⟩
        · exact ⟨_, a, .above here seen look sub no⟩
      · exact ⟨_, _, .ahead here seen rfl look⟩
termination_by ((unseen r.ids marked).length, ids.length)
decreasing_by
  · exact Prod.Lex.right _ (Nat.lt_succ_self _)
  · exact Prod.Lex.left _ _ (length_unseen_cons_lt vertex seen)
  · exact Prod.Lex.right' _ (length_unseen_le (List.subset_append_of_subset_left _
      (List.subset_cons_self x marked))) (Nat.lt_succ_self _)

/-- The types exist and are called otherwise. -/
def Unlike (r : Repository) (name : String) (ids : List TypeId) : Prop :=
  ∀ u ∈ ids, ∃ n, r.get u = .ok n ∧ n.name ≠ name

theorem anyNamed_cons {n : TypeNode} (here : r.get u = .ok n) : r.anyNamed name (u :: ids) =
    if n.name = name then .ok true else r.anyNamed name ids := by
  have first : (do return (← r.get u).name == name) = Except.ok (n.name == name) := by
    rw [here]
    rfl
  by_cases named : n.name = name
  · rw [beq_iff_eq.2 named] at first
    rw [if_pos named, anyNamed]
    exact anyM_cons_of_ne first nofun
  · rw [beq_false_of_ne named] at first
    rw [if_neg named, anyNamed]
    exact anyM_cons_of_no first

theorem unlike_of_anyNamed (h : r.anyNamed name ids = .ok false) : r.Unlike name ids := by
  induction ids with
  | nil => exact fun _ mem => nomatch mem
  | cons x rest ih =>
    cases here : r.get x with
    | error e =>
      rw [anyNamed, List.anyM, here] at h
      cases h
    | ok n =>
      rw [anyNamed_cons here] at h
      split at h
      · cases h
      · next named => exact List.forall_mem_cons.2 ⟨⟨n, here, named⟩, ih h⟩

/-- Where none of the types is called `name`, what is above each of them need only be looked at
from the type below it: a type that is asked never finds that it is called `name` itself. -/
theorem Asks.anyM_visit (h : r.Asks name marked ids l a) (unlike : r.Unlike name ids) :
    (visit r.ids r.superTypesOf marked ids).anyM (r.aheadNamed name) = a ∧
      (a = .ok false → l = visit r.ids r.superTypesOf marked ids) := by
  have edges : ∀ u v, v ∈ r.superTypesOf u → u ∈ r.ids := fun _ _ => mem_ids_of_mem_superTypesOf
  induction h with
  | done =>
    rw [visit]
    exact ⟨rfl, fun _ => rfl⟩
  | unknown lost =>
    obtain ⟨n, here, -⟩ := unlike _ List.mem_cons_self
    rw [lost] at here
    cases here
  | again _ seen _ ih =>
    rw [visit, if_pos seen]
    exact ih fun u mem => unlike u (List.mem_cons_of_mem _ mem)
  | ahead _ fresh look stop =>
    rw [visit_cons edges fresh, anyM_cons_of_ne look stop]
    exact ⟨rfl, fun no => absurd no stop⟩
  | above _ fresh look _ stop ih =>
    obtain ⟨below, -⟩ := ih (unlike_of_anyNamed look)
    rw [visit_cons edges fresh, anyM_cons_of_no look, anyM_append_of_ne below stop]
    exact ⟨rfl, fun no => absurd no stop⟩
  | itself here _ _ _ named =>
    obtain ⟨n, here', other⟩ := unlike _ List.mem_cons_self
    rw [here] at here'
    cases here'
    exact absurd named other
  | next _ fresh look _ _ _ sub rest =>
    obtain ⟨below, asked⟩ := sub (unlike_of_anyNamed look)
    obtain ⟨others, askedToo⟩ := rest fun u mem => unlike u (List.mem_cons_of_mem _ mem)
    rw [asked rfl] at others askedToo
    rw [visit_cons edges fresh, anyM_cons_of_no look, anyM_append_of_no below, asked rfl]
    exact ⟨others, fun no => by rw [← askedToo no]⟩

section Answers

variable {n o : TypeNode} (found : r.get? other = some o) (here : r.get id = .ok n)

include found here

theorem isAssignable_eq_of_ne (h : (r.ancestry id).anyM (r.aheadNamed o.name) = a)
    (stop : a ≠ .ok false) : r.isAssignable id other = a := by
  rw [isAssignable, here, get_eq_ok found]
  show ((r.ancestry id).anyM (r.aheadNamed o.name) >>= _) = a
  rw [h]
  match a, stop with
  | .ok true, _ => rfl
  | .error _, _ => rfl

theorem isAssignable_eq_of_no (h : (r.ancestry id).anyM (r.aheadNamed o.name) = .ok false) :
    r.isAssignable id other = .ok (n.name == o.name) := by
  rw [isAssignable, here, get_eq_ok found]
  show ((r.ancestry id).anyM (r.aheadNamed o.name) >>= _) = _
  rw [h]
  rfl

end Answers

theorem Asks.isAssignable_eq {o : TypeNode} (found : r.get? other = some o)
    (h : r.Asks o.name [] [id] l a) : r.isAssignable id other = a := by
  have root : r.ancestry id = id :: visit r.ids r.superTypesOf [id] (r.superTypesOf id) :=
    visit_singleton fun _ _ => mem_ids_of_mem_superTypesOf
  cases h with
  | unknown lost =>
    rw [isAssignable, lost]
    rfl
  | again _ seen => cases seen
  | ahead here _ look stop =>
    exact isAssignable_eq_of_ne found here (root ▸ anyM_cons_of_ne look stop) stop
  | above here _ look sub stop =>
    have below := (sub.anyM_visit (unlike_of_anyNamed look)).1
    exact isAssignable_eq_of_ne found here (root ▸ (anyM_cons_of_no look).trans below) stop
  | itself here _ look sub named =>
    have below := (sub.anyM_visit (unlike_of_anyNamed look)).1
    rw [isAssignable_eq_of_no found here (root ▸ (anyM_cons_of_no look).trans below),
      beq_iff_eq.2 named]
  | next here _ look sub unlike rest =>
    have below := (sub.anyM_visit (unlike_of_anyNamed look)).1
    rw [isAssignable_eq_of_no found here (root ▸ (anyM_cons_of_no look).trans below),
      beq_false_of_ne unlike]
    cases rest
    rfl

/-- To go through the list of types answers what the type answers when it is asked, errors
included. -/
theorem isAssignable_eq_iff_asks {o : TypeNode} (found : r.get? other = some o) :
    r.isAssignable id other = a ↔ ∃ l, r.Asks o.name [] [id] l a := by
  constructor
  · rintro rfl
    obtain ⟨l, a, asks⟩ := exists_asks r o.name [] [id]
    exact ⟨l, asks.isAssignable_eq found ▸ asks⟩
  · rintro ⟨l, asks⟩
    exact asks.isAssignable_eq found

end Asking

/-- A deposit is a loan and a contract, which extend each other; a rate is a simple type above
the contract. -/
def contracts : Repository :=
  [.addComplexType ⟨"", "Deposit"⟩ true {}, .addComplexType ⟨"", "Loan"⟩ true {},
    .addComplexType ⟨"", "Contract"⟩ true {}, .addSimpleType ⟨"", "Rate"⟩,
    .addComplexType ⟨"past", "Rate"⟩ true {}, .addSuperType ⟨33⟩ ⟨34⟩, .addSuperType ⟨33⟩ ⟨35⟩,
    .addSuperType ⟨34⟩ ⟨35⟩, .addSuperType ⟨35⟩ ⟨34⟩,
    .addSuperType ⟨35⟩ ⟨36⟩].foldl perform (Session.start {}).repository

/-- A deposit may be assigned to what is called a rate, whatever its namespace; the search ends
although loans and contracts are above each other. -/
theorem isAssignable_iff_contracts : ∃ o, contracts.get? ⟨37⟩ = some o ∧
    (∀ u, Relation.ReflTransGen (fun u v => v ∈ contracts.superTypesOf u) ⟨33⟩ u →
      (contracts.get? u).isSome) ∧
    contracts.isAssignable ⟨33⟩ ⟨37⟩ = .ok true ∧ contracts.BearsName ⟨33⟩ o.name := by
  have facts : contracts.ancestry ⟨33⟩ = [⟨33⟩, ⟨34⟩, ⟨35⟩, ⟨36⟩] ∧
      [(⟨33⟩ : TypeId), ⟨34⟩, ⟨35⟩, ⟨36⟩].all (fun u => (contracts.get? u).isSome) = true ∧
      (contracts.get? ⟨37⟩).isSome = true ∧ contracts.isAssignable ⟨33⟩ ⟨37⟩ = .ok true := by
    rw [contracts, Session.repository_start]
    cbv
  -- from here on it does not matter what the repository is
  generalize contracts = r at *
  obtain ⟨ancestry, types, rate, answer⟩ := facts
  obtain ⟨o, found⟩ := Option.isSome_iff_exists.1 rate
  have known : ∀ u, Relation.ReflTransGen (fun u v => v ∈ r.superTypesOf u) ⟨33⟩ u →
      (r.get? u).isSome := by
    intro u path
    have mem := mem_ancestry_iff.2 path
    rw [ancestry] at mem
    exact List.all_eq_true.1 types u mem
  exact ⟨o, found, known, answer, (isAssignable_iff found known).1.1 answer⟩

end Repository

end EntityModel
