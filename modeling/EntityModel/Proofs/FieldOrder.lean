/-
The order of fields.

A table lists its names as they first came (`names_addAll`), and with the names in their
order its lookups determine it (`ext_find?`).  So the fields of a flattened type stand in the
order of what its super types have, then what it declares, then its keys:

* `eraseDups_append_eq`, `eraseDups_append_of_subset` — which occurrences come first;
* `names_flatten` — the names of a flattened type;
* `Step.inheritsFirst` — on a frozen type, what its super types have comes first.
-/
import EntityModel.Proofs.ClosedTypes

namespace EntityModel

/-! ### First occurrences -/

section FirstOccurrences

variable {α : Type} [DecidableEq α] {as bs : List α}

theorem eraseDups_of_nodup (h : as.Nodup) : as.eraseDups = as := by
  induction as with
  | nil => rfl
  | cons a rest ih =>
    obtain ⟨fresh, distinct⟩ := List.nodup_cons.1 h
    have kept : (rest.filter fun b => !b == a) = rest :=
      List.filter_eq_self.2 fun b mem => by simpa using ne_of_mem_of_not_mem mem fresh
    rw [List.eraseDups_cons, kept, ih distinct]

/-- The induction along which `eraseDups` computes: what equals the first is left out. -/
theorem eraseDupsInduction {motive : List α → Prop} (nil : motive [])
    (cons : ∀ a rest, motive (rest.filter fun b => !b == a) → motive (a :: rest)) (l : List α) :
    motive l := by
  induction length : l.length using Nat.strongRecOn generalizing l with
  | ind n ih =>
    subst length
    cases l with
    | nil => exact nil
    | cons a rest =>
      exact cons a rest (ih _ (Nat.lt_succ_of_le (List.length_filter_le ..)) _ rfl)

theorem eraseDups_filter (p : α → Bool) (l : List α) :
    (l.filter p).eraseDups = l.eraseDups.filter p := by
  induction l using eraseDupsInduction with
  | nil => rfl
  | cons a rest tail =>
    rw [List.eraseDups_cons]
    cases holds : p a with
    | true =>
      rw [List.filter_cons_of_pos holds, List.filter_cons_of_pos holds, List.eraseDups_cons,
        ← tail, List.filter_filter, List.filter_filter]
      simp only [Bool.and_comm]
    | false =>
      -- what satisfies `p` is not `a`
      have other : ∀ b, (p b && !b == a) = p b := by
        intro b
        by_cases same : b = a
        · rw [same, holds]
          rfl
        · simp [same]
      have fails : ¬ p a = true := by simp [holds]
      rw [List.filter_cons_of_neg fails, List.filter_cons_of_neg fails, ← tail,
        List.filter_filter]
      simp only [other]

theorem nodup_eraseDups (l : List α) : l.eraseDups.Nodup := by
  induction l using eraseDupsInduction with
  | nil => exact .nil
  | cons a rest tail =>
    rw [List.eraseDups_cons]
    exact List.nodup_cons.2 ⟨by simp, tail⟩

/-- Of two lists, the second adds what the first does not have. -/
theorem eraseDups_append_eq (as bs : List α) :
    (as ++ bs).eraseDups = as.eraseDups ++ bs.eraseDups.filter (· ∉ as) := by
  rw [List.eraseDups_append, List.removeAll, eraseDups_filter]
  congr 2
  funext b
  simp

theorem eraseDups_append_congr {as' bs' : List α} (left : as.eraseDups = as'.eraseDups)
    (right : bs.eraseDups = bs'.eraseDups) : (as ++ bs).eraseDups = (as' ++ bs').eraseDups := by
  have mem : ∀ b, b ∈ as ↔ b ∈ as' := fun b => by
    rw [← List.mem_eraseDups, left, List.mem_eraseDups]
  rw [eraseDups_append_eq, eraseDups_append_eq, left, right]
  simp only [mem]

theorem eraseDups_eraseDups (l : List α) : l.eraseDups.eraseDups = l.eraseDups :=
  eraseDups_of_nodup (nodup_eraseDups l)

theorem eraseDups_append_of_subset (h : bs ⊆ as) : (as ++ bs).eraseDups = as.eraseDups := by
  have none : bs.eraseDups.filter (· ∉ as) = [] :=
    List.filter_eq_nil_iff.2 fun b mem => by simpa using h (List.mem_eraseDups.1 mem)
  rw [eraseDups_append_eq, none, List.append_nil]

theorem eraseDups_prefix_append (as bs : List α) : as.eraseDups <+: (as ++ bs).eraseDups :=
  ⟨_, (eraseDups_append_eq as bs).symm⟩

/-- What comes first anyway may be put first once more. -/
theorem eraseDups_append_of_prefix (distinct : bs.Nodup) (h : as.eraseDups <+: bs) :
    (as ++ bs).eraseDups = bs := by
  obtain ⟨rest, rfl⟩ := h
  have fresh : ∀ b ∈ rest, b ∉ as.eraseDups := fun b mem mem' =>
    (List.nodup_append.1 distinct).2.2 b mem' b mem rfl
  have kept : rest.filter (· ∉ as) = rest :=
    List.filter_eq_self.2 fun b mem => by simpa using fresh b mem
  have first : (as ++ as.eraseDups).eraseDups = as.eraseDups :=
    eraseDups_append_of_subset fun b => List.mem_eraseDups.1
  rw [← List.append_assoc, eraseDups_append_congr first rfl, eraseDups_append_eq,
    eraseDups_of_nodup (List.nodup_append.1 distinct).2.1, kept]

end FirstOccurrences

/-! ### Tables -/

namespace FieldTable

variable {t t' : FieldTable}

theorem eraseDups_names (t : FieldTable) : t.names.eraseDups = t.names :=
  eraseDups_of_nodup t.distinct

theorem names_addAll (t : FieldTable) (l : List Field) :
    (t.addAll l).names = (t.names ++ l.map Field.name).eraseDups := by
  induction l generalizing t with
  | nil => rw [List.map_nil, List.append_nil, eraseDups_names]; rfl
  | cons f rest ih =>
    have step : t.addAll (f :: rest) = (t.add f).addAll rest := rfl
    have first : (t.add f).names.eraseDups = (t.names ++ [f.name]).eraseDups := by
      rw [names_add]
      split
      · next present =>
        exact (eraseDups_append_of_subset (by simpa using present)).symm
      · rfl
    rw [step, ih, List.map_cons, ← List.singleton_append, ← List.append_assoc]
    exact eraseDups_append_congr first rfl

theorem names_insertAll (t other : FieldTable) :
    (t.insertAll other).names = (t.names ++ other.names).eraseDups := by
  rw [insertAll_eq, names_addAll, map_name_fields]

theorem names_insertMissing (t other : FieldTable) :
    (t.insertMissing other).names = (t.names ++ other.names).eraseDups := by
  show (other.entries.foldl _ t).names = (t.names ++ other.entries.map NamedField.key).eraseDups
  generalize other.entries = l
  induction l generalizing t with
  | nil => rw [List.foldl_nil, List.map_nil, List.append_nil, eraseDups_names]
  | cons e rest ih =>
    have first : (if e.key ∈ t.names then t else t.insert e.key e.field e.named).names.eraseDups =
        (t.names ++ [e.key]).eraseDups := by
      split
      · next present =>
        exact (eraseDups_append_of_subset (by simpa using present)).symm
      · next fresh => rw [names_insert, if_neg fresh]
    rw [List.foldl_cons, ih, List.map_cons, ← List.singleton_append, ← List.append_assoc]
    exact eraseDups_append_congr first rfl

/-- A table is determined by its names in their order and its lookups. -/
theorem ext_find? (names : t.names = t'.names) (found : ∀ name, t.find? name = t'.find? name) :
    t = t' := by
  have fields : ∀ l l' : List Field, l.map Field.name = l'.map Field.name →
      (∀ f ∈ l, ∀ f' ∈ l', f.name = f'.name → f = f') → l = l' := by
    intro l
    induction l with
    | nil =>
      rintro (_ | ⟨f', rest'⟩) names same
      · rfl
      · cases names
    | cons f rest ih =>
      rintro (_ | ⟨f', rest'⟩) names same
      · cases names
      · obtain ⟨head, tail⟩ := List.cons.inj names
        rw [same f List.mem_cons_self f' List.mem_cons_self head,
          ih rest' tail fun g mem g' mem' =>
            same g (List.mem_cons_of_mem f mem) g' (List.mem_cons_of_mem f' mem')]
  have listed : t.fields.map Field.name = t'.fields.map Field.name := by
    rw [map_name_fields, map_name_fields, names]
  refine ext_fields (fields _ _ listed fun f mem f' mem' same => ?_)
  have first := find?_eq_some_iff.2 ⟨mem, rfl⟩
  have second := find?_eq_some_iff.2 ⟨mem', same.symm⟩
  exact Option.some.inj (first.symm.trans ((found f.name).trans second))

theorem fields_eq_map {g : Field → Field} (keepsName : ∀ f, (g f).name = f.name)
    (names : t'.names = t.names) (found : ∀ name, t'.find? name = (t.find? name).map g) :
    t'.fields = t.fields.map g := by
  have same : t' = t.mapFields g keepsName :=
    ext_find? (by rw [names, names_mapFields]) fun name => by rw [found, find?_mapFields]
  rw [same, fields_mapFields]

end FieldTable

/-! ### Flattened types -/

namespace TypeShape

variable (s : TypeShape)

theorem names_finish :
    s.finish.fields.names = (s.fields.names ++ s.keyFields.names).eraseDups := by
  rw [finish, FieldTable.names_mapFields, FieldTable.names_insertMissing]

theorem names_inherit (heir : TypeId) (t : FieldTable) :
    (s.inherit heir t.fields).fields.names = (s.fields.names ++ t.names).eraseDups := by
  rw [fields_inherit, ← FieldTable.fields_adopt, FieldTable.names_addAll,
    FieldTable.map_name_fields, FieldTable.adopt, FieldTable.names_mapFields]

theorem names_keyFields_inherit (heir : TypeId) (l : List Field) :
    (s.inherit heir l).keyFields.names =
      (s.keyFields.names ++ (l.filter (·.isKey)).map Field.name).eraseDups := by
  rw [keyFields_inherit, FieldTable.names_addAll, List.map_map]
  rfl

end TypeShape

namespace Repository

variable {G : TypeNode → Prop} {r r' : Repository} {id s : TypeId} {t : ComplexType}

/-- The names of the fields that the types of a list have, in order. -/
def fieldNamesOf (r : Repository) (ids : List TypeId) : List String :=
  ids.flatMap fun s => ((r.complex? s).map (·.shape.fields.names)).getD []

section Order

variable (r : Repository) (id : TypeId) (instantiable : Bool) (s declared : TypeShape)

theorem fieldNamesOf_cons (v : TypeId) (ids : List TypeId) :
    r.fieldNamesOf (v :: ids) = r.fieldNamesOf [v] ++ r.fieldNamesOf ids := by
  simp only [fieldNamesOf, List.flatMap_cons, List.flatMap_nil, List.append_nil]

theorem fieldNamesOf_congr {r r' : Repository} {ids : List TypeId}
    (h : ∀ v ∈ ids, (r.complex? v).map (·.shape.fields.names) =
      (r'.complex? v).map (·.shape.fields.names)) : r.fieldNamesOf ids = r'.fieldNamesOf ids := by
  rw [fieldNamesOf, fieldNamesOf]
  exact List.flatMap_congr fun v mem => by rw [h v mem]

theorem names_inheritFrom (superType : TypeId) :
    (r.inheritFrom id instantiable s superType).fields.names =
      (s.fields.names ++ r.fieldNamesOf [superType]).eraseDups := by
  have none : (s.fields.names ++ []).eraseDups = s.fields.names := by
    rw [List.append_nil, FieldTable.eraseDups_names]
  rw [inheritFrom, fieldNamesOf, List.flatMap_singleton, complex?]
  cases r.get? superType with
  | none => exact none.symm
  | some n =>
    cases n with
    | simple t => exact none.symm
    | complex t => exact TypeShape.names_inherit _ id t.shape.fields

/-- Super types add their fields one after the other. -/
theorem names_foldl_inheritFrom (superTypes : List TypeId) :
    (superTypes.foldl (r.inheritFrom id instantiable) s).fields.names =
      (s.fields.names ++ r.fieldNamesOf superTypes).eraseDups := by
  induction superTypes generalizing s with
  | nil =>
    show s.fields.names = (s.fields.names ++ []).eraseDups
    rw [List.append_nil, FieldTable.eraseDups_names]
  | cons v rest ih =>
    rw [List.foldl_cons, ih, names_inheritFrom, fieldNamesOf_cons r v rest, ← List.append_assoc]
    exact eraseDups_append_congr (eraseDups_eraseDups _) rfl

/-- Super types add keys of the names of fields that they have. -/
theorem names_keyFields_foldl_inheritFrom (superTypes : List TypeId) :
    ∃ handed ⊆ r.fieldNamesOf superTypes,
      (superTypes.foldl (r.inheritFrom id instantiable) s).keyFields.names =
        (s.keyFields.names ++ handed).eraseDups := by
  induction superTypes generalizing s with
  | nil =>
    refine ⟨[], List.nil_subset _, ?_⟩
    rw [List.append_nil, FieldTable.eraseDups_names]
    rfl
  | cons v rest ih =>
    obtain ⟨handed, sub, names⟩ := ih (r.inheritFrom id instantiable s v)
    have here : ∃ own ⊆ r.fieldNamesOf [v],
        (r.inheritFrom id instantiable s v).keyFields.names =
          (s.keyFields.names ++ own).eraseDups := by
      have none : s.keyFields.names = (s.keyFields.names ++ []).eraseDups := by
        rw [List.append_nil, FieldTable.eraseDups_names]
      rw [inheritFrom, fieldNamesOf, List.flatMap_singleton, complex?]
      cases r.get? v with
      | none => exact ⟨[], List.nil_subset _, none⟩
      | some n =>
        cases n with
        | simple t => exact ⟨[], List.nil_subset _, none⟩
        | complex t =>
          refine ⟨_, ?_, TypeShape.names_keyFields_inherit _ id t.shape.fields.fields⟩
          show _ ⊆ t.shape.fields.names
          rw [← FieldTable.map_name_fields]
          exact (List.filter_sublist.map Field.name).subset
    obtain ⟨own, ownSub, ownNames⟩ := here
    rw [List.foldl_cons, names, ownNames, fieldNamesOf_cons r v rest]
    refine ⟨own ++ handed, ?_, ?_⟩
    · exact List.append_subset.2 ⟨List.subset_append_of_subset_left _ ownSub,
        List.subset_append_of_subset_right _ sub⟩
    · rw [← List.append_assoc]
      exact eraseDups_append_congr (eraseDups_eraseDups _) rfl

theorem names_gathered :
    (r.gathered id instantiable declared).fields.names =
      (r.fieldNamesOf (r.keptSuperTypes instantiable declared.superTypes) ++
        declared.fields.names).eraseDups := by
  rw [gathered, FieldTable.names_insertAll, names_foldl_inheritFrom]
  exact eraseDups_append_congr (eraseDups_eraseDups _) rfl

/-- The fields of a flattened type: what its super types have, then what it declares, then its
keys. -/
theorem names_flatten :
    (r.flatten id instantiable declared).fields.names =
      (r.fieldNamesOf (r.keptSuperTypes instantiable declared.superTypes) ++
        declared.fields.names ++ declared.keyFields.names).eraseDups := by
  obtain ⟨handed, sub, keys⟩ := r.names_keyFields_foldl_inheritFrom id instantiable
    { declared with fields := ∅, superTypes := [] }
    (r.keptSuperTypes instantiable declared.superTypes)
  have keys : (r.gathered id instantiable declared).keyFields.names =
      (declared.keyFields.names ++ handed).eraseDups := keys
  rw [flatten_eq_finish, TypeShape.names_finish, names_gathered, keys]
  -- a key that is handed down is the name of a field that is handed down
  have present : handed ⊆ r.fieldNamesOf (r.keptSuperTypes instantiable declared.superTypes) ++
      declared.fields.names ++ declared.keyFields.names := fun name mem =>
    List.mem_append_left _ (List.mem_append_left _ (sub mem))
  refine (eraseDups_append_congr (eraseDups_eraseDups _) (eraseDups_eraseDups _)).trans ?_
  rw [← List.append_assoc, eraseDups_append_of_subset present]

end Order

/-! ### Every step keeps inherited fields first -/

/-- The super types that a flattened type keeps all lend it their fields, or it keeps none. -/
theorem superTypes_flatten_eq (r : Repository) (id : TypeId) (instantiable : Bool)
    (declared : TypeShape) : (r.flatten id instantiable declared).superTypes =
      r.keptSuperTypes instantiable declared.superTypes ∨
        (r.flatten id instantiable declared).superTypes = [] := by
  rw [superTypes_flatten, keptSuperTypes]
  split
  · next short =>
    generalize declared.superTypes = l at short ⊢
    rcases l with _ | ⟨v, _ | ⟨w, rest⟩⟩
    · exact .inl rfl
    · rw [List.filter_singleton]
      cases (r.get? v).any _ with
      | true => exact .inl rfl
      | false => exact .inr rfl
    · simp at short
  · left
    rw [List.filter_filter]
    simp only [Bool.and_self]

/-- The fields of a frozen type start with what its super types have. -/
def InheritsFirst (r : Repository) : Prop :=
  ∀ id t, r.complex? id = some t → t.isFrozen = true →
    (r.fieldNamesOf t.shape.superTypes).eraseDups <+: t.shape.fields.names

/-- What comes first on a frozen type comes first after a step, on all types like it. -/
theorem InheritsFirst.keep {t' : ComplexType} (h : r.InheritsFirst) (closed : r.IsClosed)
    (step : Step G r r') (found : r.complex? id = some t) (frozen : t.isFrozen = true)
    (shape : t'.shape = t.shape) :
    (r'.fieldNamesOf t'.shape.superTypes).eraseDups <+: t'.shape.fields.names := by
  rw [shape, fieldNamesOf_congr fun v super => ?_]
  · exact h id t found frozen
  · obtain ⟨n, before, supports⟩ := closed id t found frozen v super
    obtain ⟨n', after, keeps⟩ := step.get?_of_isFrozen before supports.frozen
    rw [complex?, complex?, before, after]
    cases keeps with
    | simple => rfl
    | complex _ lifecycle _ _ _ =>
      exact congrArg (fun l => some (Lifecycle.shape l).fields.names) lifecycle

theorem Step.inheritsFirst (step : Step G r r') (admits : ∀ t, G (.complex t) → r.Admits t)
    (closed : r.IsClosed) (h : r.InheritsFirst) : r'.InheritsFirst := by
  intro id t' found' frozen
  cases step.frozenOrigin found' frozen with
  | @kept t _ found frozen =>
    obtain ⟨t₁, here, -, shape⟩ := step.complex?_of_isFrozen found frozen
    obtain rfl := Option.some.inj (found'.symm.trans here)
    exact h.keep closed step found frozen shape
  | registered given =>
    rcases admits t' given frozen with none | ⟨u, t, found, done, shape, -⟩
    · rw [none]
      exact List.nil_prefix
    · exact h.keep closed step found done shape.symm
  | @flattened t declared =>
    show (r'.fieldNamesOf (r'.flatten id t.instantiable declared).superTypes).eraseDups <+:
      (r'.flatten id t.instantiable declared).fields.names
    rw [names_flatten, List.append_assoc]
    rcases r'.superTypes_flatten_eq id t.instantiable declared with kept | none
    · rw [kept]
      exact eraseDups_prefix_append _ _
    · rw [none]
      exact List.nil_prefix

/-- Frozen types are final, rest on frozen super types, and start with what those have. -/
structure IsSettled (r : Repository) : Prop where
  sound : r.IsSound
  closed : r.IsClosed
  inheritsFirst : r.InheritsFirst

theorem Step.isSettled (step : Step G r r') (admits : ∀ t, G (.complex t) → r.Admits t)
    (sound : r'.IsSound) (h : r.IsSettled) : r'.IsSettled :=
  ⟨sound, step.isClosed admits sound h.closed, step.inheritsFirst admits h.closed h.inheritsFirst⟩

/-- A step that registers nothing keeps frozen types settled. -/
theorem IsSettled.keep (h : r.IsSettled) (step : Step (fun _ => False) r r') : r'.IsSettled :=
  step.isSettled nofun (step.isSound nofun h.sound) h

theorem Run.isSettled {c : SchemaConfig} {ids : List TypeId}
    (run : Run c (fun r _ operation => operation.RegistersOnly r.Admits) r ids) :
    r.IsSettled := by
  refine run.invariant (fun step => step.admits) ⟨(Reachable.start c).isSound, ?_, ?_⟩
    fun step => step.isSettled
  · exact isClosed_start c
  · intro id t found
    exact absurd found (complex?_initial_ne_some _ id t)

end Repository

end EntityModel
