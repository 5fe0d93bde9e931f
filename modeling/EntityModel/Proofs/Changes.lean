/-
Changes of a type.

A complex type is changed by methods of its own.  Those that declare something act on a type that
is being built, and refuse any other; what each of them makes of it is said once, and everything
else about it is derived from that:

* `TypeShape.foldl_withField_eq` — fields added one after the other, and likewise keys and super
  types;
* `ComplexType.addField_of_building`, `registerKey_of_building`, `addSuperType_of_building` — what
  a type that is being built answers, and `addField_eq_ok` and so on — where the answer comes from;
* `ComplexType.Change.effect` — a change declares something more, or it keeps name and shape.
-/
import EntityModel.Proofs.FreezeSteps
import EntityModel.Proofs.Outcomes

namespace EntityModel

/-! ### Shapes that grow -/

namespace TypeShape

/-- The shape with one more field, which is a key if it is flagged as one. -/
def withField (s : TypeShape) (f : Field) : TypeShape :=
  { s with
    fields := s.fields.add f
    keyFields := if f.isKey then s.keyFields.add f else s.keyFields }

/-- The shape with one more key. -/
def withKey (s : TypeShape) (k : Field) : TypeShape :=
  { s with keyFields := s.keyFields.add k }

/-- The shape with one more super type. -/
def withSuperType (s : TypeShape) (superType : TypeId) : TypeShape :=
  { s with superTypes := appendNew s.superTypes superType }

/-- One more field, key or super type is declared. -/
inductive Grows (s : TypeShape) : TypeShape → Prop
  | field (f : Field) (named : f.name ≠ "") : Grows s (s.withField f)
  | key (k : Field) (named : k.name ≠ "") : Grows s (s.withKey k)
  | superType (id : TypeId) : Grows s (s.withSuperType id)

variable (s : TypeShape)

theorem foldl_withField_eq (l : List Field) : l.foldl withField s =
    { s with
      fields := s.fields.addAll l
      keyFields := s.keyFields.addAll (l.filter (·.isKey)) } := by
  induction l generalizing s with
  | nil => rfl
  | cons f rest ih =>
    refine (ih (s.withField f)).trans ?_
    cases key : f.isKey with
    | true =>
      rw [List.filter_cons_of_pos (by exact key)]
      simp only [withField, key, if_true]
      rfl
    | false =>
      rw [List.filter_cons_of_neg (by simp [key])]
      simp only [withField, key, Bool.false_eq_true, if_false]
      rfl

theorem foldl_withKey_eq (l : List Field) :
    l.foldl withKey s = { s with keyFields := s.keyFields.addAll l } := by
  induction l generalizing s with
  | nil => rfl
  | cons k rest ih => exact ih (s.withKey k)

theorem foldl_withSuperType_eq (l : List TypeId) :
    l.foldl withSuperType s = { s with superTypes := l.foldl appendNew s.superTypes } := by
  induction l generalizing s with
  | nil => rfl
  | cons v rest ih => exact ih (s.withSuperType v)

end TypeShape

/-! ### Methods -/

namespace ComplexType

variable {t t' : ComplexType}

theorem declared_eq_ok {s : TypeShape} : t.declared = .ok s ↔ t.lifecycle = .building s := by
  rw [declared]
  split <;> simp_all

/-- A type that is being built refuses only a field without a name. -/
theorem addField_of_building {s : TypeShape} (building : t.lifecycle = .building s) (f : Field) :
    t.addField f = if f.name = "" then .error (.illegalArgument .unnamedField)
      else .ok (t.withDeclared (s.withField f)) := by
  rw [addField, declared_eq_ok.2 building]
  by_cases named : f.name = "" <;> simp [named, bind, Except.bind] <;> rfl

theorem registerKey_of_building {s : TypeShape} (building : t.lifecycle = .building s)
    (k : Field) : t.registerKey k = if k.name = "" then .error (.illegalArgument .unnamedKey)
      else .ok (t.withDeclared (s.withKey k)) := by
  rw [registerKey, declared_eq_ok.2 building]
  by_cases named : k.name = "" <;> simp [named, bind, Except.bind] <;> rfl

theorem addSuperType_of_building {s : TypeShape} (building : t.lifecycle = .building s)
    (id : TypeId) : t.addSuperType id = .ok (t.withDeclared (s.withSuperType id)) := by
  rw [addSuperType, declared_eq_ok.2 building]
  rfl

theorem addField_eq_ok {f : Field} (h : t.addField f = .ok t') :
    ∃ s, t.lifecycle = .building s ∧ f.name ≠ "" ∧ t' = t.withDeclared (s.withField f) := by
  obtain ⟨s, declared, -⟩ := except_bind_eq_ok.1 h
  have building := declared_eq_ok.1 declared
  rw [addField_of_building building] at h
  split at h
  · cases h
  · next named =>
    cases h
    exact ⟨s, building, named, rfl⟩

theorem registerKey_eq_ok {k : Field} (h : t.registerKey k = .ok t') :
    ∃ s, t.lifecycle = .building s ∧ k.name ≠ "" ∧ t' = t.withDeclared (s.withKey k) := by
  obtain ⟨s, declared, -⟩ := except_bind_eq_ok.1 h
  have building := declared_eq_ok.1 declared
  rw [registerKey_of_building building] at h
  split at h
  · cases h
  · next named =>
    cases h
    exact ⟨s, building, named, rfl⟩

theorem addSuperType_eq_ok {id : TypeId} (h : t.addSuperType id = .ok t') :
    ∃ s, t.lifecycle = .building s ∧ t' = t.withDeclared (s.withSuperType id) := by
  obtain ⟨s, declared, -⟩ := except_bind_eq_ok.1 h
  have building := declared_eq_ok.1 declared
  rw [addSuperType_of_building building] at h
  cases h
  exact ⟨s, building, rfl⟩

theorem setInstantiable_eq_ok {b : Bool} (h : t.setInstantiable b = .ok t') :
    (∃ s, t.lifecycle = .building s) ∧ t' = { t with instantiable := b } := by
  obtain ⟨s, building, h⟩ := except_bind_eq_ok.1 h
  cases h
  exact ⟨⟨s, declared_eq_ok.1 building⟩, rfl⟩

theorem setSubTypes_eq_ok {ids : List TypeId} (h : t.setSubTypes ids = .ok t') :
    (∃ s, t.lifecycle = .building s) ∧ t' = { t with subTypes := ids.foldl appendNew [] } := by
  obtain ⟨s, building, h⟩ := except_bind_eq_ok.1 h
  cases h
  exact ⟨⟨s, declared_eq_ok.1 building⟩, rfl⟩

theorem rename_eq_ok {name : String} (h : t.rename name = .ok t') :
    (∃ s, t.lifecycle = .building s) ∧
      t' = { t with qualifiedName := { t.qualifiedName with name } } := by
  obtain ⟨s, building, h⟩ := except_bind_eq_ok.1 h
  cases h
  exact ⟨⟨s, declared_eq_ok.1 building⟩, rfl⟩

end ComplexType

/-! ### Changes -/

/-- The changes of a complex type other than its freeze. -/
inductive ComplexType.Change : ComplexType → ComplexType → Prop
  | addField {t t'} (f : Field) (h : t.addField f = .ok t') : Change t t'
  | registerKey {t t'} (f : Field) (h : t.registerKey f = .ok t') : Change t t'
  | addSuperType {t t'} (id : TypeId) (h : t.addSuperType id = .ok t') : Change t t'
  | setInstantiable {t t'} (b : Bool) (h : t.setInstantiable b = .ok t') : Change t t'
  | setSubTypes {t t'} (ids : List TypeId) (h : t.setSubTypes ids = .ok t') : Change t t'
  | registerLabel {t} (locale : Locale) (label : String) : Change t (t.registerLabel locale label)
  | declareUsage {t} (id : TypeId) : Change t (t.declareUsage id)
  | registerSubType {t} (id : TypeId) : Change t (t.registerSubType id)
  | setContainer {t} (container : Option ContainerRef) : Change t { t with container }
  | setData {t} (key : String) (value : Json) : Change t (t.setData key value)
  /-- Only a copy that is still being built takes over the usages of its source. -/
  | fill {t} (data : Table Json) (usages : List TypeId) (fresh : t.isFrozen = false) :
    Change t { t with data, usages }

/-- The changes by which the entries of a manifest declare a type. -/
inductive ComplexType.Declaration : ComplexType → ComplexType → Prop
  | addField {t t'} (f : Field) (h : t.addField f = .ok t') : Declaration t t'
  | addSuperType {t t'} (id : TypeId) (h : t.addSuperType id = .ok t') : Declaration t t'
  | declareUsage {t} (id : TypeId) : Declaration t (t.declareUsage id)

theorem ComplexType.Declaration.change {t t' : ComplexType} (h : t.Declaration t') :
    t.Change t' := by
  cases h with
  | addField f h => exact .addField f h
  | addSuperType id h => exact .addSuperType id h
  | declareUsage id => exact .declareUsage id

namespace ComplexType

variable {t t' : ComplexType}

theorem subTypes_of_addField {f : Field} (h : t.addField f = .ok t') :
    t'.subTypes = t.subTypes := by
  obtain ⟨s, -, -, rfl⟩ := addField_eq_ok h
  rfl

theorem subTypes_of_registerKey {f : Field} (h : t.registerKey f = .ok t') :
    t'.subTypes = t.subTypes := by
  obtain ⟨s, -, -, rfl⟩ := registerKey_eq_ok h
  rfl

theorem subTypes_of_addSuperType {id : TypeId} (h : t.addSuperType id = .ok t') :
    t'.subTypes = t.subTypes := by
  obtain ⟨s, -, rfl⟩ := addSuperType_eq_ok h
  rfl

theorem subTypes_of_setInstantiable {b : Bool} (h : t.setInstantiable b = .ok t') :
    t'.subTypes = t.subTypes := by
  obtain ⟨-, rfl⟩ := setInstantiable_eq_ok h
  rfl

theorem Declaration.subTypes (h : t.Declaration t') : t'.subTypes = t.subTypes := by
  cases h with
  | addField f h => exact subTypes_of_addField h
  | addSuperType id h => exact subTypes_of_addSuperType h
  | declareUsage id => rfl

theorem Declaration.instantiable (h : t.Declaration t') : t'.instantiable = t.instantiable := by
  cases h with
  | addField f h =>
    obtain ⟨s, -, -, rfl⟩ := addField_eq_ok h
    rfl
  | addSuperType id h =>
    obtain ⟨s, -, rfl⟩ := addSuperType_eq_ok h
    rfl
  | declareUsage id => rfl

/-- What a change comes to: what is declared grows, or name and shape stay as they are.  Of a
frozen type only the lists of subtypes and of usages grow. -/
inductive Effect (t : ComplexType) : ComplexType → Prop
  | declares {s s' : TypeShape} (building : t.lifecycle = .building s) (grows : s.Grows s') :
      Effect t (t.withDeclared s')
  | keeps {u : ComplexType} (name : u.qualifiedName = t.qualifiedName)
      (lifecycle : u.lifecycle = t.lifecycle)
      (frozen : t.isFrozen = true → u.instantiable = t.instantiable ∧
        t.subTypes <+: u.subTypes ∧ t.usages <+: u.usages) : Effect t u

theorem Change.effect (h : t.Change t') : t.Effect t' := by
  cases h with
  | addField f ok =>
    obtain ⟨s, building, named, rfl⟩ := addField_eq_ok ok
    exact .declares building (.field f named)
  | registerKey k ok =>
    obtain ⟨s, building, named, rfl⟩ := registerKey_eq_ok ok
    exact .declares building (.key k named)
  | addSuperType id ok =>
    obtain ⟨s, building, rfl⟩ := addSuperType_eq_ok ok
    exact .declares building (.superType id)
  -- a frozen type refuses these three
  | setInstantiable b ok =>
    obtain ⟨⟨s, building⟩, rfl⟩ := setInstantiable_eq_ok ok
    exact .keeps rfl rfl fun frozen => absurd building (not_building_of_isFrozen frozen s)
  | setSubTypes ids ok =>
    obtain ⟨⟨s, building⟩, rfl⟩ := setSubTypes_eq_ok ok
    exact .keeps rfl rfl fun frozen => absurd building (not_building_of_isFrozen frozen s)
  | fill data usages fresh =>
    exact .keeps rfl rfl fun frozen => absurd (fresh.symm.trans frozen) Bool.false_ne_true
  | registerSubType id =>
    exact .keeps rfl rfl fun _ => ⟨rfl, prefix_appendNew t.subTypes id, List.prefix_refl _⟩
  | declareUsage id =>
    exact .keeps rfl rfl fun _ => ⟨rfl, List.prefix_refl _, prefix_appendNew t.usages id⟩
  | registerLabel | setContainer | setData =>
    exact .keeps rfl rfl fun _ => ⟨rfl, List.prefix_refl _, List.prefix_refl _⟩

/-- Only a freeze makes a type frozen. -/
theorem Change.isFrozen (h : t.Change t') : t'.isFrozen = t.isFrozen := by
  cases h.effect with
  | declares building grows => exact (isFrozen_of_building building).symm
  | keeps name lifecycle frozen => exact congrArg Lifecycle.isFrozen lifecycle

end ComplexType

end EntityModel
