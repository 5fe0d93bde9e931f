/-
What a frozen type is.

`TypeShape.IsFinal` says that fields and keys agree: a field is flagged as a key exactly if
it is registered as one, and then both are the same read-only field; and that the primary
key information and the lookup fields are read-only fields, not paths.

* `isFinal_finish` — the end of a freeze makes a shape final, if every field of it that is
  flagged as a key is registered as one (`RegistersKeys`);
* `registersKeys_gathered` — what super types hand down keeps it so;
* `Reachable.isFinal` — every frozen type that operations can lead to is final.
-/
import EntityModel.Proofs.FlatFields
import EntityModel.Proofs.Steps

namespace EntityModel

/-! ### Shapes -/

namespace TypeShape

/-- Every field that is flagged as a key is registered as one. -/
def RegistersKeys (s : TypeShape) : Prop :=
  ∀ name f, s.fields.find? name = some f → f.isKey = true → name ∈ s.keyFields.names

/-- Fields and keys agree, and nothing is left to be resolved.  That fields stand under their names
is shown wherever one is inserted. -/
structure IsFinal (s : TypeShape) : Prop where
  fieldName : ∀ name f, s.fields.find? name = some f → f.name = name
  keyName : ∀ name k, s.keyFields.find? name = some k → k.name = name
  fieldFrozen : ∀ f ∈ s.fields.fields, f.isFrozen = true
  key : ∀ name, name ∈ s.keyFields.names ↔ ∃ f, s.fields.find? name = some f ∧ f.isKey = true
  keyField : ∀ name k, s.keyFields.find? name = some k → s.fields.find? name = some k
  primaryKeyInfo : ∀ ref ∈ s.primaryKeyInfo, ∃ f, ref = .field f ∧ f.isFrozen = true
  lookupFields : ∀ ref ∈ s.lookupFields, ∃ f, ref = .field f ∧ f.isFrozen = true

variable {s : TypeShape}

theorem RegistersKeys.withField (h : s.RegistersKeys) (f : Field) :
    (s.withField f).RegistersKeys := by
  intro name g found key
  dsimp only [TypeShape.withField] at found ⊢
  rw [FieldTable.find?_add] at found
  split at found
  · next same =>
    obtain rfl := Option.some.inj found
    rw [if_pos key, FieldTable.mem_names_iff, FieldTable.find?_add, if_pos same]
    rfl
  · have registered := h name g found key
    split
    · rw [FieldTable.mem_names_iff] at registered ⊢
      rw [FieldTable.find?_add]
      split
      · rfl
      · exact registered
    · exact registered

theorem RegistersKeys.withKey (h : s.RegistersKeys) (k : Field) :
    (s.withKey k).RegistersKeys := by
  intro name g found key
  have registered := h name g found key
  dsimp only [TypeShape.withKey]
  rw [FieldTable.mem_names_iff] at registered ⊢
  rw [FieldTable.find?_add]
  split
  · rfl
  · exact registered

theorem RegistersKeys.grows {s' : TypeShape} (h : s.RegistersKeys) (grows : s.Grows s') :
    s'.RegistersKeys := by
  cases grows with
  | field f named => exact h.withField f
  | key k named => exact h.withKey k
  | superType id => exact h

theorem isFrozen_settle (keys : FieldTable) (f : Field) : (settle keys f).isFrozen = true := by
  rw [settle]
  split <;> rfl

theorem isKey_settle (keys : FieldTable) (f : Field) :
    (settle keys f).isKey = true ↔ f.name ∈ keys.names ∨ f.isKey = true := by
  rw [settle]
  split
  · next present => simp [present, Field.promote]
  · next absent => simp [absent, Field.freeze]

theorem names_keyFields_finish : s.finish.keyFields.names = s.keyFields.names :=
  FieldTable.names_mapEntries _ _ (name_refresh _)

/-- The field of a key is what is made of the field of its name, or else of the key. -/
theorem find?_finish_of_key {name : String} (h : name ∈ s.keyFields.names) :
    ∃ f, s.finish.fields.find? name = some f ∧ f.isKey = true := by
  obtain ⟨k, found⟩ := Option.isSome_iff_exists.1 (FieldTable.mem_names_iff.1 h)
  have named : ∀ f, f.name = name → (settle s.keyFields f).isKey = true := fun f same =>
    (isKey_settle s.keyFields f).2 (.inl (same ▸ h))
  rw [find?_finish]
  cases own : s.fields.find? name with
  | none =>
    -- the key is promoted to a field
    rw [found]
    exact ⟨_, rfl, named k (FieldTable.name_of_find? found)⟩
  | some f => exact ⟨_, rfl, named f (FieldTable.name_of_find? own)⟩

theorem mem_names_of_isKey_finish (h : s.RegistersKeys) {name : String} {f : Field}
    (found : s.finish.fields.find? name = some f) (key : f.isKey = true) :
    name ∈ s.keyFields.names := by
  rw [find?_finish] at found
  obtain ⟨g, origin, rfl⟩ := Option.map_eq_some_iff.1 found
  -- a flagged field is registered, and a key without a field is the key itself
  rcases Option.or_eq_some_iff.1 origin with own | ⟨-, registered⟩
  · rcases (isKey_settle _ g).1 key with named | key
    · rwa [FieldTable.name_of_find? own] at named
    · exact h name g own key
  · rw [FieldTable.mem_names_iff, registered]
    rfl

/-- A shape made final, whose field references are bound. -/
theorem isFinal_finish (h : s.RegistersKeys) {primaryKeyInfo lookupFields : List FieldRef}
    (keys : ∀ ref ∈ primaryKeyInfo, ∃ f, ref = .field f ∧ f.isFrozen = true)
    (lookups : ∀ ref ∈ lookupFields, ∃ f, ref = .field f ∧ f.isFrozen = true) :
    IsFinal { s.finish with primaryKeyInfo, lookupFields } where
  fieldName _ _ := FieldTable.name_of_find?
  keyName _ _ := FieldTable.name_of_find?
  fieldFrozen f mem := by
    have found := FieldTable.find?_eq_some_iff.2 ⟨mem, rfl⟩
    rw [find?_finish] at found
    obtain ⟨g, -, rfl⟩ := Option.map_eq_some_iff.1 found
    exact isFrozen_settle _ g
  -- making a shape final registers no key that was not registered
  key name := by
    show name ∈ s.finish.keyFields.names ↔ _
    rw [names_keyFields_finish]
    refine ⟨find?_finish_of_key, ?_⟩
    rintro ⟨f, found, key⟩
    exact mem_names_of_isKey_finish h found key
  keyField name k found := by
    rw [find?_keyFields_finish] at found
    obtain ⟨_, -, found⟩ := Option.bind_eq_some_iff.1 found
    exact found
  primaryKeyInfo := keys
  lookupFields := lookups

end TypeShape

namespace Repository

variable {r r' : Repository} {id : TypeId}

/-- What super types hand down keeps keys registered, whatever they are. -/
theorem registersKeys_gathered {instantiable : Bool} {declared : TypeShape}
    (h : declared.RegistersKeys) : (r.gathered id instantiable declared).RegistersKeys := by
  intro name f found key
  rw [find?_gathered] at found
  rw [FieldTable.mem_names_iff, find?_keyFields_gathered, Option.isSome_or, Bool.or_eq_true,
    Option.isSome_map]
  rcases Option.or_eq_some_iff.1 found with own | ⟨-, inherited⟩
  · exact .inr (FieldTable.mem_names_iff.1 (h name f own key))
  · obtain ⟨g, last, rfl⟩ := Option.map_eq_some_iff.1 inherited
    obtain ⟨s, mem, own⟩ := List.exists_of_findSome?_eq_some last
    refine .inl (List.findSome?_isSome_iff.2 ⟨s, mem, ?_⟩)
    change g.isKey = true at key
    simp [own, key]

theorem isField_of_mem_bindRefs {refs : List FieldRef} {ref : FieldRef}
    (mem : ref ∈ (r.bindRefs id refs).1) : ∃ f, ref = .field f ∧ f.isFrozen = true := by
  obtain ⟨bound, mem, rfl'⟩ := List.mem_filterMap.1 mem
  obtain ⟨declared, -, rfl⟩ := List.mem_map.1 mem
  cases declared with
  | field f => exact ⟨f.freeze, (Option.some.inj rfl').symm, rfl⟩
  | path p =>
    obtain ⟨f, -, same⟩ := Option.map_eq_some_iff.1 rfl'
    exact ⟨f.freeze, same.symm, rfl⟩

/-! ### Every step keeps types sound -/

end Repository

/-- A type that is being built registers its keys, one that is frozen is final, and none is
left in between. -/
def Lifecycle.IsSound : Lifecycle → Prop
  | .building s => s.RegistersKeys
  | .freezing => False
  | .frozen s => s.IsFinal

theorem ComplexType.Change.isSound {t t' : ComplexType} (change : t.Change t')
    (h : t.lifecycle.IsSound) : t'.lifecycle.IsSound := by
  cases change.effect with
  | declares building grows =>
    rw [building] at h
    exact TypeShape.RegistersKeys.grows h grows
  | keeps name lifecycle frozen => exact lifecycle ▸ h

namespace Repository

variable {r r' : Repository} {id : TypeId}

/-- Every complex type is as it should be at its point of life. -/
def IsSound (r : Repository) : Prop := ∀ id t, r.complex? id = some t → t.lifecycle.IsSound

theorem Evolution.isSound {order : List TypeId} {t t' : ComplexType}
    (h : Evolution r order id (.complex t) (.complex t')) (sound : t.lifecycle.IsSound) :
    t'.lifecycle.IsSound := by
  cases h with
  | untouched => exact sound
  | extended => exact sound
  | flattened moment building =>
    rw [building] at sound
    rw [Repository.flattened, flatten_eq_finish]
    exact TypeShape.isFinal_finish (registersKeys_gathered sound)
      (fun _ => isField_of_mem_bindRefs) fun _ => isField_of_mem_bindRefs

theorem Step.isSound {G : TypeNode → Prop} (step : Step G r r')
    (given : ∀ t, G (.complex t) → t.lifecycle.IsSound) (h : r.IsSound) : r'.IsSound := by
  intro id t' found
  cases step.origin found with
  | same found => exact h id t' found
  | registered registers => exact given t' registers
  | copied _ _ same =>
    rw [same]
    exact fun _ _ found => nomatch found
  | changed found change => exact change.isSound (h id _ found)
  | renamed name before ok =>
    obtain ⟨-, rfl⟩ := ComplexType.rename_eq_ok ok
    exact (h id _ before :)
  | evolved found _ evolution => exact evolution.isSound (h id _ found)

end Repository

/-- Complex types that a program can have in hand are sound, wherever they were taken from. -/
theorem TypeNode.Obtained.isSound {t : ComplexType} (h : (TypeNode.complex t).Obtained) :
    t.lifecycle.IsSound := by
  refine h.forall_complex (fun a name b => ?_) (fun change => change.isSound) (fun step => ?_) t rfl
  · exact fun _ _ found => nomatch found
  · exact step.isSound fun t given => given t rfl

namespace Repository

variable {r : Repository} {id : TypeId}

theorem Reachable.isSound (h : r.Reachable) : r.IsSound := fun _ _ found =>
  (TypeNode.Obtained.taken h (complex?_eq_some.1 found)).isSound

/-- Every frozen type that operations can lead to is final. -/
theorem Reachable.isFinal (h : r.Reachable) {t : ComplexType} (found : r.complex? id = some t)
    (frozen : t.isFrozen = true) : t.shape.IsFinal := by
  have sound := h.isSound id t found
  rw [ComplexType.shape]
  rw [ComplexType.isFrozen] at frozen
  cases lifecycle : t.lifecycle with
  | building => simp [lifecycle, Lifecycle.isFrozen] at frozen
  | freezing => simp [lifecycle, Lifecycle.isFrozen] at frozen
  | frozen flat =>
    rw [lifecycle] at sound
    exact sound

/-- A party with a key, and a person that declares a field of its name anew. -/
def parties : Manifest where
  types :=
    [{ name := "Party", fields := [{ name := "id", type := "string", key := true }] },
     { name := "Person", superTypes := ["Party"], fields := [{ name := "id", type := "int" }]
       lookupFields := ["id"] }]

theorem isFinal_person : ∃ t,
    ((Session.start {}).repository.perform (.build parties {})).complex? ⟨34⟩ = some t ∧
      t.isFrozen = true ∧ t.shape.IsFinal := by
  have frozen : (((Session.start {}).repository.perform (.build parties {})).complex? ⟨34⟩).any
      (·.isFrozen) = true := by
    rw [Session.repository_start]
    cbv
  obtain ⟨t, found, frozen⟩ := (Option.any_eq_true _ _).1 frozen
  exact ⟨t, found, frozen, Reachable.isFinal (.build (.start {}) _ _) found frozen⟩

end Repository

end EntityModel
