/-
What is written as JSON is read back.

A record is written as an object that leaves out what is absent, and every member that may be
left out has a default.  So each of them has to be left out for its default and for nothing
else: an absent text, but not an empty one, and an empty table, but not an empty list.

* `fromJson_record` — an object of distinct members is read member by member;
* `Writes.required_eq`, `Writes.withDefault_eq` — what each of them is read as;
* `ofJson_toJson` — every manifest and every configuration is read back as it was.
-/
import EntityModel.Config

namespace EntityModel

namespace Decode

variable {α : Type}

/-! ### Values -/

/-- What `decode` reads from a JSON value. -/
def fromJson (decode : Node → Decode α) (json : Json) : Decode α := decode (.ofJson json)

/-- What `decode` reads from a member: the default if it was left out. -/
def fromMember (decode : Node → Decode α) (default : α) : Option Json → Decode α
  | some json => fromJson decode json
  | none => pure default

@[simp] theorem fromMember_some (decode : Node → Decode α) (default : α) (json : Json) :
    fromMember decode default (some json) = fromJson decode json := rfl

@[simp] theorem fromJson_text (s : String) : fromJson text (.string s) = pure s := rfl

@[simp] theorem fromJson_bool (b : Bool) : fromJson bool (.bool b) = pure b := rfl

/-- Of the JSON values only `null` is read as none: a text is quoted, so it does not stand for
something else. -/
theorem fromJson_optional (decode : Node → Decode α) {json : Json} (present : json ≠ .null) :
    fromJson (optional decode) json = some <$> fromJson decode json := by
  cases json with
  | null => exact absurd rfl present
  | _ => rfl

theorem fromMember_optional {decode : Node → Decode α} {encode : α → Json}
    (present : ∀ x, encode x ≠ .null) (restores : ∀ x, fromJson decode (encode x) = pure x)
    (o : Option α) : fromMember (optional decode) none (o.map encode) = pure o := by
  cases o with
  | none => rfl
  | some x =>
    rw [Option.map_some, fromMember_some, fromJson_optional decode (present x), restores, map_pure]

@[simp] theorem fromMember_optional_text (o : Option String) :
    fromMember (optional text) none (o.map .string) = pure o :=
  fromMember_optional (fun _ => Json.noConfusion) fromJson_text o

theorem fromJson_list {decode : Node → Decode α} {encode : α → Json}
    (restores : ∀ x, fromJson decode (encode x) = pure x) (l : List α) :
    fromJson (list decode) (.array (l.map encode)) = pure l := by
  show (Node.ofItems (l.map encode)).mapM decode = pure l
  rw [Node.ofItems_eq_map]
  induction l with
  | nil => rfl
  | cons x rest ih =>
    have first : decode (.ofJson (encode x)) = pure x := restores x
    rw [List.map_cons, List.map_cons, List.mapM_cons, first, ih, pure_bind, pure_bind]

@[simp] theorem fromJson_ofTexts (l : List String) :
    fromJson (list text) (.ofTexts l) = pure l :=
  fromJson_list fromJson_text l

theorem pairs_ofMembers (l : List (String × String)) :
    pairs text (Node.ofMembers (l.map fun e => (e.1, .string e.2))) = pure l := by
  induction l with
  | nil => rfl
  | cons e rest ih =>
    show pairs text (Node.ofMembers (rest.map _)) >>= (fun others => pure (e :: others)) = _
    rw [ih, pure_bind]

theorem fromJson_ofTable (t : Table String) :
    fromJson (table text) (.ofTable t) = pure t := by
  show pairs text (Node.ofMembers (t.entries.map _)) >>= (fun l => pure (Table.ofList l)) = _
  rw [pairs_ofMembers, pure_bind, Table.ofList_entries]

@[simp] theorem fromMember_ofTable? (t : Table String) :
    fromMember (table text) ∅ (Json.ofTable? t) = pure t := by
  rw [Json.ofTable?]
  split
  · next isEmpty =>
    have empty : t.entries = [] := List.isEmpty_iff.1 isEmpty
    rw [← t.ofList_entries, empty]
    rfl
  · exact fromJson_ofTable t

/-! ### Records -/

/-- The members that are present. -/
def present (ms : List (String × Option Json)) : List (String × Json) :=
  ms.filterMap fun m => m.2.map fun json => (m.1, json)

/-- Members as nodes. -/
def nodes (l : List (String × Json)) : List (String × Node) :=
  l.map fun m => (m.1, .ofJson m.2)

theorem lookup_nodes (l : List (String × Json)) (key : String) :
    (nodes l).lookup key = (l.lookup key).map Node.ofJson := by
  induction l with
  | nil => rfl
  | cons m rest ih =>
    show List.lookup key ((m.1, Node.ofJson m.2) :: nodes rest) = _
    rw [List.lookup_cons, List.lookup_cons]
    cases key == m.1 with
    | true => rfl
    | false => exact ih

theorem lookup_eq_none_of_not_mem {key : String} {l : List (String × Json)}
    (absent : key ∉ l.map Prod.fst) : l.lookup key = none := by
  rw [List.lookup_eq_none_iff]
  intro m mem
  have differs : key ≠ m.1 := fun same => absent (same ▸ List.mem_map_of_mem mem)
  simpa using differs

/-- The members of a record, all of them known and none repeated. -/
theorem members_ofMembers {keys : List String} {l : List (String × Json)}
    (known : l.map Prod.fst ⊆ keys) (distinct : (l.map Prod.fst).Nodup) :
    members keys (Node.ofMembers l) = pure (nodes l) := by
  induction l with
  | nil => rfl
  | cons m rest ih =>
    obtain ⟨here, above⟩ := List.cons_subset.1 known
    obtain ⟨fresh, apart⟩ := List.nodup_cons.1 distinct
    have others : (nodes rest).lookup m.1 = none := by
      rw [lookup_nodes, lookup_eq_none_of_not_mem fresh, Option.map_none]
    rw [Node.ofMembers, members]
    show (members keys (Node.ofMembers rest) >>= _) = _
    rw [ih above apart, pure_bind, if_neg (not_not_intro here), others]
    rfl

variable {ms : List (String × Option Json)}

theorem keys_present_sublist (ms : List (String × Option Json)) :
    ((present ms).map Prod.fst).Sublist (ms.map Prod.fst) := by
  induction ms with
  | nil => exact .slnil
  | cons m rest ih =>
    obtain ⟨key, _ | json⟩ := m
    · exact ih.cons key
    · exact ih.cons_cons key

theorem lookup_present (distinct : (ms.map Prod.fst).Nodup) (key : String) :
    (present ms).lookup key = (ms.lookup key).join := by
  induction ms with
  | nil => rfl
  | cons m rest ih =>
    obtain ⟨name, member⟩ := m
    obtain ⟨fresh, apart⟩ := List.nodup_cons.1 distinct
    by_cases same : key = name
    · subst same
      rw [List.lookup_cons_self]
      cases member with
      | none =>
        -- left out here, and of another key in the rest
        exact lookup_eq_none_of_not_mem fun mem => fresh ((keys_present_sublist rest).subset mem)
      | some json => exact List.lookup_cons_self
    · have passed : (key == name) = false := by simpa using same
      rw [List.lookup_cons, passed]
      cases member with
      | none => exact ih apart
      | some json =>
        show List.lookup key ((name, json) :: present rest) = _
        rw [List.lookup_cons, passed]
        exact ih apart

/-- An object of distinct members is read as the members that are present. -/
theorem record_ofMembers (distinct : (ms.map Prod.fst).Nodup) :
    fromJson (record (ms.map Prod.fst)) (.ofMembers ms) = pure (nodes (present ms)) :=
  have among := keys_present_sublist ms
  members_ofMembers among.subset (distinct.sublist among)

/-- The members `l` of a record are those that `ms` writes. -/
def Writes (ms : List (String × Option Json)) (l : List (String × Node)) : Prop :=
  ∀ key, l.lookup key = (ms.lookup key).join.map Node.ofJson

/-- What is read from an object is what the rest of the reading, `next`, makes of its members. -/
theorem fromJson_record {keys : List String} {next : List (String × Node) → Decode α} {x : α}
    (names : ms.map Prod.fst = keys) (distinct : keys.Nodup)
    (reads : ∀ l, Writes ms l → next l = pure x) :
    fromJson (fun node => record keys node >>= next) (.ofMembers ms) = pure x := by
  subst names
  show fromJson (record _) (.ofMembers ms) >>= next = pure x
  rw [record_ofMembers distinct, pure_bind]
  refine reads _ fun key => ?_
  rw [lookup_nodes, lookup_present distinct]

/-- A member that must be there is read as it was written. -/
theorem Writes.required_eq {l : List (String × Node)} (writes : Writes ms l) (key : String)
    (decode : Node → Decode α) :
    required l key decode =
      match (ms.lookup key).join with
      | some json => fromJson decode json
      | none => throw (.missing key) := by
  rw [required, writes key]
  cases (ms.lookup key).join <;> rfl

/-- A member that has a default is read as it was written, or left out. -/
theorem Writes.withDefault_eq {l : List (String × Node)} (writes : Writes ms l) (key : String)
    (decode : Node → Decode α) (default : α) :
    withDefault l key decode default = fromMember decode default (ms.lookup key).join := by
  rw [withDefault, writes key]
  cases (ms.lookup key).join <;> rfl

end Decode

open Decode

/-! ### Manifests -/

@[simp] theorem ReferenceEntry.fromJson_toJson (e : ReferenceEntry) :
    fromJson ReferenceEntry.decode e.toJson = pure e := by
  refine fromJson_record rfl (by decide) fun l writes => ?_
  simp [writes.required_eq, writes.withDefault_eq, List.lookup_cons]

@[simp] theorem ReferenceEntry.fromMember_toJson (o : Option ReferenceEntry) :
    fromMember (optional ReferenceEntry.decode) none (o.map (·.toJson)) = pure o :=
  fromMember_optional (fun _ => Json.noConfusion) fromJson_toJson o

@[simp] theorem FieldEntry.fromJson_toJson (e : FieldEntry) :
    fromJson FieldEntry.decode e.toJson = pure e := by
  refine fromJson_record rfl (by decide) fun l writes => ?_
  simp [writes.required_eq, writes.withDefault_eq, List.lookup_cons]

@[simp] theorem TypeEntry.fromJson_toJson (e : TypeEntry) :
    fromJson TypeEntry.decode e.toJson = pure e := by
  refine fromJson_record rfl (by decide) fun l writes => ?_
  simp [writes.required_eq, writes.withDefault_eq, List.lookup_cons,
    fromJson_list FieldEntry.fromJson_toJson]

theorem Manifest.fromJson_toJson (m : Manifest) :
    fromJson Manifest.decode m.toJson = pure m := by
  refine fromJson_record rfl (by decide) fun l writes => ?_
  simp [writes.withDefault_eq, List.lookup_cons, fromJson_list TypeEntry.fromJson_toJson]

/-! ### Configurations -/

@[simp] theorem SchemaConfig.fromJson_toJson (c : SchemaConfig) :
    fromJson SchemaConfig.decode c.toJson = pure c := by
  refine fromJson_record rfl (by decide) fun l writes => ?_
  simp [writes.withDefault_eq, List.lookup_cons]

theorem Config.fromJson_toJson (c : Config) :
    fromJson Config.decode c.toJson = pure c := by
  refine fromJson_record rfl (by decide) fun l writes => ?_
  simp [writes.withDefault_eq, List.lookup_cons]

/-- Manifests and configurations are read back as they were written. -/
theorem ofJson_toJson :
    (∀ m : Manifest, Manifest.ofJson m.toJson = .ok m) ∧
      ∀ c : Config, Config.ofJson c.toJson = .ok c := by
  constructor
  · intro m
    show (fromJson Manifest.decode m.toJson).run [] = .ok m
    rw [m.fromJson_toJson]
    rfl
  · intro c
    show (fromJson Config.decode c.toJson).run [] = .ok c
    rw [c.fromJson_toJson]
    rfl

end EntityModel
