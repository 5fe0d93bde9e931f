/-
The fields of a type by name, in the order of their insertion.

A table is a map that keeps its order: each entry holds a field under a key, no two entries
share a key, and an insertion replaces the field under its key where it stands, or else
appends.  Whoever inserts a field says under which key and shows that this is the field's
name; so does whoever changes the fields of a table in place.

* `find?_insert` — an insertion is seen under its key and nowhere else;
* `names_insert` — it keeps the order of the keys and adds a new one at the end;
* `find?_mapEntries` — a change of every field that keeps names is seen under each key;
* `name_of_find?` — what is found under a key has it for its name.
-/
import EntityModel.Field

namespace EntityModel

/-- A field under a key, which is the field's name. -/
structure NamedField where
  key : String
  field : Field
  named : field.name = key
  deriving DecidableEq

/-- Fields under distinct keys, in the order in which they were inserted. -/
structure FieldTable where
  entries : List NamedField
  distinct : (entries.map NamedField.key).Nodup
  deriving DecidableEq

namespace FieldTable

instance : EmptyCollection FieldTable := ⟨⟨[], .nil⟩⟩

instance : Inhabited FieldTable := ⟨∅⟩

/-- The fields, in order. -/
def fields (t : FieldTable) : List Field := t.entries.map NamedField.field

/-- The keys, in order. -/
def names (t : FieldTable) : List String := t.entries.map NamedField.key

/-- The number of fields. -/
def size (t : FieldTable) : Nat := t.entries.length

/-- The field under the key `name`. -/
def find? (t : FieldTable) (name : String) : Option Field :=
  (t.entries.find? fun e => e.key == name).map NamedField.field

/-- There is a field under the key `name`. -/
def contains (t : FieldTable) (name : String) : Bool := t.names.contains name

/-- Every field replaced by what `f` makes of its key and of it, which has the same name. -/
def mapEntries (t : FieldTable) (f : String → Field → Field)
    (h : ∀ key x, x.name = key → (f key x).name = key) : FieldTable :=
  ⟨t.entries.map fun e => ⟨e.key, f e.key e.field, h e.key e.field e.named⟩, by
    rw [List.map_map]
    exact t.distinct⟩

/-- Every field replaced by `f` of it, which has the same name. -/
def mapFields (t : FieldTable) (f : Field → Field) (h : ∀ x, (f x).name = x.name) :
    FieldTable :=
  t.mapEntries (fun _ => f) fun _ x named => (h x).trans named

/-- The table with `field` in the place of the field under `key`. -/
def replace (t : FieldTable) (key : String) (field : Field) (named : field.name = key) :
    FieldTable :=
  t.mapEntries (fun k x => if k = key then field else x) fun k x same => by
    split
    · next here => exact named.trans here.symm
    · exact same

/-- The table with `field` under `key` at its end, if it has no field there. -/
def append (t : FieldTable) (key : String) (field : Field) (named : field.name = key)
    (fresh : key ∉ t.names) : FieldTable :=
  ⟨t.entries ++ [⟨key, field, named⟩], by
    rw [List.map_append]
    refine List.nodup_append.2 ⟨t.distinct, by simp, ?_⟩
    rintro name old other new rfl
    obtain rfl : name = key := by simpa using new
    exact fresh old⟩

/-- The table with `field` under `key`: in the place of the field there, or else last. -/
def insert (t : FieldTable) (key : String) (field : Field) (named : field.name = key) :
    FieldTable :=
  if fresh : key ∈ t.names then t.replace key field named else t.append key field named fresh

/-- The table with a field under its name. -/
def add (t : FieldTable) (f : Field) : FieldTable := t.insert f.name f rfl

/-- The fields of a list inserted under their names, one after the other. -/
def addAll (t : FieldTable) (fields : List Field) : FieldTable := fields.foldl add t

/-- The fields of another table inserted under their keys. -/
def insertAll (t other : FieldTable) : FieldTable :=
  other.entries.foldl (fun t e => t.insert e.key e.field e.named) t

/-- The fields of another table inserted under the keys that are not taken. -/
def insertMissing (t other : FieldTable) : FieldTable :=
  other.entries.foldl
    (fun t e => if e.key ∈ t.names then t else t.insert e.key e.field e.named) t

/-! ### Lookups and order -/

@[simp] theorem find?_empty (name : String) : (∅ : FieldTable).find? name = none := rfl

@[simp] theorem names_empty : (∅ : FieldTable).names = [] := rfl

/-- The keys are the names of the fields. -/
theorem map_name_fields (t : FieldTable) : t.fields.map Field.name = t.names := by
  rw [fields, names, List.map_map]
  exact List.map_congr_left fun e _ => e.named

theorem mem_names {t : FieldTable} {name : String} :
    name ∈ t.names ↔ ∃ f ∈ t.fields, f.name = name := by
  rw [← map_name_fields, List.mem_map]

theorem nodup_fields (t : FieldTable) : (t.fields.map Field.name).Nodup := by
  rw [map_name_fields]
  exact t.distinct

theorem name_of_find? {t : FieldTable} {name : String} {f : Field} (h : t.find? name = some f) :
    f.name = name := by
  obtain ⟨e, found, rfl⟩ := Option.map_eq_some_iff.1 h
  have here : e.key = name := by simpa using List.find?_some found
  exact e.named.trans here

theorem mem_of_find? {t : FieldTable} {name : String} {f : Field} (h : t.find? name = some f) :
    f ∈ t.fields := by
  obtain ⟨e, found, rfl⟩ := Option.map_eq_some_iff.1 h
  exact List.mem_map_of_mem (List.mem_of_find?_eq_some found)

theorem find?_eq_none {t : FieldTable} {name : String} :
    t.find? name = none ↔ name ∉ t.names := by
  simp only [find?, names, Option.map_eq_none_iff, List.find?_eq_none, List.mem_map, not_exists,
    not_and, beq_iff_eq]

section Map

variable (t : FieldTable) (f : String → Field → Field)
variable (h : ∀ key x, x.name = key → (f key x).name = key)

@[simp] theorem names_mapEntries : (t.mapEntries f h).names = t.names := by
  rw [names, mapEntries, List.map_map]
  rfl

@[simp] theorem find?_mapEntries (name : String) :
    (t.mapEntries f h).find? name = (t.find? name).map (f name) := by
  simp only [find?, mapEntries, List.find?_map, Option.map_map]
  refine Option.map_congr fun e found => ?_
  have here : e.key = name := by simpa using List.find?_some found
  rw [← here]
  rfl

end Map

@[simp] theorem names_mapFields (t : FieldTable) (f : Field → Field)
    (h : ∀ x, (f x).name = x.name) : (t.mapFields f h).names = t.names := names_mapEntries ..

@[simp] theorem find?_mapFields (t : FieldTable) (f : Field → Field)
    (h : ∀ x, (f x).name = x.name) (name : String) :
    (t.mapFields f h).find? name = (t.find? name).map f := find?_mapEntries ..

theorem fields_mapFields (t : FieldTable) (f : Field → Field) (h : ∀ x, (f x).name = x.name) :
    (t.mapFields f h).fields = t.fields.map f := by
  rw [fields, fields, mapFields, mapEntries, List.map_map, List.map_map]
  rfl

/-- A table is determined by its fields: an entry's key is its field's name. -/
theorem ext_fields {t t' : FieldTable} (same : t.fields = t'.fields) : t = t' := by
  have entries : ∀ t : FieldTable, t.entries = t.fields.map fun f => ⟨f.name, f, rfl⟩ := by
    intro t
    rw [fields, List.map_map]
    refine (List.map_id'' (fun e => ?_) t.entries).symm
    obtain ⟨key, field, rfl⟩ := e
    rfl
  have entries : t.entries = t'.entries := by rw [entries, entries, same]
  obtain ⟨l, distinct⟩ := t
  obtain ⟨l', distinct'⟩ := t'
  obtain rfl : l = l' := entries
  rfl

section Insert

variable (t : FieldTable) (key : String) (field : Field) (named : field.name = key)

theorem fields_append (fresh : key ∉ t.names) :
    (t.append key field named fresh).fields = t.fields ++ [field] := by
  rw [fields, append, List.map_append]
  rfl

theorem find?_insert (name : String) :
    (t.insert key field named).find? name = if name = key then some field else t.find? name := by
  unfold insert
  split
  · next present =>
    rw [replace, find?_mapEntries]
    by_cases same : name = key
    · cases found : t.find? name with
      | none => exact absurd (same ▸ present) (find?_eq_none.1 found)
      | some x => simp [same]
    · simp [same]
  · next absent =>
    simp only [find?, append, List.find?_append]
    by_cases same : name = key
    · subst same
      have none : t.entries.find? (fun e => e.key == name) = Option.none :=
        Option.map_eq_none_iff.1 (find?_eq_none.2 absent)
      simp [none]
    · simp [same, Ne.symm same]

theorem names_insert :
    (t.insert key field named).names = if key ∈ t.names then t.names else t.names ++ [key] := by
  unfold insert
  split
  · rw [replace, names_mapEntries]
  · rw [names, append, List.map_append, names]
    rfl

end Insert

theorem find?_add (t : FieldTable) (f : Field) (name : String) :
    (t.add f).find? name = if name = f.name then some f else t.find? name :=
  find?_insert ..

theorem names_add (t : FieldTable) (f : Field) :
    (t.add f).names = if f.name ∈ t.names then t.names else t.names ++ [f.name] :=
  names_insert ..

/-- The entries of a table come one by one in order: what is inserted is what a list of its
fields says. -/
theorem insertAll_eq (t other : FieldTable) : t.insertAll other = t.addAll other.fields := by
  rw [insertAll, addAll, fields, List.foldl_map]
  congr 1
  funext t e
  obtain ⟨key, field, rfl⟩ := e
  rfl

end FieldTable

end EntityModel
