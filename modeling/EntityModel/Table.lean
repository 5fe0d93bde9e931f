/-
Tables keyed by text and kept in the order of their keys.

The entries are strictly increasing, so two tables with the same content are
equal whatever the order in which they were filled:

* `get?_insert` — an insertion is seen at its key and nowhere else;
* `get?_erase` — an erased key is gone and no other;
* `get?_insertAll` — what a table inserts takes the place of what is there;
* `ext_get?` — a table is determined by its lookups;
* `ofList_entries` — a table is made again from its entries.
-/

namespace EntityModel

/-- A finite map from text to `β`, listed by increasing key. -/
structure Table (β : Type) where
  entries : List (String × β)
  sorted : entries.Pairwise (fun a b => a.1 < b.1)
  deriving DecidableEq

namespace Table

variable {β : Type}

instance : EmptyCollection (Table β) := ⟨⟨[], .nil⟩⟩

instance : Inhabited (Table β) := ⟨∅⟩

/-- The table has no entry. -/
def isEmpty (t : Table β) : Bool := t.entries.isEmpty

/-- The first value at `key` in a list of entries. -/
def seek (key : String) : List (String × β) → Option β
  | [] => none
  | entry :: rest => if entry.1 = key then some entry.2 else seek key rest

/-- The value at `key`. -/
def get? (t : Table β) (key : String) : Option β := seek key t.entries

/-- An increasing list with `value` at the place of `key`; an entry of that key is
replaced. -/
def place (key : String) (value : β) : List (String × β) → List (String × β)
  | [] => [(key, value)]
  | entry :: rest =>
    if key < entry.1 then (key, value) :: entry :: rest
    else if key = entry.1 then (key, value) :: rest
    else entry :: place key value rest

theorem mem_place {key : String} {value : β} {l : List (String × β)} {e : String × β}
    (h : e ∈ place key value l) : e = (key, value) ∨ e ∈ l := by
  induction l with
  | nil => simp_all [place]
  | cons entry rest ih =>
    unfold place at h
    split at h
    · simpa using h
    · split at h
      · simp only [List.mem_cons] at h ⊢
        exact h.imp_right .inr
      · simp only [List.mem_cons] at h ⊢
        rcases h with h | h
        · exact .inr (.inl h)
        · exact (ih h).imp_right .inr

theorem sorted_place {key : String} {value : β} {l : List (String × β)}
    (h : l.Pairwise (fun a b => a.1 < b.1)) :
    (place key value l).Pairwise (fun a b => a.1 < b.1) := by
  induction l with
  | nil => simp [place]
  | cons entry rest ih =>
    obtain ⟨first, tail⟩ := List.pairwise_cons.1 h
    unfold place
    split
    · next lt =>
      refine List.pairwise_cons.2 ⟨fun e he => ?_, h⟩
      rcases List.mem_cons.1 he with rfl | he
      · exact lt
      · exact String.lt_trans lt (first e he)
    · next notLt =>
      split
      · next same =>
        exact List.pairwise_cons.2 ⟨fun e he => same ▸ first e he, tail⟩
      · next other =>
        refine List.pairwise_cons.2 ⟨fun e he => ?_, ih tail⟩
        rcases mem_place he with rfl | he
        · rcases Decidable.em (entry.1 < key) with lt | notLt'
          · exact lt
          · exact absurd
              (String.le_antisymm (String.not_lt.1 notLt') (String.not_lt.1 notLt)) other
        · exact first e he

/-- The table with `value` at `key`. -/
def insert (t : Table β) (key : String) (value : β) : Table β :=
  ⟨place key value t.entries, sorted_place t.sorted⟩

/-- The table without `key`. -/
def erase (t : Table β) (key : String) : Table β :=
  ⟨t.entries.filter (fun e => e.1 != key), t.sorted.filter _⟩

/-- The table changed at `key`: `f` sees the value there, if any. -/
def alter (t : Table β) (key : String) (f : Option β → β) : Table β :=
  t.insert key (f (t.get? key))

/-- The entries of a list, a later one winning over an earlier one of its key. -/
def ofList (l : List (String × β)) : Table β :=
  l.foldl (fun t e => t.insert e.1 e.2) ∅

/-- Every entry of `other` inserted, in the order of its keys. -/
def insertAll (t other : Table β) : Table β :=
  other.entries.foldl (fun t e => t.insert e.1 e.2) t

/-! ### Lookups -/

@[simp] theorem get?_empty (key : String) : (∅ : Table β).get? key = none := rfl

theorem seek_eq_none {l : List (String × β)} {key : String} (h : ∀ e ∈ l, key < e.1) :
    seek key l = none := by
  induction l with
  | nil => rfl
  | cons entry rest ih =>
    have lt := h entry List.mem_cons_self
    have ne : entry.1 ≠ key := fun same => String.lt_irrefl _ (same ▸ lt)
    simpa [seek, ne] using ih fun e he => h e (List.mem_cons_of_mem _ he)

theorem seek_place (key : String) (value : β) (l : List (String × β)) (k : String) :
    seek k (place key value l) = if k = key then some value else seek k l := by
  induction l with
  | nil => simp [place, seek, eq_comm]
  | cons entry rest ih =>
    unfold place
    split
    · simp [seek, eq_comm (a := key)]
    · split
      · next same => subst same; by_cases h : entry.1 = k <;> simp [seek, h, eq_comm (a := k)]
      · next other =>
        by_cases h : entry.1 = k
        · subst h; simp [seek, Ne.symm other]
        · simp [seek, h, ih]

theorem seek_filter (key : String) (l : List (String × β)) (k : String) :
    seek k (l.filter (fun e => e.1 != key)) = if k = key then none else seek k l := by
  induction l with
  | nil => simp [seek]
  | cons entry rest ih =>
    by_cases h : entry.1 = key
    · by_cases hk : k = key
      · simp_all
      · simp_all [seek, eq_comm (a := key)]
    · by_cases hk : entry.1 = k
      · subst hk; simp [seek, h]
      · simp [seek, h, hk, ih]

@[simp] theorem get?_insert (t : Table β) (key : String) (value : β) (k : String) :
    (t.insert key value).get? k = if k = key then some value else t.get? k :=
  seek_place key value t.entries k

@[simp] theorem get?_erase (t : Table β) (key k : String) :
    (t.erase key).get? k = if k = key then none else t.get? k :=
  seek_filter key t.entries k

/-- What a table inserts takes the place of what is there. -/
theorem get?_insertAll (t other : Table β) (key : String) :
    (t.insertAll other).get? key = (other.get? key).or (t.get? key) := by
  obtain ⟨l, sorted⟩ := other
  show (l.foldl (fun t e => t.insert e.1 e.2) t).get? key = (seek key l).or (t.get? key)
  induction l generalizing t with
  | nil => rfl
  | cons e rest ih =>
    obtain ⟨first, sorted⟩ := List.pairwise_cons.1 sorted
    rw [List.foldl_cons, ih _ sorted, get?_insert, seek]
    by_cases same : e.1 = key
    · -- the keys after it are greater
      rw [if_pos same, if_pos same.symm, seek_eq_none fun e' mem => same ▸ first e' mem]
      rfl
    · rw [if_neg same, if_neg (Ne.symm same)]

/-- The first keys of two increasing lists with the same lookups agree. -/
private theorem key_le_of_seek {e f : String × β} {l m : List (String × β)}
    (hf : ∀ g ∈ m, f.1 < g.1) (h : seek e.1 (e :: l) = seek e.1 (f :: m)) : f.1 ≤ e.1 := by
  refine String.not_lt.1 fun lt => ?_
  have absent : seek e.1 (f :: m) = none := seek_eq_none fun g hg => by
    rcases List.mem_cons.1 hg with rfl | hg
    · exact lt
    · exact String.lt_trans lt (hf g hg)
  rw [absent] at h
  simp [seek] at h

private theorem ext_seek : ∀ {l m : List (String × β)},
    l.Pairwise (fun a b => a.1 < b.1) → m.Pairwise (fun a b => a.1 < b.1) →
    (∀ key, seek key l = seek key m) → l = m
  | [], [], _, _, _ => rfl
  | [], f :: _, _, _, h => by have := h f.1; simp [seek] at this
  | e :: _, [], _, _, h => by have := h e.1; simp [seek] at this
  | (a, x) :: l, (b, y) :: m, hl, hm, h => by
    obtain ⟨he, tailSorted⟩ := List.pairwise_cons.1 hl
    obtain ⟨hf, tailSorted'⟩ := List.pairwise_cons.1 hm
    have same : a = b :=
      String.le_antisymm (key_le_of_seek he (h b).symm) (key_le_of_seek hf (h a))
    subst same
    have value : x = y := by simpa [seek] using h a
    subst value
    have tails : l = m := ext_seek tailSorted tailSorted' fun key => by
      rcases Decidable.em (a = key) with rfl | other
      · rw [seek_eq_none he, seek_eq_none hf]
      · simpa [seek, other] using h key
    rw [tails]

/-- A table is determined by its lookups. -/
theorem ext_get? {s t : Table β} (h : ∀ key, s.get? key = t.get? key) : s = t := by
  obtain ⟨l, hl⟩ := s
  obtain ⟨m, hm⟩ := t
  obtain rfl : l = m := ext_seek hl hm h
  rfl

/-- A table is made again from its entries. -/
theorem ofList_entries (t : Table β) : ofList t.entries = t := by
  refine ext_get? fun key => ?_
  show ((∅ : Table β).insertAll t).get? key = t.get? key
  rw [get?_insertAll, get?_empty, Option.or_none]

end Table

end EntityModel
