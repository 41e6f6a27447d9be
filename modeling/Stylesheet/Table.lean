import Stylesheet.Text.Basic

/-!
# Tables

A table maps texts to values and remembers the order in which its keys first came in. Assigning a
key again replaces its value and keeps its place.

* `keys_insert`: a new key goes to the end, a known one stays where it is;
* `get?_insert`: the assigned value is found, every other key is untouched.
-/

namespace Stylesheet

/-- An association of texts with values, in order of first assignment. -/
structure Table (α : Type) where
  /-- Keys with their values, in order of first assignment. -/
  entries : List (Text × α)
  nodup : (entries.map Prod.fst).Nodup

namespace Table

variable {α β : Type}

@[ext]
theorem ext {s t : Table α} (h : s.entries = t.entries) : s = t := by
  cases s; cases t; cases h; rfl

instance [DecidableEq α] : DecidableEq (Table α) := fun s t =>
  decidable_of_iff (s.entries = t.entries) ⟨Table.ext, fun h => h ▸ rfl⟩

def empty : Table α := ⟨[], List.nodup_nil⟩

instance : EmptyCollection (Table α) := ⟨empty⟩

instance : Inhabited (Table α) := ⟨empty⟩

/-- The keys, in order of first assignment. -/
def keys (t : Table α) : List Text :=
  t.entries.map Prod.fst

def size (t : Table α) : Nat :=
  t.entries.length

/-- The value that a list of entries has for a key. -/
def find (key : Text) : List (Text × α) → Option α
  | [] => none
  | (k, v) :: rest => if k = key then some v else find key rest

def get? (t : Table α) (key : Text) : Option α :=
  find key t.entries

def contains (t : Table α) (key : Text) : Bool :=
  (t.get? key).isSome

/-- Entries with a value assigned to a key: in its place, or at the end. -/
def assign (key : Text) (value : α) : List (Text × α) → List (Text × α)
  | [] => [(key, value)]
  | (k, v) :: rest => if k = key then (k, value) :: rest else (k, v) :: assign key value rest

theorem map_fst_assign (key : Text) (value : α) (entries : List (Text × α)) :
    (assign key value entries).map Prod.fst =
      if key ∈ entries.map Prod.fst then entries.map Prod.fst
      else entries.map Prod.fst ++ [key] := by
  induction entries with
  | nil => simp [assign]
  | cons e rest ih =>
    obtain ⟨k, v⟩ := e
    by_cases h : k = key
    · simp [assign, h]
    · by_cases hm : key ∈ rest.map Prod.fst
      · simp_all [assign]
      · have hk : key ≠ k := fun e => h e.symm
        simp_all [assign]

theorem nodup_assign (key : Text) (value : α) {entries : List (Text × α)}
    (h : (entries.map Prod.fst).Nodup) : ((assign key value entries).map Prod.fst).Nodup := by
  rw [map_fst_assign]
  split
  · exact h
  · rename_i absent
    refine List.nodup_append.2 ⟨h, by simp, ?_⟩
    intro a ha b hb
    simp only [List.mem_singleton] at hb
    subst hb
    exact fun e => absent (e ▸ ha)

def insert (t : Table α) (key : Text) (value : α) : Table α :=
  ⟨assign key value t.entries, nodup_assign key value t.nodup⟩

/-- The table that results from assigning the entries of a list in order. -/
def ofList (entries : List (Text × α)) : Table α :=
  entries.foldl (fun t e => t.insert e.1 e.2) ∅

/-- The first table with the entries of the second assigned over it. -/
def merge (t u : Table α) : Table α :=
  u.entries.foldl (fun t e => t.insert e.1 e.2) t

theorem map_fst_map (f : α → β) (entries : List (Text × α)) :
    ((entries.map fun e => (e.1, f e.2)).map Prod.fst) = entries.map Prod.fst := by
  simp [List.map_map, Function.comp_def]

/-- The table with every value changed by a function. -/
def map (f : α → β) (t : Table α) : Table β :=
  ⟨t.entries.map fun e => (e.1, f e.2), by rw [map_fst_map]; exact t.nodup⟩

/-- The table in which the value of `key`, if there is one, is changed by a function. -/
def modify (t : Table α) (key : Text) (f : α → α) : Table α :=
  match t.get? key with
  | some value => t.insert key (f value)
  | none => t

theorem keys_insert (t : Table α) (key : Text) (value : α) :
    (t.insert key value).keys = if key ∈ t.keys then t.keys else t.keys ++ [key] :=
  map_fst_assign key value t.entries

theorem find_assign (key other : Text) (value : α) (entries : List (Text × α)) :
    find other (assign key value entries) =
      if other = key then some value else find other entries := by
  induction entries with
  | nil => by_cases h : key = other <;> simp [assign, find, h, eq_comm]
  | cons e rest ih =>
    obtain ⟨k, v⟩ := e
    by_cases hk : k = key
    · subst hk
      by_cases ho : k = other
      · simp [assign, find, ho]
      · have : other ≠ k := fun e => ho e.symm
        simp [assign, find, ho, this]
    · by_cases ho : k = other
      · subst ho
        simp [assign, find, hk]
      · simp [assign, find, hk, ho, ih]

theorem get?_insert (t : Table α) (key other : Text) (value : α) :
    (t.insert key value).get? other = if other = key then some value else t.get? other :=
  find_assign key other value t.entries

theorem mem_keys_of_find {key : Text} {value : α} {entries : List (Text × α)}
    (h : find key entries = some value) : key ∈ entries.map Prod.fst := by
  induction entries with
  | nil => simp [find] at h
  | cons e rest ih =>
    obtain ⟨k, v⟩ := e
    by_cases hk : k = key
    · simp [hk]
    · simp only [find, hk, if_false] at h
      simp [ih h]

theorem mem_keys_of_get? {t : Table α} {key : Text} {value : α}
    (h : t.get? key = some value) : key ∈ t.keys :=
  mem_keys_of_find h

end Table

end Stylesheet
