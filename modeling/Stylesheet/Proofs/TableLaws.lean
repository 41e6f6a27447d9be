import Stylesheet.Table

/-!
# Laws of tables

* `insert_insert`: of two assignments to one key, the first is forgotten;
* `insert_of_get?`: assigning a value that a key has already changes nothing;
* `entries_insert`: a new key goes to the end with its value;
* `insertAll_entries`: a table is what its entries are assigned to, one by one;
* `modify_insert`: changing a value that was just assigned is assigning the changed value;
* `map_insert`, `map_modify_congr`: a function on the values commutes with assigning and changing them;
* `map_insert_of_get?`: a value that the function does not tell from the old one can be assigned unseen.
-/

namespace Stylesheet.Table

variable {α : Type}

theorem assign_assign (key : Text) (first second : α) (entries : List (Text × α)) :
    assign key second (assign key first entries) = assign key second entries := by
  induction entries with
  | nil => simp [assign]
  | cons e rest ih =>
    obtain ⟨k, v⟩ := e
    by_cases h : k = key
    · simp [assign, h]
    · simp [assign, h, ih]

theorem insert_insert (t : Table α) (key : Text) (first second : α) :
    (t.insert key first).insert key second = t.insert key second :=
  ext (assign_assign key first second t.entries)

theorem assign_of_find {key : Text} {value : α} {entries : List (Text × α)}
    (h : find key entries = some value) : assign key value entries = entries := by
  induction entries with
  | nil => simp [find] at h
  | cons e rest ih =>
    obtain ⟨k, v⟩ := e
    by_cases hk : k = key
    · have same : v = value := by simpa [find, hk] using h
      simp [assign, hk, same]
    · have found : find key rest = some value := by simpa [find, hk] using h
      simp [assign, hk, ih found]

theorem insert_of_get? {t : Table α} {key : Text} {value : α} (h : t.get? key = some value) :
    t.insert key value = t :=
  ext (assign_of_find h)

theorem assign_of_not_mem {key : Text} (value : α) {entries : List (Text × α)}
    (new : key ∉ entries.map Prod.fst) : assign key value entries = entries ++ [(key, value)] := by
  induction entries with
  | nil => rfl
  | cons e rest ih =>
    obtain ⟨other, absent⟩ : key ≠ e.1 ∧ key ∉ rest.map Prod.fst := by simpa using new
    rw [assign, if_neg (Ne.symm other), ih absent, List.cons_append]

/-- A new key goes to the end. -/
theorem entries_insert {t : Table α} {key : Text} (new : key ∉ t.keys) (value : α) :
    (t.insert key value).entries = t.entries ++ [(key, value)] :=
  assign_of_not_mem value new

theorem get?_insert_self (t : Table α) (key : Text) (value : α) :
    (t.insert key value).get? key = some value := by
  rw [get?_insert, if_pos rfl]

theorem modify_insert (t : Table α) (key : Text) (value : α) (f : α → α) :
    (t.insert key value).modify key f = t.insert key (f value) := by
  rw [modify, get?_insert_self]
  exact insert_insert t key value (f value)

/-- A table with the pairs of a list assigned in order. -/
def insertAll (t : Table α) (pairs : List (Text × α)) : Table α :=
  pairs.foldl (fun t e => t.insert e.1 e.2) t

@[simp] theorem insertAll_nil (t : Table α) : t.insertAll [] = t := rfl

@[simp] theorem insertAll_cons (t : Table α) (e : Text × α) (pairs : List (Text × α)) :
    t.insertAll (e :: pairs) = (t.insert e.1 e.2).insertAll pairs := rfl

theorem ofList_eq_insertAll (pairs : List (Text × α)) : ofList pairs = (∅ : Table α).insertAll pairs :=
  rfl

theorem entries_insertAll {t : Table α} {pairs : List (Text × α)} (nodup : (pairs.map Prod.fst).Nodup)
    (new : ∀ e ∈ pairs, e.1 ∉ t.keys) : (t.insertAll pairs).entries = t.entries ++ pairs := by
  induction pairs generalizing t with
  | nil => simp
  | cons e pairs ih =>
    obtain ⟨fresh, nodup⟩ := List.nodup_cons.1 nodup
    obtain ⟨first, new⟩ := List.forall_mem_cons.1 new
    have later : ∀ f ∈ pairs, f.1 ∉ (t.insert e.1 e.2).keys := by
      intro f hf
      have other : f.1 ≠ e.1 := fun same => fresh (same ▸ List.mem_map_of_mem hf)
      simp [keys_insert, first, new f hf, other]
    rw [insertAll_cons, ih nodup later, entries_insert first, List.append_assoc, List.singleton_append]

/-- A table is what its entries are assigned to, one by one. -/
theorem insertAll_entries (t : Table α) : (∅ : Table α).insertAll t.entries = t :=
  ext (entries_insertAll t.nodup fun _ _ => List.not_mem_nil)

theorem mem_of_find {key : Text} {value : α} {entries : List (Text × α)}
    (h : find key entries = some value) : (key, value) ∈ entries := by
  induction entries with
  | nil => simp [find] at h
  | cons e rest ih =>
    obtain ⟨k, v⟩ := e
    by_cases hk : k = key
    · have same : v = value := by simpa [find, hk] using h
      simp [hk, same]
    · have found : find key rest = some value := by simpa [find, hk] using h
      exact List.mem_cons_of_mem _ (ih found)

theorem find_of_mem {key : Text} {value : α} {entries : List (Text × α)}
    (nodup : (entries.map Prod.fst).Nodup) (h : (key, value) ∈ entries) :
    find key entries = some value := by
  induction entries with
  | nil => cases h
  | cons e rest ih =>
    obtain ⟨k, v⟩ := e
    simp only [List.map_cons, List.nodup_cons] at nodup
    rcases List.mem_cons.1 h with same | later
    · obtain ⟨rfl, rfl⟩ := Prod.mk.inj same
      simp [find]
    · have other : k ≠ key := by
        rintro rfl
        exact nodup.1 (List.mem_map.2 ⟨_, later, rfl⟩)
      simp [find, other, ih nodup.2 later]

theorem get?_of_mem {t : Table α} {e : Text × α} (h : e ∈ t.entries) : t.get? e.1 = some e.2 :=
  find_of_mem t.nodup h

theorem exists_get?_of_mem_keys {t : Table α} {key : Text} (h : key ∈ t.keys) :
    ∃ value, t.get? key = some value := by
  obtain ⟨e, he, rfl⟩ := List.mem_map.1 h
  exact ⟨e.2, get?_of_mem he⟩

theorem mem_keys_insert_self (t : Table α) (key : Text) (value : α) :
    key ∈ (t.insert key value).keys :=
  mem_keys_of_get? (get?_insert_self t key value)

theorem mem_assign {key : Text} {value : α} {entries : List (Text × α)} {e : Text × α}
    (h : e ∈ assign key value entries) : e = (key, value) ∨ e ∈ entries := by
  induction entries with
  | nil => exact .inl (by simpa [assign] using h)
  | cons f rest ih =>
    obtain ⟨k, v⟩ := f
    by_cases hk : k = key
    · simp only [assign, hk, if_true, List.mem_cons] at h
      rcases h with rfl | h
      · exact .inl rfl
      · exact .inr (List.mem_cons_of_mem _ h)
    · simp only [assign, hk, if_false, List.mem_cons] at h
      rcases h with rfl | h
      · exact .inr List.mem_cons_self
      · exact (ih h).imp_right (List.mem_cons_of_mem _)

/-- Every entry of a table that was assigned in order is one of the pairs or was there before. -/
theorem mem_insertAll {t : Table α} {pairs : List (Text × α)} {e : Text × α}
    (h : e ∈ (t.insertAll pairs).entries) : e ∈ pairs ∨ e ∈ t.entries := by
  induction pairs generalizing t with
  | nil => exact .inr h
  | cons p pairs ih =>
    rcases ih h with later | before
    · exact .inl (List.mem_cons_of_mem p later)
    · rcases mem_assign before with rfl | old
      · exact .inl List.mem_cons_self
      · exact .inr old

/-! ## Tables seen through a function -/

variable {β : Type}

theorem find_map (f : α → β) (key : Text) (entries : List (Text × α)) :
    find key (entries.map fun e => (e.1, f e.2)) = (find key entries).map f := by
  induction entries with
  | nil => rfl
  | cons e rest ih =>
    by_cases same : e.1 = key
    · simp [find, same]
    · simp [find, same, ih]

theorem get?_map (f : α → β) (t : Table α) (key : Text) :
    (t.map f).get? key = (t.get? key).map f :=
  find_map f key t.entries

theorem assign_map (f : α → β) (key : Text) (value : α) (entries : List (Text × α)) :
    (assign key value entries).map (fun e => (e.1, f e.2)) =
      assign key (f value) (entries.map fun e => (e.1, f e.2)) := by
  induction entries with
  | nil => rfl
  | cons e rest ih =>
    by_cases same : e.1 = key
    · simp [assign, same]
    · simp [assign, same, ih]

theorem map_insert (f : α → β) (t : Table α) (key : Text) (value : α) :
    (t.insert key value).map f = (t.map f).insert key (f value) :=
  ext (assign_map f key value t.entries)

/-- Assigning a value that looks the same as the old one changes nothing that is seen. -/
theorem map_insert_of_get? {f : α → β} {t : Table α} {key : Text} {old new : α}
    (found : t.get? key = some old) (same : f new = f old) : (t.insert key new).map f = t.map f := by
  have there : (t.map f).get? key = some (f old) := by rw [get?_map, found, Option.map_some]
  rw [map_insert, same, insert_of_get? there]

/-- Tables that look the same through `f` still do after a change that `f` does not tell apart. -/
theorem map_modify_congr {f : α → β} {g : α → α} (hg : ∀ a b, f a = f b → f (g a) = f (g b))
    {t u : Table α} (h : t.map f = u.map f) (key : Text) :
    (t.modify key g).map f = (u.modify key g).map f := by
  have same : (t.get? key).map f = (u.get? key).map f := by
    rw [← get?_map, ← get?_map, h]
  unfold modify
  cases left : t.get? key with
  | none =>
    cases right : u.get? key with
    | none => exact h
    | some b => simp [left, right] at same
  | some a =>
    cases right : u.get? key with
    | none => simp [left, right] at same
    | some b =>
      have alike : f a = f b := by simpa [left, right] using same
      simp only [map_insert, h, hg a b alike]

theorem contains_map (f : α → β) (t : Table α) (key : Text) :
    (t.map f).contains key = t.contains key := by
  simp [contains, get?_map]

end Stylesheet.Table
