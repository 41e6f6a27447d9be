import Stylesheet.Proofs.Sections

/-!
# Documents laid over each other

A source that opens a construct before it says anything about one can be read anywhere: what was open
before does not matter to it, and it adds to a document what it says by itself.

* `Table.mergeBy`, with `keys_mergeBy` and `get?_mergeBy`: a table worked into another one;
* `Document.merge`: the tokens of the second document are set one by one, its components and style
  rules take the place of those of the same name;
* `extend_merge`: a section added to the upper document is added to both;
* `run_headerLed`: reading a piece that is led by a header lays its document over the one so far.
-/

namespace Stylesheet

namespace Table

variable {α : Type}

/-- The first table with the entries of the second one worked in: a key that both have keeps its place,
a new one goes to the end. -/
def mergeBy (combine : Option α → α → α) (t u : Table α) : Table α :=
  u.entries.foldl (fun t e => t.insert e.1 (combine (t.get? e.1) e.2)) t

theorem merge_eq_mergeBy (t u : Table α) : t.merge u = t.mergeBy (fun _ value => value) u := rfl

theorem find_eq_none_of_not_mem {key : Text} {entries : List (Text × α)}
    (h : key ∉ entries.map Prod.fst) : find key entries = none := by
  cases found : find key entries with
  | none => rfl
  | some value => exact absurd (mem_keys_of_find found) h

theorem eq_of_find {a b : List (Text × α)} (keys : a.map Prod.fst = b.map Prod.fst)
    (nodup : (a.map Prod.fst).Nodup) (same : ∀ key, find key a = find key b) : a = b := by
  induction a generalizing b with
  | nil => exact (List.map_eq_nil_iff.1 keys.symm).symm
  | cons e a ih =>
    cases b with
    | nil => cases keys
    | cons f b =>
      obtain ⟨k, v⟩ := e
      obtain ⟨k', v'⟩ := f
      obtain ⟨rfl, others⟩ : k = k' ∧ a.map Prod.fst = b.map Prod.fst := by simpa using keys
      obtain ⟨fresh, nodup⟩ := List.nodup_cons.1 nodup
      obtain rfl : v = v' := by simpa [find] using same k
      have rest : ∀ key, find key a = find key b := by
        intro key
        by_cases first : key = k
        · rw [first, find_eq_none_of_not_mem fresh, find_eq_none_of_not_mem (others ▸ fresh)]
        · simpa [find, Ne.symm first] using same key
      rw [ih others nodup rest]

theorem eq_of_get? {t u : Table α} (keys : t.keys = u.keys)
    (same : ∀ key, t.get? key = u.get? key) : t = u :=
  ext (eq_of_find keys t.nodup same)

theorem keys_foldl_insert (combine : Option α → α → α) (t : Table α) {entries : List (Text × α)}
    (nodup : (entries.map Prod.fst).Nodup) :
    (entries.foldl (fun t e => t.insert e.1 (combine (t.get? e.1) e.2)) t).keys =
      t.keys ++ (entries.map Prod.fst).filter (!t.keys.contains ·) := by
  induction entries generalizing t with
  | nil => simp
  | cons e entries ih =>
    obtain ⟨k, v⟩ := e
    obtain ⟨fresh, nodup⟩ := List.nodup_cons.1 nodup
    rw [List.foldl_cons, ih _ nodup, keys_insert, List.map_cons]
    by_cases known : k ∈ t.keys
    · simp [known]
    · have others : (entries.map Prod.fst).filter (fun key => !(t.keys ++ [k]).contains key) =
          (entries.map Prod.fst).filter (fun key => !t.keys.contains key) := by
        apply List.filter_congr
        intro key hk
        have other : key ≠ k := fun same => fresh (same ▸ hk)
        simp [other]
      rw [if_neg known, others, List.filter_cons_of_pos (by simpa using known), List.append_assoc,
        List.singleton_append]

theorem get?_foldl_insert (combine : Option α → α → α) (t : Table α) (key : Text)
    {entries : List (Text × α)} (nodup : (entries.map Prod.fst).Nodup) :
    (entries.foldl (fun t e => t.insert e.1 (combine (t.get? e.1) e.2)) t).get? key =
      (find key entries).elim (t.get? key) fun value => some (combine (t.get? key) value) := by
  induction entries generalizing t with
  | nil => rfl
  | cons e entries ih =>
    obtain ⟨k, v⟩ := e
    obtain ⟨fresh, nodup⟩ := List.nodup_cons.1 nodup
    rw [List.foldl_cons, ih _ nodup, get?_insert]
    by_cases first : key = k
    · subst first
      simp [find, find_eq_none_of_not_mem fresh]
    · simp [find, first, Ne.symm first]

theorem keys_mergeBy (combine : Option α → α → α) (t u : Table α) :
    (t.mergeBy combine u).keys = t.keys ++ u.keys.filter (!t.keys.contains ·) :=
  keys_foldl_insert combine t u.nodup

theorem get?_mergeBy (combine : Option α → α → α) (t u : Table α) (key : Text) :
    (t.mergeBy combine u).get? key =
      (u.get? key).elim (t.get? key) fun value => some (combine (t.get? key) value) :=
  get?_foldl_insert combine t key u.nodup

theorem mem_keys_mergeBy {combine : Option α → α → α} {t u : Table α} {key : Text} :
    key ∈ (t.mergeBy combine u).keys ↔ key ∈ t.keys ∨ key ∈ u.keys := by
  by_cases known : key ∈ t.keys <;> simp [keys_mergeBy, known]

/-- An entry assigned to the upper table is combined with what the lower one has. -/
theorem mergeBy_insert (combine : Option α → α → α) (t u : Table α) (key : Text) (value : α) :
    t.mergeBy combine (u.insert key value) =
      (t.mergeBy combine u).insert key (combine (t.get? key) value) := by
  apply eq_of_get?
  · rw [keys_mergeBy, keys_insert, keys_insert]
    by_cases upper : key ∈ u.keys
    · rw [if_pos upper, if_pos (mem_keys_mergeBy.2 (.inr upper)), keys_mergeBy]
    · rw [if_neg upper, List.filter_append, ← List.append_assoc, ← keys_mergeBy combine]
      by_cases lower : key ∈ t.keys <;> simp [mem_keys_mergeBy, upper, lower]
  · intro other
    rw [get?_mergeBy, get?_insert, get?_insert, get?_mergeBy]
    by_cases same : other = key
    · simp [same]
    · simp [same]

theorem merge_insert (t u : Table α) (key : Text) (value : α) :
    t.merge (u.insert key value) = (t.merge u).insert key value := by
  rw [merge_eq_mergeBy, mergeBy_insert, merge_eq_mergeBy]

theorem merge_insertAll (t u : Table α) (pairs : List (Text × α)) :
    t.merge (u.insertAll pairs) = (t.merge u).insertAll pairs := by
  induction pairs generalizing u with
  | nil => rfl
  | cons e pairs ih => rw [insertAll_cons, insertAll_cons, ih, merge_insert]

end Table

/-- The first document with the second one over it. -/
def Document.merge (d e : Document) : Document where
  tokens := d.tokens.mergeBy (fun known new => (known.getD ∅).merge new) e.tokens
  components := d.components.merge e.components
  styles := d.styles.merge e.styles

namespace Source

open Text

theorem extend_merge (d e : Document) (part : Header × List Text) :
    extend (d.merge e) part = d.merge (extend e part) := by
  obtain ⟨header, owned⟩ := part
  cases header with
  | component name => simp only [extend, Document.merge, Table.merge_insert]
  | style selector => simp only [extend, Document.merge, Table.merge_insert]
  | tokens category =>
    -- What the lower document has in the category is found below what the upper one adds to it.
    have known : ((d.merge e).tokens.get? category).getD ∅ =
        ((d.tokens.get? category).getD ∅).merge ((e.tokens.get? category).getD ∅) := by
      rw [Document.merge, Table.get?_mergeBy]
      cases e.tokens.get? category with
      | none => rfl
      | some table => rfl
    simp only [extend, known, ← Table.merge_insertAll]
    simp only [Document.merge, Table.mergeBy_insert]

theorem foldl_extend_merge (d e : Document) (sections : List (Header × List Text)) :
    sections.foldl extend (d.merge e) = d.merge (sections.foldl extend e) := by
  induction sections generalizing e with
  | nil => rfl
  | cons part sections ih => rw [List.foldl_cons, List.foldl_cons, extend_merge, ih]

/-- No indented line, other than comments, stands in front of the first root header of a text. Where
there is no root header, no such line stands in the text at all. -/
def HeaderLed (piece : Text) : Prop :=
  ∀ line ∈ (lines piece).takeWhile fun line => (rootHeader? line).isNone, content? line = none

instance (piece : Text) : Decidable (HeaderLed piece) :=
  inferInstanceAs (Decidable (∀ line ∈ (lines piece).takeWhile fun line => (rootHeader? line).isNone,
    content? line = none))

theorem run_no_content (r : Reader) {lines : List Text}
    (plain : ∀ line ∈ lines, rootHeader? line = none) (none : ∀ line ∈ lines, content? line = none) :
    (r.run lines).document = r.document := by
  induction lines generalizing r with
  | nil => rfl
  | cons line lines ih =>
    have first : (r.step line).document = r.document := by
      have headless := plain line List.mem_cons_self
      have contentless := none line List.mem_cons_self
      rw [step_form]
      cases shape : form line with
      | header header => simp [rootHeader?, shape] at headless
      | content text => simp [content?, shape] at contentless
      | comment announced => rfl
      | idle => rfl
    rw [← first]
    exact ih _ (fun l hl => plain l (List.mem_cons_of_mem line hl))
      fun l hl => none l (List.mem_cons_of_mem line hl)

theorem run_headerLed {piece : Text} (led : HeaderLed piece) (r : Reader) :
    (r.run (lines piece)).document = r.document.merge (parse piece) := by
  have sectionwise (r : Reader) : (r.run (lines piece)).document =
      (parts rootHeader? (lines piece)).foldl extend r.document := by
    rw [run_sections, run_no_content r (none_of_mem_takeWhile rootHeader? (lines piece)) led]
  rw [sectionwise r, parse, sectionwise {}]
  exact foldl_extend_merge r.document {} _

end Source

end Stylesheet
