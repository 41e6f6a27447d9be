import Stylesheet.Command.Build
import Stylesheet.Proofs.TextTokens

/-!
# Writing a file leaves the others alone

Writing the output of a job makes directories and puts one file in place. The file is then at the place
that the output path names, with the bytes that were to be written; files elsewhere keep their bytes
and their stamps, and directories stay directories, of which some have a new stamp. Nothing is forbidden
that was not.

* `Keeps`: what was in a file system is still in another, but for one location;
* `makeDirectories_keeps`, `writeText_ok`: what the two parts of a write do;
* `Job.write_ok`: what a write does.
-/

namespace Stylesheet

namespace FileSystem

/-- Directories are still directories, and files are the same, except at one location. The clock has
not gone back, and no rights are lost. -/
structure Keeps (fs : FileSystem) (target : Location) (fs' : FileSystem) : Prop where
  clock : fs.clock ≤ fs'.clock
  rights : ∀ right l, fs.forbids right l = false → fs'.forbids right l = false
  directories : ∀ l stamp, fs.entry? l = some (.directory stamp) →
    ∃ stamp', fs'.entry? l = some (.directory stamp')
  files : ∀ l bytes stamp, l ≠ target → fs.entry? l = some (.file bytes stamp) →
    fs'.entry? l = some (.file bytes stamp)

variable {fs fs' : FileSystem} {l target parent : Location} {name : Text} {stamp : Nat}

namespace Keeps

theorem refl (target : Location) (fs : FileSystem) : fs.Keeps target fs where
  clock := Nat.le_refl _
  rights _ _ h := h
  directories _ stamp h := ⟨stamp, h⟩
  files _ _ _ _ h := h

theorem trans {fs'' : FileSystem} (h : fs.Keeps target fs') (h' : fs'.Keeps target fs'') :
    fs.Keeps target fs'' where
  clock := Nat.le_trans h.clock h'.clock
  rights right l allowed := h'.rights right l (h.rights right l allowed)
  directories l stamp found := by
    obtain ⟨between, found'⟩ := h.directories l stamp found
    exact h'.directories l between found'
  files l bytes stamp other found := h'.files l bytes stamp other (h.files l bytes stamp other found)

theorem obstacle?_eq_none (h : fs.Keeps target fs') (names : List Text) (front : Location)
    (free : fs.obstacle? front names = none) : fs'.obstacle? front names = none := by
  induction names generalizing front with
  | nil => rfl
  | cons name rest ih =>
    rw [obstacle?] at free
    split at free
    · cases free
    · cases free
    · rename_i stamp found
      obtain ⟨stamp', found'⟩ := h.directories front stamp found
      split at free
      · cases free
      · rename_i allowed
        split at free
        · cases free
        · rename_i short
          have allowed' := h.rights .enter front (by simpa using allowed)
          rw [obstacle?, found']
          simp only [allowed', Bool.false_eq_true, if_false, if_neg short]
          exact ih _ free

end Keeps

theorem Keeps.visit_file (h : fs.Keeps target fs') {bytes : List UInt8} (other : l ≠ target)
    (found : fs.visit l = .ok (.file bytes stamp)) : fs'.visit l = .ok (.file bytes stamp) := by
  obtain ⟨free, there⟩ := visit_eq_ok.1 found
  exact visit_eq_ok.2 ⟨h.obstacle?_eq_none l [] free, h.files l bytes stamp other there⟩

theorem Keeps.visit_directory (h : fs.Keeps target fs')
    (found : fs.visit l = .ok (.directory stamp)) :
    ∃ stamp', fs'.visit l = .ok (.directory stamp') := by
  obtain ⟨free, there⟩ := visit_eq_ok.1 found
  obtain ⟨stamp', there'⟩ := h.directories l stamp there
  exact ⟨stamp', visit_eq_ok.2 ⟨h.obstacle?_eq_none l [] free, there'⟩⟩

theorem Keeps.read_ok (h : fs.Keeps target fs') {text : Text} (other : l ≠ target)
    (found : fs.read l = .ok text) : fs'.read l = .ok text := by
  obtain ⟨short, allowed, entry, visited, held⟩ := read_eq_ok.1 found
  cases entry with
  | directory stamp => cases held
  | file bytes stamp =>
    exact read_eq_ok.2 ⟨short, h.rights .read l allowed, _, h.visit_file other visited, held⟩

/-! ## Putting an entry in place -/

/-- Changing entries at their places changes what is found at each location in the same way. -/
theorem find?_map_entries (entries : List (Location × Entry))
    (f : Location × Entry → Location × Entry) (fixed : ∀ e, (f e).1 = e.1) (l : Location) :
    (entries.map f).find? (·.1 == l) = (entries.find? (·.1 == l)).map f := by
  have same : (fun e : Location × Entry => e.1 == l) ∘ f = (·.1 == l) := by
    funext e
    simp [fixed]
  rw [List.find?_map, same]

theorem touch_fst (parent : Location) (stamp : Nat) (e : Location × Entry) :
    (put.touch parent stamp e).1 = e.1 := by
  unfold put.touch
  split
  · split <;> rfl
  · rfl

theorem touch_file (parent : Location) (stamp : Nat) (l : Location) (bytes : List UInt8)
    (old : Nat) : put.touch parent stamp (l, .file bytes old) = (l, .file bytes old) := by
  simp [put.touch]

theorem touch_directory (parent : Location) (stamp : Nat) (l : Location) (old : Nat) :
    ∃ new, put.touch parent stamp (l, .directory old) = (l, .directory new) := by
  by_cases h : l = parent
  · exact ⟨stamp, by simp [put.touch, h]⟩
  · exact ⟨old, by simp [put.touch, h]⟩

theorem entry?_eq_some {entry : Entry} :
    fs.entry? l = some entry ↔
      fs.entries.find? (·.1 == l) = some (l, entry) ∨
        fs.entries.find? (·.1 == l) = none ∧ l = [] ∧ entry = .directory 0 := by
  unfold entry?
  split
  · rename_i k found there
    have same : k = l := by simpa using List.find?_some there
    subst same
    simp [there]
  · rename_i missing
    simp only [missing, List.isEmpty_iff]
    split
    · rename_i empty
      simp [empty, eq_comm]
    · rename_i some_
      simp [some_]

theorem entry?_put_self (entry : Nat → Entry) (inside : l ≠ []) :
    entry? (fs.put l entry) l = some (entry fs.clock) := by
  rw [entry?_eq_some]
  refine .inl ?_
  unfold put
  split
  · rename_i present
    obtain ⟨old, found⟩ := Option.isSome_iff_exists.1 present
    have there : fs.entries.find? (·.1 == l) = some (l, old) := by
      simpa [inside] using entry?_eq_some.1 found
    rw [find?_map_entries _ _ (by intro e; split <;> simp_all), there]
    simp
  · rename_i absent
    have missing : fs.entries.find? (·.1 == l) = none := by
      cases h : fs.entries.find? (·.1 == l) with
      | none => rfl
      | some e =>
        have same : e.1 = l := by simpa using List.find?_some h
        have found : fs.entry? l = some e.2 := entry?_eq_some.2 (.inl (by rw [h, ← same]))
        simp [found] at absent
    simp only [List.find?_append, find?_map_entries _ _ (touch_fst _ _), missing]
    simp

/-- What is put at a location changes nothing elsewhere but the stamps of directories. -/
theorem find?_put (fs : FileSystem) (entry : Nat → Entry) {k : Location} (other : k ≠ l) :
    ∃ f : Location × Entry → Location × Entry,
      (fs.put l entry).entries.find? (·.1 == k) = (fs.entries.find? (·.1 == k)).map f ∧
      (∀ bytes stamp, f (k, .file bytes stamp) = (k, .file bytes stamp)) ∧
      ∀ stamp, ∃ new, f (k, .directory stamp) = (k, .directory new) := by
  unfold put
  split
  · refine ⟨_, find?_map_entries _ _ (by intro e; split <;> simp_all) k, ?_, ?_⟩
    · simp [other]
    · intro stamp
      exact ⟨stamp, by simp [other]⟩
  · refine ⟨put.touch l.dropLast fs.clock, ?_, touch_file _ _ k, touch_directory _ _ k⟩
    simp only [List.find?_append, find?_map_entries _ _ (touch_fst _ _)]
    simp [Ne.symm other]

theorem clock_put (fs : FileSystem) (l : Location) (entry : Nat → Entry) :
    (fs.put l entry).clock = fs.clock + 1 := by
  unfold put
  split <;> rfl

theorem forbids_put (entry : Nat → Entry) {right : Right} {k : Location}
    (allowed : fs.forbids right k = false) : (fs.put l entry).forbids right k = false := by
  unfold put
  split
  · exact allowed
  · simp only [forbids, List.contains_eq_mem, decide_eq_false_iff_not] at allowed ⊢
    exact fun listed => allowed ((List.mem_filter.1 listed).1)

theorem put_keeps (entry : Nat → Entry) (target : Location)
    (new : ∀ found, fs.entry? l = some found → l = target ∧ ∀ stamp, found ≠ .directory stamp) :
    fs.Keeps target (fs.put l entry) where
  clock := by
    rw [clock_put]
    omega
  rights _ _ := forbids_put entry
  directories k stamp found := by
    have other : k ≠ l := by
      rintro rfl
      exact (new _ found).2 stamp rfl
    obtain ⟨f, same, -, fixed⟩ := find?_put fs entry other
    rcases entry?_eq_some.1 found with there | ⟨missing, root, -⟩
    · obtain ⟨stamp', changed⟩ := fixed stamp
      exact ⟨stamp', entry?_eq_some.2 (.inl (by rw [same, there, Option.map_some, changed]))⟩
    · exact ⟨0, entry?_eq_some.2 (.inr ⟨by rw [same, missing]; rfl, root, rfl⟩)⟩
  files k bytes stamp away found := by
    have other : k ≠ l := by
      rintro rfl
      exact away (new _ found).1
    obtain ⟨f, same, fixed, -⟩ := find?_put fs entry other
    rcases entry?_eq_some.1 found with there | ⟨-, -, directory⟩
    · exact entry?_eq_some.2 (.inl (by rw [same, there, Option.map_some, fixed]))
    · cases directory

/-- Where the way is free and no directory is, a file can be put. -/
theorem putFile_ok (bytes : List UInt8) (inside : l ≠ []) (free : fs.obstacle? [] l = none)
    (noDirectory : ∀ stamp, fs.entry? l ≠ some (.directory stamp)) :
    fs.Keeps l (fs.putFile l bytes) ∧
      (fs.putFile l bytes).visit l = .ok (.file bytes fs.clock) := by
  have keeps : fs.Keeps l (fs.putFile l bytes) := by
    refine put_keeps _ l fun found there => ⟨rfl, ?_⟩
    rintro stamp rfl
    exact noDirectory stamp there
  refine ⟨keeps, visit_eq_ok.2 ⟨keeps.obstacle?_eq_none l [] free, ?_⟩⟩
  exact entry?_put_self _ inside

theorem putFile_over (bytes : List UInt8) {old : List UInt8} (inside : l ≠ [])
    (held : fs.visit l = .ok (.file old stamp)) :
    fs.Keeps l (fs.putFile l bytes) ∧
      (fs.putFile l bytes).visit l = .ok (.file bytes fs.clock) := by
  obtain ⟨free, found⟩ := visit_eq_ok.1 held
  refine putFile_ok bytes inside free fun stamp directory => ?_
  rw [found] at directory
  cases directory

/-! ## Following names -/

theorem obstacle?_append (front : Location) (names more : List Text) :
    fs.obstacle? front (names ++ more) =
      (fs.obstacle? front names).or (fs.obstacle? (front ++ names) more) := by
  induction names generalizing front with
  | nil => simp [obstacle?]
  | cons name rest ih =>
    simp only [List.cons_append, obstacle?]
    split
    · rfl
    · rfl
    · split
      · rfl
      · split
        · rfl
        · rw [ih, List.append_assoc]
          rfl

/-- The way to a directory goes through directories. -/
theorem visit_dropLast (h : fs.visit l = .ok (.directory stamp)) :
    ∃ stamp', fs.visit l.dropLast = .ok (.directory stamp') := by
  rcases List.eq_nil_or_concat l with rfl | ⟨front, name, rfl⟩
  · exact ⟨stamp, h⟩
  · have free := (visit_eq_ok.1 h).1
    rw [List.concat_eq_append, obstacle?_append, Option.or_eq_none_iff] at free
    obtain ⟨way, last⟩ := free
    rw [List.concat_eq_append, List.dropLast_concat]
    unfold obstacle? at last
    split at last
    · cases last
    · cases last
    · rename_i stamp' found
      exact ⟨stamp', visit_eq_ok.2 ⟨way, found⟩⟩

theorem visit_nil (h : fs.visit l = .ok (.directory stamp)) :
    ∃ stamp', fs.visit [] = .ok (.directory stamp') := by
  obtain ⟨free, found⟩ := visit_eq_ok.1 h
  cases l with
  | nil => exact ⟨stamp, h⟩
  | cons name rest =>
    unfold obstacle? at free
    split at free
    · cases free
    · cases free
    · rename_i stamp' root
      exact ⟨stamp', visit_eq_ok.2 ⟨rfl, root⟩⟩

/-- In a directory that may be entered, a name that is not too long can be looked up. -/
theorem free_enter (h : fs.visit parent = .ok (.directory stamp))
    (allowed : fs.forbids .enter parent = false) (name : Text)
    (short : fs.visit (parent.enter name) ≠ .error .nameTooLong) :
    fs.obstacle? [] (parent.enter name) = none := by
  by_cases up : name = ".."
  · obtain ⟨stamp', above⟩ := visit_dropLast h
    rw [Location.enter, if_pos up]
    exact (visit_eq_ok.1 above).1
  · obtain ⟨way, found⟩ := visit_eq_ok.1 h
    rw [Location.enter, if_neg up] at short ⊢
    rw [visit, obstacle?_append, way] at short
    rw [obstacle?_append, way]
    simp only [List.nil_append, Option.none_or, obstacle?, found, allowed, Bool.false_eq_true,
      if_false] at short ⊢
    split
    · rename_i long
      simp [long] at short
    · rfl

theorem follow_ok {names : List Text} {entry : Entry} (h : fs.follow l names = .ok (target, entry)) :
    target = names.foldl Location.enter l ∧ fs.visit target = .ok entry := by
  induction names generalizing l with
  | nil =>
    rw [follow] at h
    cases found : fs.visit l with
    | error fault => rw [found] at h; cases h
    | ok e =>
      rw [found] at h
      cases h
      exact ⟨rfl, found⟩
  | cons name rest ih =>
    rw [follow] at h
    split at h
    · cases h
    · cases h
    · split at h
      · cases h
      · exact ih h

/-- The place of the last name is in a directory that may be entered. -/
theorem place_ok {names : List Text} (h : fs.place l names = .ok (some target)) :
    target = names.foldl Location.enter l ∧
      ∃ parent name stamp, target = parent.enter name ∧ fs.visit parent = .ok (.directory stamp) ∧
        fs.forbids .enter parent = false := by
  unfold place at h
  split at h
  · cases h
  · rename_i name last
    split at h
    · cases h
    · cases h
    · rename_i parent stamp followed
      split at h
      · cases h
      · rename_i allowed
        obtain ⟨reached, there⟩ := follow_ok followed
        obtain ⟨front, rfl⟩ := List.getLast?_eq_some_iff.1 last
        rw [List.dropLast_concat] at reached
        cases h
        refine ⟨?_, parent, name, stamp, rfl, there, by simpa using allowed⟩
        rw [List.foldl_append, ← reached]
        rfl

/-! ## Making directories and writing files -/

/-- Nothing is at a place in a directory where nothing can be visited. -/
theorem entry?_eq_none (h : fs.visit target = .error .notFound)
    (inside : fs.visit parent = .ok (.directory stamp)) (allowed : fs.forbids .enter parent = false)
    (place : target = parent.enter name) : fs.entry? target = none := by
  have free : fs.obstacle? [] target = none := by
    rw [place]
    refine free_enter inside allowed name ?_
    rw [← place, h]
    simp
  rw [visit, free] at h
  cases found : fs.entry? target with
  | none => rfl
  | some entry => rw [found] at h; cases h

theorem makeDirectory_keeps {names : List Text} (h : fs.makeDirectory l names = .ok fs') :
    fs.Keeps target fs' := by
  unfold makeDirectory at h
  split at h
  · cases h
  · cases h
  · rename_i made placed
    obtain ⟨-, parent, name, stamp, place, inside, allowed⟩ := place_ok placed
    split at h
    · cases h
    · rename_i absent
      have new := entry?_eq_none absent inside allowed place
      split at h
      · cases h
      · cases h
        refine put_keeps .directory target fun found there => ?_
        rw [new] at there
        cases there
    · cases h

theorem orPresent_keeps {names : List Text} {made : Except FileFault FileSystem}
    (new : ∀ fs', made = .ok fs' → fs.Keeps target fs')
    (h : fs.orPresent l names made = .ok fs') : fs.Keeps target fs' := by
  unfold orPresent at h
  split at h
  · cases h
    exact new _ rfl
  · split at h
    · cases h
    · cases h
      exact .refl target fs
    · cases h

theorem makeDirectories_keeps {names : List Text} (h : fs.makeDirectories l names = .ok fs') :
    fs.Keeps target fs' := by
  fun_induction makeDirectories fs l names generalizing fs' with
  | case1 => cases h
  | case2 => cases h
  | case3 names absent some_ between made ih =>
    exact (ih made).trans (orPresent_keeps (fun _ => makeDirectory_keeps) h)
  | case4 names other =>
    exact orPresent_keeps (fun _ => makeDirectory_keeps) h

/-- A file can be put in a directory that may be entered, where no directory stands. -/
theorem putFile_inside (bytes : List UInt8) (inside : fs.visit parent = .ok (.directory stamp))
    (allowed : fs.forbids .enter parent = false) (place : target = parent.enter name)
    (short : fs.visit target ≠ .error .nameTooLong)
    (noDirectory : ∀ stamp, fs.visit target ≠ .ok (.directory stamp)) :
    fs.Keeps target (fs.putFile target bytes) ∧
      ∃ stamp, (fs.putFile target bytes).visit target = .ok (.file bytes stamp) := by
  have free : fs.obstacle? [] target = none := by
    rw [place]
    exact free_enter inside allowed name (place ▸ short)
  have inner : target ≠ [] := by
    rintro rfl
    obtain ⟨stamp', root⟩ := visit_nil inside
    exact noDirectory stamp' root
  obtain ⟨keeps, there⟩ := putFile_ok bytes inner free fun stamp found =>
    noDirectory stamp (visit_eq_ok.2 ⟨free, found⟩)
  exact ⟨keeps, fs.clock, there⟩

/-- A text is written to the file that the names lead to, and nowhere else. -/
theorem writeText_ok {names : List Text} {text : Text} (h : fs.writeText l names text = .ok fs') :
    fs.Keeps (names.foldl Location.enter l) fs' ∧
      ∃ stamp, fs'.visit (names.foldl Location.enter l) =
        .ok (.file (Utf8.encode text) stamp) := by
  unfold writeText at h
  split at h
  · cases h
  · cases h
  · rename_i target placed
    obtain ⟨same, parent, name, stamp, place, inside, allowed⟩ := place_ok placed
    rw [← same]
    have put := putFile_inside (Utf8.encode text) inside allowed place
    cases visited : fs.visit target with
    | ok entry =>
      cases entry with
      | directory stamp => simp [visited] at h
      | file bytes stamp =>
        simp only [visited] at h
        split at h
        · cases h
        · cases h
          exact put (by simp [visited]) (by simp [visited])
    | error fault =>
      cases fault with
      | notFound =>
        simp only [visited] at h
        split at h
        · cases h
        · cases h
          exact put (by simp [visited]) (by simp [visited])
      | _ => simp [visited] at h

end FileSystem

theorem mapError_ok {ε ε' α : Type} {f : ε → ε'} {x : Except ε α} {a : α}
    (h : x.mapError f = .ok a) : x = .ok a := by
  cases x with
  | error e => cases h
  | ok b =>
    cases h
    rfl

namespace Command.Job

def target (j : Job) : Location :=
  j.output.locate j.directory

theorem write_ok {j : Job} {fs fs' : FileSystem} {text : Text} (h : j.write fs text = .ok fs') :
    fs.Keeps j.target fs' ∧
      ∃ stamp, fs'.visit j.target = .ok (.file (Utf8.encode text) stamp) := by
  unfold write at h
  obtain ⟨-, -, h⟩ := bind_ok.1 h
  obtain ⟨between, made, h⟩ := bind_ok.1 h
  obtain ⟨-, -, written⟩ := bind_ok.1 h
  have kept : fs.Keeps j.target between := FileSystem.makeDirectories_keeps (mapError_ok made)
  obtain ⟨others, there⟩ := FileSystem.writeText_ok (mapError_ok written)
  exact ⟨kept.trans others, there⟩

end Command.Job

end Stylesheet
