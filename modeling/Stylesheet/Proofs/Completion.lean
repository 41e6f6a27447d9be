import Stylesheet.Compile
import Stylesheet.Lint
import Stylesheet.Proofs.OpenConstructs
import Stylesheet.Proofs.TextTokens
import Stylesheet.Proofs.Trim

/-!
# Compiling and linting come to an end

Each stage takes something for granted: the reader that what is open is in the document, a shorthand
that a line it accepts is among its keywords or has a value behind a space, linting that there is a
table of colors, and scoping that an at-rule has a first word. None of this is ever missing, and if
the colors and sizes among the given tokens are texts, compiling and linting give a result.

* `declare_of_accepts`, `space_of_accepts`: what shorthands find in the lines that they accept;
* `run?_eq_some`: no line of a source stops a reader that takes nothing for granted;
* `compile_ok`, `lint_ok`: there is a result.
-/

namespace Stylesheet

open Text Token

/-! ## Shorthands -/

namespace Shorthand

theorem space_of_leads {front line : Text} (space : ' ' ∈ front) (h : leads front line = true) :
    ' ' ∈ line := by
  obtain ⟨rest, rfl⟩ := List.isPrefixOf_iff_prefix.1 h
  exact List.mem_append_left rest space

theorem space_mem_append (word : Text) : ' ' ∈ word ++ (" " : Text) :=
  List.mem_append_right word (by decide)

theorem mem_of_lookup {α : Type} {table : List (Text × α)} {line : Text} {value : α}
    (h : table.lookup line = some value) : (line, value) ∈ table := by
  obtain ⟨front, back, rfl, -⟩ := List.lookup_eq_some_iff.1 h
  simp

/-- What a shorthand takes a value from has a space in it. Only properties that are written in full
may have another blank. -/
theorem space_of_accepts (line : Text) : ∀ s ∈ all, s.accepts line = true →
    line ∈ s.keywords ∨ ' ' ∈ line ∨ s.name = "geometry" := by
  have spaced (name : Text) (words : List Text) (property : Text)
      (h : (spaced name words property).accepts line = true) : ' ' ∈ line := by
    obtain ⟨word, -, h⟩ := List.any_eq_true.1 h
    exact space_of_leads (space_mem_append word) h
  have scaled (name word category property usual : Text)
      (h : (scaled name word category property usual).accepts line = true) :
      line ∈ [word] ∨ ' ' ∈ line ∨ name = "geometry" := by
    rcases Bool.or_eq_true _ _ ▸ h with same | h
    · exact .inl (List.mem_singleton.2 (eq_of_beq same))
    · exact .inr (.inl (space_of_leads (space_mem_append word) h))
  have fixed (name : Text) (table : List (Text × List Declaration))
      (h : (fixed name table).accepts line = true) : line ∈ table.map Prod.fst := by
    obtain ⟨ds, found⟩ := Option.isSome_iff_exists.1 h
    exact List.mem_map.2 ⟨_, mem_of_lookup found, rfl⟩
  simp only [all, List.forall_mem_cons]
  and_intros
  all_goals
    first
    | exact List.forall_mem_nil _
    | exact fun h => .inl (fixed _ _ h)
    | exact scaled _ _ _ _ _
    | exact fun h => .inr (.inl (spaced _ _ _ h))
    | exact fun h => .inr (.inl (space_of_leads (space_mem_append _) h))
    | exact fun h => .inr (.inl (space_of_leads (by decide) h))
    | exact fun h => .inr (.inl (List.contains_iff_mem.1 h))
    | exact fun _ => .inr (.inr rfl)

/-- A line that a shorthand accepts stands for at least one declaration. -/
theorem declare_of_accepts {tables : Tables} (texts : IsTextual tables) (line : Text) :
    ∀ s ∈ all, s.accepts line = true → ∃ d ds, s.declare tables line = .ok (d :: ds) := by
  have spaced (name : Text) (words : List Text) (property : Text) :
      ∃ d ds, (spaced name words property).declare tables line = .ok (d :: ds) := by
    obtain ⟨t, found⟩ := sizes_ok texts (rest line)
    exact ⟨⟨property, t⟩, [], bind_ok.2 ⟨t, found, rfl⟩⟩
  have fixed (name : Text) (table : List (Text × List Declaration))
      (some : ∀ e ∈ table, e.2 ≠ []) (h : (fixed name table).accepts line = true) :
      ∃ d ds, (fixed name table).declare tables line = .ok (d :: ds) := by
    obtain ⟨value, found⟩ := Option.isSome_iff_exists.1 h
    obtain ⟨d, ds, rfl⟩ := List.exists_cons_of_ne_nil (some _ (mem_of_lookup found))
    exact ⟨d, ds, by simp [Shorthand.fixed, found]⟩
  have sized (name : Text) : ∃ d ds,
      (.ok (fontSize tables name) : Except Misfit (List Declaration)) = .ok (d :: ds) := by
    unfold fontSize
    split <;> exact ⟨_, _, rfl⟩
  simp only [all, List.forall_mem_cons]
  and_intros
  all_goals
    first
    | exact List.forall_mem_nil _
    | exact fun _ => ⟨_, _, rfl⟩
    | exact fixed _ _ (by decide)
    | exact fun _ => spaced _ _ _
    | exact fun _ => sized _

end Shorthand

/-! ## Reading, tables, openings -/

theorem Source.run?_eq_some {r : Reader} (h : r.Anchored) (lines : List Text) :
    lines.foldlM Reader.step? r = some (r.run lines) := by
  induction lines generalizing r with
  | nil => rfl
  | cons line lines ih =>
    rw [List.foldlM_cons, step?_eq_some h]
    exact ih (step_anchored h line)

namespace Token

theorem mem_keys_insert {t : Tables} {category : Text} (h : category ∈ t.keys) (other : Text)
    (table : Table Value) : category ∈ (t.insert other table).keys := by
  rw [Table.keys_insert]
  split
  · exact h
  · exact List.mem_append_left _ h

/-- Layers over the built-in tables take no category away. -/
theorem mem_keys_ofLayers {category : Text} (h : category ∈ defaults.keys)
    (layers : List (Option Tables)) : category ∈ (Tables.ofLayers layers).keys := by
  unfold Tables.ofLayers
  refine List.foldlRecOn (motive := fun t : Tables => category ∈ t.keys) layers _ h
    fun tables held layer _ => ?_
  unfold Tables.overlay
  exact List.foldlRecOn (motive := fun t : Tables => category ∈ t.keys) _ _ held
    fun t ht e _ => mem_keys_insert ht e.1 _

end Token

theorem Css.atWord_ne_nil {opening : Text} (h : leads "@" (trim opening) = true) :
    (trim opening).takeWhile (fun c => !isBlank c) ≠ [] := by
  obtain ⟨rest, found⟩ := List.isPrefixOf_iff_prefix.1 h
  rw [← found]
  exact List.cons_ne_nil _ _

/-! ## Linting and compiling -/

namespace Lint

open Source

theorem checkProperty_ok {tables : Tables} (h : IsTextual tables) (document : Document)
    (content : Text) : ∃ found, checkProperty document tables content = .ok found := by
  unfold checkProperty
  split
  · split <;> exact ⟨_, rfl⟩
  · obtain ⟨ds, expanded⟩ := Shorthand.expand_ok h content
    exact ⟨_, bind_ok.2 ⟨ds, expanded, rfl⟩⟩

theorem checkContent_ok {tables : Tables} (h : IsTextual tables) (document : Document)
    (ctx : Context) (content : Text) :
    ∃ found, checkContent document tables ctx content = .ok found := by
  unfold checkContent
  split
  · exact ⟨_, rfl⟩
  · split
    · exact ⟨_, rfl⟩
    · split
      · exact ⟨_, rfl⟩
      · split
        · exact ⟨_, rfl⟩
        · exact checkProperty_ok h document content

theorem checkLine_ok {tables : Tables} (h : IsTextual tables) (document : Document) (ctx : Context)
    (line : Text) : ∃ found, checkLine document tables ctx line = .ok found := by
  simp only [checkLine]
  split
  · exact ⟨[], rfl⟩
  · split
    · exact ⟨_, rfl⟩
    · exact checkContent_ok h document ctx (trim line)

theorem checkLines_ok {tables : Tables} (h : IsTextual tables) (document : Document) (n : Nat)
    (r : Reader) (lines : List Text) :
    ∃ found, checkLines document tables n r lines = .ok found := by
  induction lines generalizing n r with
  | nil => exact ⟨[], rfl⟩
  | cons line lines ih =>
    obtain ⟨here, first⟩ := checkLine_ok h document r.context line
    obtain ⟨later, others⟩ := ih (n + 1) (r.step line)
    exact ⟨_, bind_ok.2 ⟨here, first, bind_ok.2 ⟨later, others, rfl⟩⟩⟩

end Lint

theorem lint_ok (source : Text) : ∃ found, lint source = .ok found := by
  refine Lint.checkLines_ok ?_ _ _ _ _
  exact Sheet.isTextual_tables (fun _ => isTextual_of_none) (Source.parse source)

theorem compile_ok {settings : Settings}
    (texts : ∀ tables, settings.overrides = some tables → IsTextual tables) (source : Text) :
    ∃ compiled, compile settings source = .ok compiled := by
  obtain ⟨sheet, found⟩ := Sheet.ofDocument_ok texts (Source.parse source)
  exact ⟨_, bind_ok.2 ⟨sheet, found, rfl⟩⟩

/-- What each stage looks for in what earlier stages hand to it is there. -/
structure Grounded (source : Text) (tables : Tables) : Prop where
  /-- Reading stops at no line. -/
  reading : (Source.lines source).foldlM Source.Reader.step? {} =
    some (Source.Reader.run {} (Source.lines source))
  /-- A shorthand has declarations for a line that it accepts. -/
  declares : ∀ line, ∀ s ∈ Shorthand.all, s.accepts line = true →
    ∃ d ds, s.declare tables line = .ok (d :: ds)
  /-- A shorthand finds a space before the value that it takes from a line. -/
  space : ∀ line, ∀ s ∈ Shorthand.all, s.accepts line = true →
    line ∈ s.keywords ∨ ' ' ∈ line ∨ s.name = "geometry"
  /-- The categories that have built-in tables have tables. -/
  categories : ∀ category ∈ defaults.keys, category ∈ tables.keys
  /-- The opening of an at-rule has a first word. -/
  atWord : ∀ opening, leads "@" (trim opening) = true →
    (trim opening).takeWhile (fun c => !isBlank c) ≠ []

/-- If the colors and sizes among the given tokens are texts, compiling and linting give a result for
every source, whatever the other tokens are, and no stage looks for something in vain. -/
theorem compile_lint_ok (settings : Settings)
    (texts : ∀ tables, settings.overrides = some tables → IsTextual tables) (source : Text) :
    (∃ compiled, compile settings source = .ok compiled) ∧ (∃ found, lint source = .ok found) ∧
      Grounded source (Sheet.tables settings.overrides (Source.parse source)) := by
  have textual := Sheet.isTextual_tables texts (Source.parse source)
  refine ⟨compile_ok texts source, lint_ok source, ?_⟩
  exact {
    reading := Source.run?_eq_some Source.anchored_start _
    declares := Shorthand.declare_of_accepts textual
    space := Shorthand.space_of_accepts
    categories := fun category h => mem_keys_ofLayers h _
    atWord := fun _ h => Css.atWord_ne_nil h }

/-- Tokens with a dot in the name of a color, and a font size of three parts. -/
def oddTokens : Tables :=
  .ofList
    [("colors", textTable [("a.b", "#123")]),
     ("fontSize", .ofList [("x", .parts ["1px", "2px", "3px"])])]

/-- A source with components that use each other, a string that is not closed, and a brace in it. -/
def oddSource : Text :=
  "component a:\n  use b\ncomponent b:\n  use a\n  content \"\x7b\np:\n  use a\n  size x\n  pad \n"

theorem compile_lint_odd : IsTextual oddTokens ∧
    (∃ compiled, compile { overrides := some oddTokens } oddSource = .ok compiled) ∧
    ∃ found, lint oddSource = .ok found := by
  have texts : IsTextual oddTokens := by
    constructor
    · intro table found e he
      obtain rfl : textTable [("a.b", "#123")] = table := Option.some.inj found
      obtain ⟨f, -, rfl⟩ := mem_textTable he
      exact ⟨f.2, rfl⟩
    · intro table found
      cases found
  have given : ∀ tables, some oddTokens = some tables → IsTextual tables := by
    rintro tables ⟨⟩
    exact texts
  obtain ⟨compiled, linted, -⟩ := compile_lint_ok { overrides := some oddTokens } given oddSource
  exact ⟨texts, compiled, linted⟩

end Stylesheet
