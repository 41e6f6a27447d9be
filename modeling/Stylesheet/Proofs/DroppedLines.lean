import Stylesheet.Proofs.Completion
import Stylesheet.Proofs.SilentLines

/-!
# Lines that linting reports as dropped

Of some lines linting says that they are ignored or produce nothing. It finds them with a reader of
its own and with the components and tokens of the whole source. Such lines can be deleted, all of them
or some: the CSS stays the same.

* `filter_checkLines`: what is reported under the number of a line is what is found on it;
* `step_of_dropped`: reading such a line changes nothing, or adds a silent line;
* `run_keep`: reading with and without such lines leads to documents that differ in silent lines;
* `css_without`: so they have the same CSS.
-/

namespace Stylesheet

open Text Token

namespace Lint

open Source

/-- The codes of the findings that report a line as dropped. -/
def droppingCodes : List Text :=
  ["orphan-line", "bad-token", "unknown-root", "missing-colon", "unknown-property",
   "unknown-component"]

/-- Whether a line uses a component that is not defined, or is accepted by no shorthand. -/
def isSilent (document : Document) (tables : Tables) (line : Text) : Bool :=
  match Component.reference? line with
  | some name => !document.components.contains name
  | none =>
    match Shorthand.expand tables line with
    | .ok none => true
    | _ => false

variable {document : Document} {tables : Tables}

theorem isSilent_iff {line : Text} :
    isSilent document tables line = true ↔ IsSilent tables document.components line := by
  unfold isSilent IsSilent
  cases uses : Component.reference? line with
  | some name => simp
  | none =>
    simp only [reduceCtorEq, false_and, exists_false, true_and, false_or]
    split
    · rename_i nothing
      simp [nothing]
    · rename_i other
      exact ⟨fun h => (Bool.false_ne_true h).elim, fun h => (other h).elim⟩

theorem checkRoot_eq_nil {content : Text} {header : Header} (h : header? content = some header) :
    checkRoot content = [] := by
  simp [checkRoot, h]

/-- Findings are made on lines that are no headers, and what is found depends on the form of a line. -/
theorem form_of_finding {ctx : Context} {line : Text} {found : List Finding}
    (h : checkLine document tables ctx line = .ok found) {f : Finding} (hf : f ∈ found) :
    form line = .idle ∨
      ∃ text, form line = .content text ∧ checkContent document tables ctx text = .ok found := by
  have nothing : ¬ found = [] := List.ne_nil_of_mem hf
  unfold checkLine at h
  unfold form
  simp only at h ⊢
  by_cases empty : (trim line).isEmpty = true
  · exact .inl (if_pos empty)
  · by_cases comment : isComment (trim line) (indentation line) = true
    · rw [if_pos (by simp [comment])] at h
      exact absurd (Except.ok.inj h).symm nothing
    · rw [if_neg (by simp [empty, comment])] at h
      rw [if_neg empty, if_neg comment]
      by_cases margin : indentation line = 0
      · rw [if_pos margin] at h ⊢
        cases header : header? (trim line) with
        | none => exact .inl rfl
        | some opened =>
          rw [checkRoot_eq_nil header] at h
          exact absurd (Except.ok.inj h).symm nothing
      · rw [if_neg margin] at h ⊢
        exact .inr ⟨trim line, rfl, h⟩

/-! ## What a dropped line does to a reader -/

theorem hasTarget_inTokens (category : Text) (d : Document) (t : Table Text) :
    (inTokens category d t).context.hasTarget = true := rfl

theorem hasTarget_inBlock {h : Header} (block : h.kind ≠ .tokens) (d : Document)
    (s : Option Text × Block) : (inBlock h d s).context.hasTarget = true := by
  cases h with
  | tokens category => exact absurd rfl block
  | component | style => rfl

theorem eq_invalidShade_of_mem {content : Text} {f : Finding} (h : f ∈ checkShades tables content) :
    ∃ hue shade, f = .invalidShade hue shade := by
  obtain ⟨piece, -, found⟩ := List.mem_filterMap.1 h
  split at found
  · split at found
    · rename_i hue shade _
      obtain ⟨-, same⟩ := Option.ite_none_right_eq_some.1 found
      exact ⟨hue, shade, (Option.some.inj same).symm⟩
    · cases found
  · cases found

theorem invalidShade_not_dropping (hue shade : Text) :
    (Finding.invalidShade hue shade).code ∉ droppingCodes := by
  show ("invalid-shade" : Text) ∉ droppingCodes
  decide

theorem unknownBlock_not_dropping (name : Text) (suggestion : Option Text) :
    (Finding.unknownBlock name suggestion).code ∉ droppingCodes := by
  show ("unknown-block" : Text) ∉ droppingCodes
  decide

/-- A property line that is reported as dropped is silent. -/
theorem isSilent_of_dropped {content : Text} {found : List Finding}
    (h : checkProperty document tables content = .ok found) {f : Finding} (hf : f ∈ found)
    (dropping : f.code ∈ droppingCodes) : isSilent document tables content = true := by
  rw [isSilent_iff]
  unfold checkProperty at h
  split at h
  · rename_i name uses
    cases defined : document.components.contains name with
    | true =>
      rw [if_pos defined] at h
      rw [← Except.ok.inj h] at hf
      cases hf
    | false => exact .inl ⟨name, uses, defined⟩
  · rename_i plain
    obtain ⟨ds, expanded, h⟩ := bind_ok.1 h
    cases ds with
    | none => exact .inr ⟨plain, expanded⟩
    | some ds =>
      -- An accepted line can only have shades that do not exist, and is not dropped for them.
      rw [← Except.ok.inj h, List.append_nil] at hf
      obtain ⟨hue, shade, rfl⟩ := eq_invalidShade_of_mem hf
      exact absurd dropping (invalidShade_not_dropping hue shade)

theorem content_of_dropped {ctx : Context} (target : ctx.hasTarget = true) {content : Text}
    {found : List Finding} (h : checkContent document tables ctx content = .ok found) {f : Finding}
    (hf : f ∈ found) (dropping : f.code ∈ droppingCodes) :
    nestedHeader? content = none ∧
      (ctx.state = some .tokens ∧ tokenValue? content = none ∨
        ctx.state ≠ some .tokens ∧ checkProperty document tables content = .ok found) := by
  have nothing : ¬ found = [] := List.ne_nil_of_mem hf
  unfold checkContent at h
  rw [if_neg (by simp [target])] at h
  cases nested : nestedHeader? content with
  | some name =>
    rw [if_pos (by simp [nested])] at h
    exact absurd (Except.ok.inj h).symm nothing
  | none =>
    rw [if_neg (by simp [nested])] at h
    refine ⟨rfl, ?_⟩
    split at h
    · rw [← Except.ok.inj h, List.mem_singleton] at hf
      rw [hf] at dropping
      exact absurd dropping (unknownBlock_not_dropping _ _)
    · by_cases tokens : ctx.state = some .tokens
      · rw [if_pos tokens] at h
        cases value : tokenValue? content with
        | none => exact .inl ⟨tokens, rfl⟩
        | some token =>
          rw [if_pos (by simp [value])] at h
          exact absurd (Except.ok.inj h).symm nothing
      · rw [if_neg tokens] at h
        exact .inr ⟨tokens, h⟩

/-- What a reported line of content does depends on what is open: it does nothing if nothing is, nor
as a token without a value, and otherwise it adds a silent line. -/
theorem feed_of_dropped {r : Reader} (anchored : r.Anchored) {content : Text} {found : List Finding}
    (h : checkContent document tables r.context content = .ok found) {f : Finding} (hf : f ∈ found)
    (dropping : f.code ∈ droppingCodes) :
    (r.feed content).Alike (isSilent document tables) r := by
  cases anchored with
  | detached detached =>
    rw [feed_detached detached]
    exact ⟨rfl, rfl⟩
  | inTokens category d t =>
    obtain ⟨-, ⟨-, valueless⟩ | ⟨other, -⟩⟩ :=
      content_of_dropped (hasTarget_inTokens category d t) h hf dropping
    · rw [feed_inTokens, valueless]
      exact ⟨rfl, rfl⟩
    · exact absurd rfl other
  | @inBlock header block d s held =>
    have state : (inBlock header d s).context.state ≠ some .tokens := by
      cases header with
      | tokens category => exact absurd rfl block
      | component | style => simp [inBlock, Header.context]
    obtain ⟨plain, ⟨tokens, -⟩ | ⟨-, property⟩⟩ :=
      content_of_dropped (hasTarget_inBlock block d s) h hf dropping
    · exact absurd tokens state
    · exact alike_feed_of_left_out block d held plain (isSilent_of_dropped property hf dropping)

/-- A line that is reported as dropped changes nothing but the silent lines of the document. -/
theorem step_of_dropped {r : Reader} (anchored : r.Anchored) {line : Text} {found : List Finding}
    (h : checkLine document tables r.context line = .ok found) {f : Finding} (hf : f ∈ found)
    (dropping : f.code ∈ droppingCodes) :
    (r.step line).Alike (isSilent document tables) r := by
  rw [step_form]
  rcases form_of_finding h hf with idle | ⟨text, content, h⟩
  · rw [idle]
    exact ⟨rfl, rfl⟩
  · rw [content]
    exact feed_of_dropped anchored h hf dropping

/-! ## Deleting lines -/

/-- The lines from number `n` on without those that have one of some numbers. -/
def keep (numbers : List Nat) : (n : Nat) → List Text → List Text
  | _, [] => []
  | n, line :: rest =>
    if numbers.contains n then keep numbers (n + 1) rest else line :: keep numbers (n + 1) rest

/-- A source without the lines that have one of some numbers, counted from one. -/
def without (numbers : List Nat) (source : Text) : Text :=
  join ['\n'] (keep numbers 1 (lines source))

theorem keep_sublist (numbers : List Nat) (n : Nat) (lines : List Text) :
    (keep numbers n lines).Sublist lines := by
  induction lines generalizing n with
  | nil => exact .slnil
  | cons line rest ih =>
    unfold keep
    split
    · exact (ih (n + 1)).cons line
    · exact (ih (n + 1)).cons_cons line

theorem le_of_mem_checkLines {n : Nat} {r : Reader} {lines : List Text} {found : List Diagnostic}
    (h : checkLines document tables n r lines = .ok found) {d : Diagnostic} (hd : d ∈ found) :
    n ≤ d.line := by
  induction lines generalizing n r found with
  | nil =>
    rw [← Except.ok.inj h] at hd
    cases hd
  | cons line rest ih =>
    obtain ⟨here, -, h⟩ := bind_ok.1 h
    obtain ⟨later, others, h⟩ := bind_ok.1 h
    rw [← Except.ok.inj h] at hd
    rcases List.mem_append.1 hd with now | after
    · obtain ⟨f, -, rfl⟩ := List.mem_map.1 now
      exact Nat.le_refl n
    · exact Nat.le_of_succ_le (ih others after)

/-- What is reported under the number of a line is what is found on it. -/
theorem filter_checkLines {n : Nat} {r : Reader} {front back : List Text} {line : Text}
    {found : List Diagnostic}
    (h : checkLines document tables n r (front ++ line :: back) = .ok found) {here : List Finding}
    (checked : checkLine document tables (r.run front).context line = .ok here) :
    found.filter (·.line == n + front.length) = here.map (⟨n + front.length, ·⟩) := by
  induction front generalizing n r found with
  | nil =>
    obtain ⟨first, same, h⟩ := bind_ok.1 h
    obtain ⟨later, others, h⟩ := bind_ok.1 h
    obtain rfl : here = first := Except.ok.inj (checked.symm.trans same)
    have others_apart : later.filter (·.line == n) = [] := by
      refine List.filter_eq_nil_iff.2 fun d hd => ?_
      have behind := le_of_mem_checkLines others hd
      simp only [beq_iff_eq]
      omega
    rw [← Except.ok.inj h, List.filter_append]
    simp [others_apart]
  | cons first front ih =>
    obtain ⟨now, -, h⟩ := bind_ok.1 h
    obtain ⟨later, others, h⟩ := bind_ok.1 h
    have place : n + (first :: front).length = n + 1 + front.length := by
      rw [List.length_cons]
      omega
    have before : (now.map (Diagnostic.mk n)).filter (·.line == n + 1 + front.length) = [] := by
      refine List.filter_eq_nil_iff.2 fun d hd => ?_
      obtain ⟨f, -, rfl⟩ := List.mem_map.1 hd
      simp only [beq_iff_eq]
      omega
    rw [← Except.ok.inj h, place, List.filter_append, before, List.nil_append]
    exact ih others checked

theorem mem_checkLines {n : Nat} {r : Reader} {front back : List Text} {line : Text}
    {found : List Diagnostic}
    (h : checkLines document tables n r (front ++ line :: back) = .ok found) {here : List Finding}
    (checked : checkLine document tables (r.run front).context line = .ok here) {f : Finding} :
    ⟨n + front.length, f⟩ ∈ found ↔ f ∈ here := by
  have same : ⟨n + front.length, f⟩ ∈ found.filter (·.line == n + front.length) ↔
      ⟨n + front.length, f⟩ ∈ here.map (Diagnostic.mk (n + front.length)) := by
    rw [filter_checkLines h checked]
  simpa using same

/-- Readers that are alike stay so when one of them is not given lines that are reported as dropped. -/
theorem run_keep {numbers : List Nat} {n : Nat} {r r' : Reader} (anchored : r.Anchored)
    (alike : r.Alike (isSilent document tables) r') {lines : List Text} {found : List Diagnostic}
    (h : checkLines document tables n r lines = .ok found)
    (reported : ∀ m ∈ numbers, n ≤ m → ∃ d ∈ found, d.line = m ∧ d.finding.code ∈ droppingCodes) :
    (r.run lines).Alike (isSilent document tables) (r'.run (keep numbers n lines)) := by
  induction lines generalizing n r r' found with
  | nil => exact alike
  | cons line rest ih =>
    obtain ⟨here, checked, h⟩ := bind_ok.1 h
    obtain ⟨later, others, h⟩ := bind_ok.1 h
    obtain rfl := Except.ok.inj h
    have reported_later : ∀ m ∈ numbers, n + 1 ≤ m →
        ∃ d ∈ later, d.line = m ∧ d.finding.code ∈ droppingCodes := by
      intro m hm behind
      obtain ⟨d, hd, same, dropping⟩ := reported m hm (by omega)
      rcases List.mem_append.1 hd with now | after
      · obtain ⟨f, -, rfl⟩ := List.mem_map.1 now
        simp only at same
        omega
      · exact ⟨d, after, same, dropping⟩
    have go {s : Reader} (same : (r.step line).Alike (isSilent document tables) s) :=
      ih (step_anchored anchored line) same others reported_later
    unfold keep
    split
    · rename_i deleted
      obtain ⟨d, hd, same, dropping⟩ := reported n (by simpa using deleted) (Nat.le_refl n)
      rcases List.mem_append.1 hd with now | after
      · obtain ⟨f, hf, rfl⟩ := List.mem_map.1 now
        have silent := step_of_dropped anchored checked hf dropping
        exact go ⟨silent.context.trans alike.context, silent.document.trans alike.document⟩
      · have behind := le_of_mem_checkLines others after
        omega
    · exact go (alike.step line)

/-- Joining lines and reading what they are joined to is reading the lines. -/
theorem run_lines_join (r : Reader) {kept : List Text} (h : ∀ line ∈ kept, '\n' ∉ line) :
    r.run (lines (join ['\n'] kept)) = r.run kept := by
  cases kept with
  | nil => rfl
  | cons line rest => rw [lines, split_join (by simp) h]

/-- What is left of a source describes the same document, but for silent lines. -/
theorem parse_without {source : Text} {tables : Tables} {found : List Diagnostic}
    (h : checkLines (parse source) tables 1 {} (lines source) = .ok found) {numbers : List Nat}
    (reported : ∀ n ∈ numbers, ∃ d ∈ found, d.line = n ∧ d.finding.code ∈ droppingCodes) :
    (parse source).prune (isSilent (parse source) tables) =
      (parse (without numbers source)).prune (isSilent (parse source) tables) := by
  have newlines : ∀ line ∈ keep numbers 1 (lines source), '\n' ∉ line := fun line hl =>
    not_mem_of_mem_split ((keep_sublist numbers 1 _).subset hl)
  have alike := run_keep anchored_start ⟨rfl, rfl⟩ h fun n hn _ => reported n hn
  have read : parse (without numbers source) =
      (Reader.run {} (keep numbers 1 (lines source))).document := by
    rw [parse, without, run_lines_join {} newlines]
  rw [read]
  exact alike.document

/-- Documents that differ in silent lines have the same sheet. -/
theorem ofDocument_of_prune {d d' : Document}
    (h : d.prune (isSilent d (Sheet.tables none d)) = d'.prune (isSilent d (Sheet.tables none d))) :
    Sheet.ofDocument none d' = Sheet.ofDocument none d := by
  obtain ⟨tokens, components, -⟩ := Document.mk.inj h
  have tables : Sheet.tables none d' = Sheet.tables none d := by
    rw [Sheet.tables, Sheet.tables, tokens]
  have defined (name : Text) : d'.components.contains name = d.components.contains name := by
    rw [← Table.contains_map (Block.prune (isSilent d (Sheet.tables none d))), ← components,
      Table.contains_map]
  have silent : ∀ line, isSilent d (Sheet.tables none d) line = true →
      IsSilent (Sheet.tables none d') d'.components line := by
    intro line left
    simpa only [IsSilent, tables, defined] using isSilent_iff.1 left
  obtain ⟨s, whole⟩ := Sheet.ofDocument_ok (fun _ => isTextual_of_none) d
  obtain ⟨s', short⟩ := Sheet.ofDocument_ok (fun _ => isTextual_of_none) d'
  have pruned := Sheet.ofDocument_prune (fun line => isSilent_iff.1) whole
  rw [h, Sheet.ofDocument_prune silent short] at pruned
  rw [whole, short, pruned]

end Lint

open Lint

/-- Some of the lines that linting reports as dropped, or all of them, are deleted from a source.
Without given tokens, what is left compiles to the same CSS. -/
theorem css_without (source : Text) (settings : Settings) (plain : settings.overrides = none) :
    ∃ found, lint source = .ok found ∧
      ∀ numbers : List Nat,
        (∀ n ∈ numbers, ∃ d ∈ found, d.line = n ∧ d.finding.code ∈ droppingCodes) →
        ∃ whole short, compile settings source = .ok whole ∧
          compile settings (without numbers source) = .ok short ∧ short.css = whole.css := by
  obtain ⟨found, linted⟩ := lint_ok source
  refine ⟨found, linted, fun numbers reported => ?_⟩
  have same := ofDocument_of_prune (parse_without linted reported)
  obtain ⟨sheet, made⟩ := Sheet.ofDocument_ok (fun _ => isTextual_of_none) (Source.parse source)
  rw [made] at same
  rw [← plain] at made same
  exact ⟨_, _, bind_ok.2 ⟨sheet, made, rfl⟩, bind_ok.2 ⟨sheet, same, rfl⟩, rfl⟩

/-- A source with a selector that lacks its colon, a component that is not defined, and a token
without a value. -/
def gappy : Text := "oops\np:\n  bold\n  use card\ncolors:\n  red\n"

theorem css_gappy : ∃ whole short, compile {} gappy = .ok whole ∧
    compile {} "p:\n  bold\ncolors:\n" = .ok short ∧ short.css = whole.css := by
  obtain ⟨found, linted, deleted⟩ := css_without gappy {} rfl
  have split : Source.lines gappy =
      ["oops", "p:", "  bold", "  use card", "colors:", "  red", ""] := by decide +kernel
  have reported (front : List Text) (line : Text) (back : List Text) (f : Finding)
      (cut : Source.lines gappy = front ++ line :: back)
      (checked : ∀ tables, checkLine (Source.parse gappy) tables
        (Source.Reader.run {} front).context line = .ok [f]) : ⟨1 + front.length, f⟩ ∈ found := by
    unfold lint at linted
    rw [cut] at linted
    exact (mem_checkLines linted (checked _)).2 List.mem_cons_self
  have bare := reported [] "oops" _ (.missingColon "oops") split fun _ => rfl
  have undefined := reported ["oops", "p:", "  bold"] "  use card" _
    (.unknownComponent "card" none) split fun _ => rfl
  have valueless := reported ["oops", "p:", "  bold", "  use card", "colors:"] "  red" _
    (.badToken "red") split fun _ => rfl
  have left : without [1, 4, 6] gappy = "p:\n  bold\ncolors:\n" := by decide +kernel
  rw [← left]
  refine deleted [1, 4, 6] ?_
  simp only [List.forall_mem_cons]
  exact ⟨⟨_, bare, rfl, by decide⟩, ⟨_, undefined, rfl, by decide⟩, ⟨_, valueless, rfl, by decide⟩,
    List.forall_mem_nil _⟩

end Stylesheet
