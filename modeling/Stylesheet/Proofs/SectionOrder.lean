import Stylesheet.Compile
import Stylesheet.Proofs.LineSeams

/-!
# The order of sections

Token tables, components and style rules are kept apart in a document, and a header forgets what was
open before it. So a section may change places with a section of another kind.

* `foldl_eq_of_filter`: steps of which those of different kinds commute can be taken in any order that
  keeps the order within each kind;
* `extend_comm`: sections of different kinds commute;
* `run_passages`: reading passages is adding their sections one after another;
* `parse_reordered`: a source and the same passages in another such order describe one document.
-/

namespace Stylesheet

section Commuting

variable {α κ δ : Type} {kind : α → κ} {step : δ → α → δ}

/-- A step that commutes with those in front of it can be taken first. -/
theorem foldl_moved (comm : ∀ d a b, kind a ≠ kind b → step (step d a) b = step (step d b) a)
    {front : List α} {x : α} (apart : ∀ a ∈ front, kind a ≠ kind x) (d : δ) :
    step (front.foldl step d) x = front.foldl step (step d x) := by
  induction front generalizing d with
  | nil => rfl
  | cons a front ih =>
    obtain ⟨first, others⟩ := List.forall_mem_cons.1 apart
    rw [List.foldl_cons, List.foldl_cons, ih others, comm d a x first]

/-- Only the order within each kind matters to steps of which those of different kinds commute. -/
theorem foldl_eq_of_filter [DecidableEq κ]
    (comm : ∀ d a b, kind a ≠ kind b → step (step d a) b = step (step d b) a) {xs ys : List α}
    (same : ∀ k, xs.filter (kind · == k) = ys.filter (kind · == k)) (d : δ) :
    xs.foldl step d = ys.foldl step d := by
  -- The induction is on one list. Its first element is, in the other list, the first of its kind.
  induction xs generalizing ys d with
  | nil =>
    cases ys with
    | nil => rfl
    | cons y ys => simpa using same (kind y)
  | cons x xs ih =>
    have found := (same (kind x)).symm
    rw [List.filter_cons_of_pos (by simp)] at found
    obtain ⟨front, back, rfl, others, -, later⟩ := List.filter_eq_cons_iff.1 found
    have apart : ∀ a ∈ front, kind a ≠ kind x := by simpa using others
    have rest : ∀ k, xs.filter (kind · == k) = (front ++ back).filter (kind · == k) := by
      intro k
      by_cases own : kind x = k
      · subst own
        have none : front.filter (kind · == kind x) = [] := List.filter_eq_nil_iff.2 others
        rw [List.filter_append, none, List.nil_append, later]
      · have all := same k
        rw [List.filter_append, List.filter_cons_of_neg (by simpa using own),
          List.filter_cons_of_neg (by simpa using own)] at all
        rw [List.filter_append, all]
    calc (x :: xs).foldl step d
        = xs.foldl step (step d x) := rfl
      _ = (front ++ back).foldl step (step d x) := ih rest (step d x)
      _ = back.foldl step (front.foldl step (step d x)) := List.foldl_append
      _ = back.foldl step (step (front.foldl step d) x) := by rw [foldl_moved comm apart]
      _ = (front ++ x :: back).foldl step d := by rw [List.foldl_append, List.foldl_cons]

end Commuting

/-- The CSS of a source is that of its document. -/
theorem css_compile (settings : Settings) (source : Text) :
    (compile settings source).map Compiled.css =
      (Source.parse source).css settings.overrides := by
  unfold compile Document.css
  dsimp only
  cases Sheet.ofDocument settings.overrides (Source.parse source) <;> rfl

namespace Source

open Text

/-- Sections of different kinds add to different parts of a document. -/
theorem extend_comm (d : Document) {a b : Header × List Text} (other : a.1.kind ≠ b.1.kind) :
    extend (extend d a) b = extend (extend d b) a := by
  obtain ⟨first, owned⟩ := a
  obtain ⟨second, owned'⟩ := b
  cases first with
  | tokens =>
    cases second with
    | tokens => exact absurd rfl other
    | component | style => rfl
  | component =>
    cases second with
    | component => exact absurd rfl other
    | tokens | style => rfl
  | style =>
    cases second with
    | style => exact absurd rfl other
    | tokens | component => rfl

/-! ## Sources made of passages -/

/-- A line that is a root header, with lines behind it of which none is one. -/
structure Passage where
  heading : Text
  owned : List Text
  /-- What the first line opens. -/
  header : Header
  opens : rootHeader? heading = some header
  plain : ∀ line ∈ owned, rootHeader? line = none
  /-- None of the lines is broken. -/
  single : ∀ line ∈ heading :: owned, '\n' ∉ line

namespace Passage

/-- The kind of construct that a passage is about. -/
def kind (p : Passage) : Section := p.header.kind

def written (p : Passage) : List Text := p.heading :: p.owned

/-- The text of a passage, with a line feed behind every line. -/
def text (p : Passage) : Text := p.written.flatMap (· ++ ['\n'])

def addTo (d : Document) (p : Passage) : Document := extend d (p.header, p.owned)

theorem addTo_comm (d : Document) (p q : Passage) (other : p.kind ≠ q.kind) :
    addTo (addTo d p) q = addTo (addTo d q) p :=
  extend_comm d other

end Passage

/-- A source is made of passages, one after another. Its last line may lack the line feed. -/
def MadeOf (source : Text) (ps : List Passage) : Prop :=
  source = ps.flatMap Passage.text ∨ source ++ ['\n'] = ps.flatMap Passage.text

/-- The second list has the passages of the first one in an order that keeps those of each kind as they
were. As every passage is of some kind, none is lost and none is added. -/
def Reorders (ps qs : List Passage) : Prop :=
  ∀ kind, ps.filter (·.kind == kind) = qs.filter (·.kind == kind)

/-- Passages in an order in which all that is used is defined behind its uses: style rules, then
components, then tokens. -/
def usesFirst (ps : List Passage) : List Passage :=
  ps.filter (·.kind == .styles) ++ ps.filter (·.kind == .components) ++ ps.filter (·.kind == .tokens)

theorem reorders_usesFirst (ps : List Passage) : Reorders ps (usesFirst ps) := by
  intro kind
  have own (k : Section) : (ps.filter (·.kind == k)).filter (·.kind == k) = ps.filter (·.kind == k) := by
    simp
  have none {k l : Section} (other : k ≠ l) :
      (ps.filter (·.kind == k)).filter (·.kind == l) = [] := by
    rw [List.filter_eq_nil_iff]
    intro p listed
    obtain ⟨-, first⟩ := List.mem_filter.1 listed
    rw [beq_iff_eq.1 first, beq_iff_eq]
    exact other
  rw [usesFirst, List.filter_append, List.filter_append]
  cases kind with
  | tokens => rw [own, none (by decide), none (by decide)]; rfl
  | components => rw [own, none (by decide), none (by decide), List.nil_append, List.append_nil]
  | styles => rw [own, none (by decide), none (by decide), List.append_nil, List.append_nil]

/-! ## Reading them -/

theorem run_lines_text (r : Reader) {written : List Text} (single : ∀ line ∈ written, '\n' ∉ line)
    (back : Text) :
    r.run (lines (written.flatMap (· ++ ['\n']) ++ back)) = (r.run written).run (lines back) := by
  induction written generalizing r with
  | nil => rfl
  | cons line written ih =>
    obtain ⟨first, others⟩ := List.forall_mem_cons.1 single
    have alone : lines line = [line] := split_eq_singleton first
    rw [List.flatMap_cons, List.append_assoc, List.append_assoc, List.singleton_append,
      run_append_newline, alone, ih _ others]
    rfl

theorem run_passage (r : Reader) (p : Passage) :
    (r.run p.written).document = Passage.addTo r.document p := by
  have first : r.run p.written = (r.openRoot p.header).run p.owned := by
    rw [← step_of_rootHeader? r p.opens]
    rfl
  rw [first]
  exact run_section r p.header p.plain

/-- What a passage leaves open does not matter to the next one, so each adds its section. -/
theorem run_passages (r : Reader) (ps : List Passage) :
    (r.run (lines (ps.flatMap Passage.text))).document = ps.foldl Passage.addTo r.document := by
  induction ps generalizing r with
  | nil => rfl
  | cons p ps ih =>
    have single : ∀ line ∈ p.written, '\n' ∉ line := p.single
    rw [List.flatMap_cons, Passage.text, run_lines_text r single, ih, run_passage, List.foldl_cons]

theorem parse_madeOf {source : Text} {ps : List Passage} (made : MadeOf source ps) :
    parse source = ps.foldl Passage.addTo {} := by
  have same : parse source = (Reader.run {} (lines (ps.flatMap Passage.text))).document := by
    rcases made with whole | cut
    · rw [parse, whole]
    · rw [← cut, run_append_newline, run_lines_nil, parse]
  rw [same]
  exact run_passages {} ps

theorem parse_of_reorders {ps qs : List Passage} (reorders : Reorders ps qs) {source other : Text}
    (made : MadeOf source ps) (remade : MadeOf other qs) : parse other = parse source := by
  rw [parse_madeOf made, parse_madeOf remade]
  exact (foldl_eq_of_filter Passage.addTo_comm reorders {}).symm

/-- Sections of different kinds commute: a source and the same passages in another order describe the
same document, and compile to the same CSS, if the order is the same within each kind. In particular
every use may stand in front of what it uses. -/
theorem parse_reordered {ps qs : List Passage} (reorders : Reorders ps qs) {source other : Text}
    (made : MadeOf source ps) (remade : MadeOf other qs) :
    parse other = parse source ∧
    (∀ settings, (compile settings other).map Compiled.css =
      (compile settings source).map Compiled.css) ∧
    parse ((usesFirst ps).flatMap Passage.text) = parse source := by
  have same := parse_of_reorders reorders made remade
  refine ⟨same, fun settings => ?_, ?_⟩
  · rw [css_compile, css_compile, same]
  · exact parse_of_reorders (reorders_usesFirst ps) made (.inl rfl)

namespace Passage

/-- A style rule whose nested block is left open, and whose last line a comment detaches. -/
def button : Passage where
  heading := "button:"
  owned := ["  use card", "  hover:", "# Tokens", "  ink red"]
  header := .style "button"
  opens := by decide +kernel
  plain := by decide +kernel
  single := by decide +kernel

def ink : Passage where
  heading := "colors:"
  owned := ["", "  ink navy"]
  header := .tokens "colors"
  opens := by decide +kernel
  plain := by decide +kernel
  single := by decide +kernel

/-- A component, with a line at the left margin that is no header. -/
def card : Passage where
  heading := "define card:  "
  owned := ["  round", "stray"]
  header := .component "card"
  opens := by decide +kernel
  plain := by decide +kernel
  single := by decide +kernel

def reink : Passage where
  heading := "colors:"
  owned := ["  ink teal"]
  header := .tokens "colors"
  opens := by decide +kernel
  plain := by decide +kernel
  single := by decide +kernel

end Passage

/-- A source with the component and the token in use behind the style rule. -/
def usedFirst : Text :=
  "button:\n  use card\n  hover:\n# Tokens\n  ink red\ncolors:\n\n  ink navy\n" ++
    "define card:  \n  round\nstray\ncolors:\n  ink teal\n"

/-- The same with the style rule at the end, which has no line feed. -/
def usedLast : Text :=
  "colors:\n\n  ink navy\ndefine card:  \n  round\nstray\ncolors:\n  ink teal\n" ++
    "button:\n  use card\n  hover:\n# Tokens\n  ink red"

theorem parse_usedLast :
    Reorders [.button, .ink, .card, .reink] [.ink, .card, .reink, .button] ∧
    MadeOf usedFirst [.button, .ink, .card, .reink] ∧
    MadeOf usedLast [.ink, .card, .reink, .button] ∧ parse usedLast = parse usedFirst := by
  have reorders : Reorders [.button, .ink, .card, .reink] [.ink, .card, .reink, .button] := by
    have styles : Passage.button.kind = .styles := rfl
    have components : Passage.card.kind = .components := rfl
    have tokens : Passage.ink.kind = .tokens ∧ Passage.reink.kind = .tokens := ⟨rfl, rfl⟩
    intro kind
    cases kind <;> simp [styles, components, tokens]
  have made : MadeOf usedFirst [.button, .ink, .card, .reink] := .inl (by decide +kernel)
  have remade : MadeOf usedLast [.ink, .card, .reink, .button] := .inr (by decide +kernel)
  exact ⟨reorders, made, remade, (parse_reordered reorders made remade).1⟩

end Source

end Stylesheet
