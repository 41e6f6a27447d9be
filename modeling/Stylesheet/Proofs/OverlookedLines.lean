import Stylesheet.Proofs.DroppedLines

/-!
# Lines that linting passes over

A line that is neither blank nor a comment opens a construct, opens a nested block, gives a token its
value, adds a property line, or is dropped. Linting reports a dropped line, with two exceptions: what
is an import statement once the blanks around it are gone, and the header of a nested block in a token
category.

* `Effect`: what a line can do to a document;
* `step_eq_perform`: reading a line does just that, or nothing;
* `checkLine_eq_nil_iff`: on a dropped line nothing is found exactly in the two exceptions;
* `dropped_reported_iff`: so it is for the diagnostics of a source.
-/

namespace Stylesheet

open Text Token

namespace Source

/-- What a line can do to what is open and to the document. A block is given by the header of its
component or style rule. -/
inductive Effect where
  | openRoot (h : Header)
  | openNested (block : Header) (name : Text)
  | setToken (category name value : Text)
  | addLine (block : Header) (content : Text)
deriving DecidableEq

/-- The component or style rule that lines go to. -/
def Context.block? (ctx : Context) : Option Header :=
  match ctx.state, ctx.component, ctx.selector with
  | some .components, some name, _ => some (.component name)
  | some .styles, _, some selector => some (.style selector)
  | _, _, _ => none

/-- What a line of content does, if it is not dropped. -/
def Context.feedEffect? (ctx : Context) (content : Text) : Option Effect :=
  match nestedHeader? content, ctx.state, ctx.category with
  | some name, _, _ => ctx.block?.map (.openNested · name)
  | none, some .tokens, some category =>
    (tokenValue? content).map fun token => .setToken category token.1 token.2
  | none, _, _ => ctx.block?.map (.addLine · content)

/-- What a line does, if it is no comment and is not dropped. -/
def Context.effect? (ctx : Context) (line : Text) : Option Effect :=
  match form line with
  | .header h => some (.openRoot h)
  | .content text => ctx.feedEffect? text
  | _ => none

/-- A document with the block of a component or a style rule changed. -/
def Header.modify : Header → Document → (Block → Block) → Document
  | tokens _, d, _ => d
  | component name, d, f => d.modifyComponent name f
  | style selector, d, f => d.modifyStyle selector f

def Effect.perform (r : Reader) : Effect → Reader
  | openRoot h => r.openRoot h
  | openNested block name =>
    { context := { r.context with nested := some name }
      document := block.modify r.document (·.openNested name) }
  | setToken category name value =>
    { r with document := r.document.setToken category name value }
  | addLine block content =>
    { r with document := block.modify r.document (Reader.addLine r.context.nested content) }

/-- Whether a line is neither blank nor a comment. -/
def isShown (line : Text) : Bool :=
  !((trim line).isEmpty || isComment (trim line) (indentation line))

/-! ## What a line does to a reader -/

theorem feed_eq_perform {r : Reader} (anchored : r.Anchored) (content : Text) :
    r.feed content = ((r.context.feedEffect? content).map (·.perform r)).getD r := by
  cases anchored with
  | detached detached =>
    obtain ⟨category, component, selector⟩ := id detached
    rw [feed_detached detached]
    cases nested : nestedHeader? content <;>
      simp [Context.feedEffect?, Context.block?, nested, category, component, selector]
  | inTokens category d t =>
    cases nested : nestedHeader? content with
    | some name =>
      simp [Reader.feed, Context.feedEffect?, Context.block?, nested, Reader.openNested, inTokens,
        Header.context]
    | none =>
      cases value : tokenValue? content <;>
        simp [Reader.feed, Context.feedEffect?, nested, value, Reader.addContent, inTokens,
          Header.context, Effect.perform]
  | @inBlock h block d s held =>
    cases h with
    | tokens category => exact absurd rfl block
    | component | style =>
      cases nested : nestedHeader? content <;>
        simp [Reader.feed, Context.feedEffect?, Context.block?, nested, Reader.openNested,
          Reader.addContent, inBlock, Header.context, Effect.perform, Header.modify]

/-- A line that is no comment does what its effect says, and nothing if it has none. -/
theorem step_eq_perform {r : Reader} (anchored : r.Anchored) {line : Text}
    (shown : isShown line = true) :
    r.step line = ((r.context.effect? line).map (·.perform r)).getD r := by
  rw [step_form, Context.effect?]
  cases shape : form line with
  | header h => rfl
  | content text => exact feed_eq_perform anchored text
  | idle => rfl
  | comment announced =>
    simp only [isShown, Bool.not_eq_true', Bool.or_eq_false_iff] at shown
    simp only [form, shown.1, shown.2, Bool.false_eq_true, if_false] at shape
    split at shape
    · split at shape <;> cases shape
    · cases shape

end Source

namespace Lint

open Source

/-- The dropped lines that linting passes over: at the left margin an import statement, perhaps with
blanks behind it that no statement may have, and in a token category the header of a nested block. -/
def Overlooked (ctx : Context) (line : Text) : Prop :=
  (indentation line = 0 ∧ Import.isStatement (trim line) = true) ∨
    (indentation line ≠ 0 ∧ ctx.state = some .tokens ∧ ctx.category.isSome = true ∧
      (nestedHeader? (trim line)).isSome = true)

instance (ctx : Context) (line : Text) : Decidable (Overlooked ctx line) :=
  inferInstanceAs (Decidable (_ ∨ _))

variable {document : Document} {tables : Tables} {ctx : Context}

theorem checkRoot_eq_nil_iff {content : Text} (plain : header? content = none) :
    checkRoot content = [] ↔ Import.isStatement content = true := by
  cases statement : Import.isStatement content with
  | true => simp [checkRoot, plain, statement]
  | false =>
    simp only [checkRoot, plain, statement, Option.isSome_none, Bool.or_self, Bool.false_eq_true,
      if_false, iff_false]
    split <;> simp

/-- A construct that lines go to is a token category or a block. -/
theorem block?_of_hasTarget (target : ctx.hasTarget = true) (state : ctx.state ≠ some .tokens) :
    ∃ h, ctx.block? = some h := by
  unfold Context.hasTarget at target
  split at target
  · rename_i tokens
    exact absurd tokens state
  · rename_i components
    obtain ⟨name, open_⟩ := Option.isSome_iff_exists.1 target
    exact ⟨.component name, by simp [Context.block?, components, open_]⟩
  · rename_i styles
    obtain ⟨selector, open_⟩ := Option.isSome_iff_exists.1 target
    exact ⟨.style selector, by simp [Context.block?, styles, open_]⟩
  · cases target

theorem category_of_hasTarget (target : ctx.hasTarget = true) (state : ctx.state = some .tokens) :
    ∃ category, ctx.category = some category := by
  rw [Context.hasTarget, state] at target
  exact Option.isSome_iff_exists.1 target

/-- On a dropped line of content nothing is found if it is a nested header in a token category. -/
theorem checkContent_eq_nil_iff {content : Text} {found : List Finding}
    (h : checkContent document tables ctx content = .ok found)
    (dropped : ctx.feedEffect? content = none) :
    found = [] ↔ ctx.state = some .tokens ∧ ctx.category.isSome = true ∧
      (nestedHeader? content).isSome = true := by
  unfold checkContent at h
  cases target : ctx.hasTarget with
  | false =>
    rw [target] at h
    obtain rfl := Except.ok.inj h
    have outside : ¬ (ctx.state = some .tokens ∧ ctx.category.isSome = true) := by
      rintro ⟨state, category⟩
      rw [Context.hasTarget, state] at target
      rw [category] at target
      cases target
    simp only [List.cons_ne_nil, false_iff]
    exact fun ⟨state, category, _⟩ => outside ⟨state, category⟩
  | true =>
    rw [if_neg (by simp [target])] at h
    by_cases state : ctx.state = some .tokens
    · obtain ⟨category, open_⟩ := category_of_hasTarget target state
      cases nested : nestedHeader? content with
      | some name =>
        rw [if_pos (by simp [nested])] at h
        simp [← Except.ok.inj h, state, open_]
      | none =>
        have valueless : tokenValue? content = none := by
          simpa [Context.feedEffect?, nested, state, open_] using dropped
        rw [if_neg (by simp [nested])] at h
        split at h
        · simp [← Except.ok.inj h]
        · rw [if_pos state, valueless] at h
          simp [← Except.ok.inj h]
    · -- A component or style rule takes every line, so that nothing is dropped there.
      obtain ⟨block, open_⟩ := block?_of_hasTarget target state
      cases nested : nestedHeader? content <;> simp_all [Context.feedEffect?]

/-- On a dropped line nothing is found exactly if it is overlooked. -/
theorem checkLine_eq_nil_iff {line : Text} {found : List Finding}
    (h : checkLine document tables ctx line = .ok found) (shown : isShown line = true)
    (dropped : ctx.effect? line = none) : found = [] ↔ Overlooked ctx line := by
  simp only [isShown, Bool.not_eq_true'] at shown
  obtain ⟨visible, plain⟩ := Bool.or_eq_false_iff.1 shown
  simp only [checkLine, shown, Bool.false_eq_true, if_false] at h
  simp only [Context.effect?, form, visible, plain, Bool.false_eq_true, if_false] at dropped
  by_cases margin : indentation line = 0
  · rw [if_pos margin] at h dropped
    have headless : header? (trim line) = none := by
      cases header : header? (trim line) with
      | none => rfl
      | some opened => simp [header] at dropped
    rw [← Except.ok.inj h, checkRoot_eq_nil_iff headless]
    simp [Overlooked, margin]
  · rw [if_neg margin] at h dropped
    rw [checkContent_eq_nil_iff h dropped]
    simp [Overlooked, margin]

end Lint

open Source Lint

/-- Take any line of a source that is neither blank nor a comment and that reading drops: it opens no
construct and no nested block, and stores neither a token nor a property line. The reader is the same
before it and behind it, and linting reports something under its number exactly if the line is not
overlooked. -/
theorem dropped_reported_iff {source line : Text} {front back : List Text}
    (cut : lines source = front ++ line :: back) (shown : isShown line = true)
    (dropped : (Reader.run {} front).context.effect? line = none) :
    (Reader.run {} front).step line = Reader.run {} front ∧
      ∃ found, lint source = .ok found ∧
        ((∃ d ∈ found, d.line = front.length + 1) ↔
          ¬ Overlooked (Reader.run {} front).context line) := by
  have idle := step_eq_perform (run_anchored anchored_start front) shown
  rw [dropped] at idle
  obtain ⟨found, linted⟩ := lint_ok source
  refine ⟨idle, found, linted, ?_⟩
  unfold lint at linted
  rw [cut] at linted
  obtain ⟨here, checked⟩ := checkLine_ok (Sheet.isTextual_tables (fun _ => isTextual_of_none)
    (parse source)) (parse source) (Reader.run {} front).context line
  rw [← checkLine_eq_nil_iff checked shown dropped, Nat.add_comm]
  constructor
  · rintro ⟨⟨_, f⟩, hd, rfl⟩
    exact List.ne_nil_of_mem ((mem_checkLines linted checked).1 hd)
  · intro some
    obtain ⟨f, hf⟩ := List.exists_mem_of_ne_nil here some
    exact ⟨_, (mem_checkLines linted checked).2 hf, rfl⟩

/-- The header of a nested block in a token category does nothing, and nothing is said about it. -/
theorem hover_in_colors :
    lines "colors:\n  hover:" = ["colors:", "  hover:"] ∧
      isShown "  hover:" = true ∧ Import.isStatement "  hover:" = false ∧
      (Reader.run {} ["colors:"]).context.effect? "  hover:" = none ∧
      lint "colors:\n  hover:" = .ok [] := by
  refine ⟨by decide +kernel, by decide +kernel, by decide +kernel, by decide +kernel, rfl⟩

theorem dropped_reported_hover :
    (Reader.run {} ["colors:", "  hover:"]).context.effect? "  hover" = none ∧
      ∃ found, lint "colors:\n  hover:\n  hover" = .ok found ∧ ∃ d ∈ found, d.line = 3 := by
  have dropped : (Reader.run {} ["colors:", "  hover:"]).context.effect? "  hover" = none := by
    decide +kernel
  have cut : lines "colors:\n  hover:\n  hover" =
      (["colors:", "  hover:"] : List Text) ++ ("  hover" : Text) :: [] := by decide +kernel
  obtain ⟨-, found, linted, reported⟩ := dropped_reported_iff cut (by decide +kernel) dropped
  exact ⟨dropped, found, linted, reported.2 (by decide +kernel)⟩

end Stylesheet
