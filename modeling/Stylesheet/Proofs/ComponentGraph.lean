import Mathlib.Logic.Relation
import Stylesheet.Proofs.SilentLines

/-!
# The graph of components

A component that is being put in place is left out further inside, so where a component is left out
depends on the way that leads to it. No line is lost by that: what is left out in one place is there
in another.

* `Uses`, `LeadTo`: a line of a component uses another; such uses lead from lines to a component;
* `asks_terminating`: putting components in place asks for other components finitely often;
* `Supplies.skip`: a line that a chain of uses leads to is found with no component come to twice;
* `mem_expand`: which lines are found when components are in place.
-/

namespace Stylesheet.Component

open Text Relation

/-- A component is defined, and a line of its own uses another. -/
def Uses (components : Table Block) (name other : Text) : Prop :=
  ∃ block, components.get? name = some block ∧ ∃ line ∈ block.props, reference? line = some other

/-- Some lines use a component, or one whose uses lead to it. -/
def LeadTo (components : Table Block) (lines : List Text) (name : Text) : Prop :=
  ∃ line ∈ lines, ∃ first, reference? line = some first ∧ ReflTransGen (Uses components) first name

variable {components : Table Block} {active lines : List Text} {line name other : Text}
  {block : Block}

theorem LeadTo.mono {more : List Text} (sub : lines ⊆ more) (h : LeadTo components lines name) :
    LeadTo components more name := by
  obtain ⟨line, hl, chain⟩ := h
  exact ⟨line, sub hl, chain⟩

/-- What the lines of a component lead to, a chain of uses from the component leads to. -/
theorem LeadTo.transGen (defined : components.get? name = some block)
    (h : LeadTo components block.props other) : TransGen (Uses components) name other := by
  obtain ⟨line, hl, first, uses, chain⟩ := h
  exact .head' ⟨block, defined, line, hl, uses⟩ chain

theorem LeadTo.of_use (hl : line ∈ lines) (uses : reference? line = some name)
    (chain : ReflTransGen (Uses components) name other) : LeadTo components lines other :=
  ⟨line, hl, name, uses, chain⟩

/-! ## An end of the replacements -/

/-- To put components in place in some lines, those in `active` being open, the lines of a further
component are needed, with the component open too. -/
inductive Asks (components : Table Block) : List Text × List Text → List Text × List Text → Prop
  | use {active lines : List Text} {line name : Text} {block : Block} (stands : line ∈ lines)
      (uses : reference? line = some name) (defined : components.get? name = some block)
      (closed : name ∉ active) : Asks components (active, lines) (name :: active, block.props)

theorem asks_terminating (components : Table Block) :
    WellFounded fun inner outer => Asks components outer inner := by
  apply Subrelation.wf (r := fun inner outer : List Text × List Text =>
    remaining components.keys inner.1 < remaining components.keys outer.1)
  · intro inner outer h
    obtain ⟨-, -, defined, closed⟩ := h
    exact remaining_cons_lt (Table.mem_keys_of_get? defined) closed
  · exact (measure fun call : List Text × List Text => remaining components.keys call.1).wf

/-! ## The lines that are found -/

/-- A line is among some lines, or among those of a component that they lead to without coming to an
active one. -/
inductive Supplies (components : Table Block) (active : List Text) : List Text → Text → Prop
  | own {lines : List Text} {line : Text} (h : line ∈ lines) : Supplies components active lines line
  | through {lines : List Text} {line use name : Text} {block : Block} (h : use ∈ lines)
      (uses : reference? use = some name) (closed : name ∉ active)
      (defined : components.get? name = some block)
      (inner : Supplies components active block.props line) : Supplies components active lines line

namespace Supplies

theorem mono {more : List Text} (sub : lines ⊆ more) (h : Supplies components active lines line) :
    Supplies components active more line := by
  cases h with
  | own h => exact .own (sub h)
  | through h uses closed defined inner => exact .through (sub h) uses closed defined inner

theorem unblock (h : Supplies components (name :: active) lines line) :
    Supplies components active lines line := by
  induction h with
  | own h => exact .own h
  | through h uses closed defined _ ih =>
    exact .through h uses (fun open_ => closed (List.mem_cons_of_mem name open_)) defined ih

/-- A component can be kept out of the way to a line, or the line is found from it without coming back
to it. -/
theorem skip (defined : components.get? name = some block)
    (h : Supplies components active lines line) :
    Supplies components (name :: active) lines line ∨
      Supplies components (name :: active) block.props line := by
  -- From the line backwards: an earlier visit to the component is forgotten.
  induction h with
  | own h => exact .inl (.own h)
  | @through lines line use first inner h uses closed found _ ih =>
    by_cases same : first = name
    · subst same
      obtain rfl : block = inner := Option.some.inj (defined.symm.trans found)
      exact .inr (ih.elim id id)
    · rcases ih with away | back
      · exact .inl (.through h uses (by simp [same, closed]) found away)
      · exact .inr back

theorem cons_plain {first : Text} (plain : reference? first = none) :
    Supplies components active (first :: lines) line ↔
      line = first ∨ Supplies components active lines line := by
  constructor
  · intro h
    cases h with
    | own h => exact (List.mem_cons.1 h).imp_right .own
    | through h uses closed defined inner =>
      rcases List.mem_cons.1 h with rfl | h
      · cases plain.symm.trans uses
      · exact .inr (.through h uses closed defined inner)
  · rintro (rfl | h)
    · exact .own List.mem_cons_self
    · exact h.mono (List.subset_cons_self first lines)

/-- A line that is no use is not found in a use that is left out. -/
theorem cons_left_out {first : Text} (uses : reference? first = some name)
    (left_out : components.get? name = none ∨ name ∈ active) (plain : reference? line = none) :
    Supplies components active (first :: lines) line ↔ Supplies components active lines line := by
  constructor
  · intro h
    cases h with
    | own h =>
      rcases List.mem_cons.1 h with rfl | h
      · cases plain.symm.trans uses
      · exact .own h
    | through h uses' closed defined inner =>
      rcases List.mem_cons.1 h with rfl | h
      · obtain rfl := Option.some.inj (uses.symm.trans uses')
        rcases left_out with undefined | open_
        · cases undefined.symm.trans defined
        · exact absurd open_ closed
      · exact .through h uses' closed defined inner
  · exact mono (List.subset_cons_self first lines)

theorem cons_use {first : Text} (uses : reference? first = some name)
    (defined : components.get? name = some block) (closed : name ∉ active)
    (plain : reference? line = none) :
    Supplies components active (first :: lines) line ↔
      Supplies components (name :: active) block.props line ∨
        Supplies components active lines line := by
  constructor
  · intro h
    cases h with
    | own h =>
      rcases List.mem_cons.1 h with rfl | h
      · cases plain.symm.trans uses
      · exact .inr (.own h)
    | through h uses' closed' defined' inner =>
      rcases List.mem_cons.1 h with rfl | h
      · obtain rfl := Option.some.inj (uses.symm.trans uses')
        obtain rfl := Option.some.inj (defined.symm.trans defined')
        exact .inl ((inner.skip defined).elim id id)
      · exact .inr (.through h uses' closed' defined' inner)
  · rintro (inner | h)
    · exact .through List.mem_cons_self uses closed defined inner.unblock
    · exact h.mono (List.subset_cons_self first lines)

/-- Where nothing is active, the lines found are those of the components that uses lead to. -/
theorem iff_leadTo :
    Supplies components [] lines line ↔
      line ∈ lines ∨ ∃ name block, LeadTo components lines name ∧
        components.get? name = some block ∧ line ∈ block.props := by
  constructor
  · intro h
    induction h with
    | own h => exact .inl h
    | @through lines line use first block h uses _ defined _ ih =>
      right
      rcases ih with own | ⟨last, held, chain, found, stands⟩
      · exact ⟨first, block, .of_use h uses .refl, defined, own⟩
      · exact ⟨last, held, .of_use h uses (chain.transGen defined).to_reflTransGen, found, stands⟩
  · rintro (own | ⟨last, held, ⟨use, h, first, uses, chain⟩, found, stands⟩)
    · exact .own own
    · induction chain using ReflTransGen.head_induction_on generalizing lines use with
      | refl => exact .through h uses (by simp) found (.own stands)
      | head step _ ih =>
        obtain ⟨block, defined, next, hn, uses'⟩ := step
        exact .through h uses (by simp) defined (ih next hn uses')

end Supplies

theorem mem_expand_active (active lines : List Text) :
    line ∈ expand components active lines ↔
      reference? line = none ∧ Supplies components active lines line := by
  fun_induction expand components active lines with
  | case1 active =>
    refine iff_of_false (by simp) ?_
    rintro ⟨-, own | through⟩ <;> simp_all
  | case2 active first rest plain ih =>
    rw [List.mem_cons, ih, Supplies.cons_plain plain]
    constructor
    · rintro (rfl | ⟨own, h⟩)
      · exact ⟨plain, .inl rfl⟩
      · exact ⟨own, .inr h⟩
    · rintro ⟨own, rfl | h⟩
      · exact .inl rfl
      · exact .inr ⟨own, h⟩
  | case3 active first rest name uses undefined ih =>
    rw [ih]
    exact and_congr_right fun plain => (Supplies.cons_left_out uses (.inl undefined) plain).symm
  | case4 active first rest name uses block defined open_ ih =>
    rw [ih]
    exact and_congr_right fun plain => (Supplies.cons_left_out uses (.inr open_) plain).symm
  | case5 active first rest name uses block defined closed ih₁ ih₂ =>
    rw [List.mem_append, ih₁, ih₂, ← and_or_left]
    exact and_congr_right fun plain => (Supplies.cons_use uses defined closed plain).symm

theorem reference?_eq_none_iff : reference? line = none ↔ leads "use " line = false := by
  simp [reference?, dropLead?]

/-- Components are put in place by finitely many steps, also where they use each other. A line is found
afterwards exactly if it uses no component and stood among the given lines, or is a line of a defined
component that uses lead to from these. -/
theorem mem_expand (components : Table Block) (lines : List Text) :
    Acc (fun inner outer => Asks components outer inner) ([], lines) ∧
      ∀ line, line ∈ expand components [] lines ↔
        leads "use " line = false ∧
          (line ∈ lines ∨ ∃ name block, LeadTo components lines name ∧
            components.get? name = some block ∧ line ∈ block.props) := by
  refine ⟨(asks_terminating components).apply _, fun line => ?_⟩
  rw [mem_expand_active, reference?_eq_none_iff, Supplies.iff_leadTo]

/-- Two components that use each other, and one of them also a component that is not defined. -/
def knot : Table Block :=
  .ofList [("a", { props := ["x", "use b"] }), ("b", { props := ["use a", "y", "use c"] })]

theorem mem_expand_knot :
    ∀ line, line ∈ expand knot [] ["use  a ", "z"] ↔ line ∈ (["x", "y", "z"] : List Text) := by
  have inA : knot.get? "a" = some { props := ["x", "use b"] } := by decide +kernel
  have inB : knot.get? "b" = some { props := ["use a", "y", "use c"] } := by decide +kernel
  have step : Uses knot "a" "b" := ⟨_, inA, "use b", by decide, by decide +kernel⟩
  have leads_to {name : Text} (chain : ReflTransGen (Uses knot) "a" name) :
      LeadTo knot ["use  a ", "z"] name :=
    .of_use List.mem_cons_self (by decide +kernel) chain
  have own : ∀ line ∈ (["use  a ", "z"] : List Text), leads "use " line = false → line = "z" := by
    decide +kernel
  have inside : ∀ e ∈ knot.entries, ∀ line ∈ e.2.props, leads "use " line = false →
      line ∈ (["x", "y"] : List Text) := by
    decide +kernel
  have plain : ∀ line ∈ (["x", "y", "z"] : List Text), leads "use " line = false := by decide +kernel
  intro line
  rw [(mem_expand knot ["use  a ", "z"]).2 line]
  constructor
  · rintro ⟨unused, here | ⟨name, block, -, defined, there⟩⟩
    · rw [own line here unused]
      decide
    · have known := inside _ (Table.mem_of_find defined) line there unused
      exact List.mem_append_left (["z"] : List Text) known
  · intro listed
    refine ⟨plain line listed, ?_⟩
    simp only [List.mem_cons, List.not_mem_nil, or_false] at listed
    rcases listed with rfl | rfl | rfl
    · exact .inr ⟨_, _, leads_to .refl, inA, by decide⟩
    · exact .inr ⟨_, _, leads_to (.single step), inB, by decide⟩
    · exact .inl (by decide)

end Stylesheet.Component
