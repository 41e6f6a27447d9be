import Stylesheet.Proofs.ComponentGraph

/-!
# Components that do not come back to themselves

Putting components in place leaves out a component that is already open. Where no component is met
that leads back to itself, this never happens: the lines are those of a replacement that keeps no
account of what is open. Where one is met, such a replacement has no end.

* `Substitutes`: the replacement that keeps no account;
* `Substitutes.acc`: lines that it has an end for use components from which all chains of uses end;
* `substitutes_expand`: with no way back to an open component, it gives the lines with components in
  place;
* `substitutes_iff`: when the replacement has an end, and what it gives.
-/

namespace Stylesheet.Component

open Text Relation

/-- The second lines are the first with each use of a defined component replaced by the lines of the
component, which are replaced in turn, and with uses of other components dropped. -/
inductive Substitutes (components : Table Block) : List Text → List Text → Prop
  | nil : Substitutes components [] []
  | plain {line : Text} {rest result : List Text} (own : reference? line = none)
      (later : Substitutes components rest result) :
      Substitutes components (line :: rest) (line :: result)
  | undefined {line name : Text} {rest result : List Text} (uses : reference? line = some name)
      (missing : components.get? name = none) (later : Substitutes components rest result) :
      Substitutes components (line :: rest) result
  | use {line name : Text} {block : Block} {rest body result : List Text}
      (uses : reference? line = some name) (defined : components.get? name = some block)
      (inner : Substitutes components block.props body)
      (later : Substitutes components rest result) :
      Substitutes components (line :: rest) (body ++ result)

/-- None of the components that some lines lead to leads back to itself. -/
def CycleFree (components : Table Block) (lines : List Text) : Prop :=
  ∀ name, LeadTo components lines name → ¬ TransGen (Uses components) name name

variable {components : Table Block} {active lines result : List Text} {name : Text} {block : Block}

theorem CycleFree.mono {more : List Text} (sub : lines ⊆ more) (h : CycleFree components more) :
    CycleFree components lines :=
  fun name met => h name (met.mono sub)

/-- What a use in some lines leads to, the lines lead to. -/
theorem LeadTo.through {line other : Text} (hl : line ∈ lines) (uses : reference? line = some name)
    (defined : components.get? name = some block) (met : LeadTo components block.props other) :
    LeadTo components lines other :=
  .of_use hl uses (met.transGen defined).to_reflTransGen

/-! ## Replacements that end -/

/-- The uses of a component are those of its lines, so they end where those of its lines do. -/
theorem acc_uses_of_props (defined : components.get? name = some block)
    (inner : ∀ line ∈ block.props, ∀ other, reference? line = some other →
      Acc (flip (Uses components)) other) : Acc (flip (Uses components)) name := by
  refine Acc.intro name fun other step => ?_
  obtain ⟨held, found, line, hl, uses⟩ := step
  obtain rfl : block = held := Option.some.inj (defined.symm.trans found)
  exact inner line hl other uses

theorem Substitutes.acc (h : Substitutes components lines result) :
    ∀ line ∈ lines, ∀ name, reference? line = some name → Acc (flip (Uses components)) name := by
  induction h with
  | nil => exact fun line hl => absurd hl List.not_mem_nil
  | plain own _ ih =>
    refine List.forall_mem_cons.2 ⟨fun name uses => ?_, ih⟩
    cases own.symm.trans uses
  | undefined uses missing _ ih =>
    refine List.forall_mem_cons.2 ⟨fun name uses' => ?_, ih⟩
    obtain rfl := Option.some.inj (uses.symm.trans uses')
    refine Acc.intro _ fun other step => ?_
    obtain ⟨held, found, -⟩ := step
    cases missing.symm.trans found
  | use uses defined _ _ inner ih =>
    refine List.forall_mem_cons.2 ⟨fun name uses' => ?_, ih⟩
    obtain rfl := Option.some.inj (uses.symm.trans uses')
    exact acc_uses_of_props defined inner

/-- Where all chains of uses end, none leads back. -/
theorem not_cycle_of_acc (h : Acc (flip (Uses components)) name) :
    ¬ TransGen (Uses components) name name := by
  induction h with
  | intro name _ ih =>
    intro cycle
    obtain ⟨next, step, chain⟩ := TransGen.head'_iff.1 cycle
    exact ih next step (.tail' chain step)

theorem Substitutes.cycleFree (h : Substitutes components lines result) :
    CycleFree components lines := by
  rintro name ⟨line, hl, first, uses, chain⟩
  apply not_cycle_of_acc
  induction chain with
  | refl => exact h.acc line hl first uses
  | tail _ step ih => exact ih.inv step

/-! ## The account that is not needed -/

theorem substitutes_expand (free : CycleFree components lines)
    (apart : ∀ name ∈ active, ¬ LeadTo components lines name) :
    Substitutes components lines (expand components active lines) := by
  have later {line : Text} {rest active : List Text}
      (apart : ∀ name ∈ active, ¬ LeadTo components (line :: rest) name) :
      ∀ name ∈ active, ¬ LeadTo components rest name :=
    fun name open_ met => apart name open_ (met.mono (List.subset_cons_self line rest))
  fun_induction expand components active lines with
  | case1 active => exact .nil
  | case2 active line rest own ih =>
    exact .plain own (ih (free.mono (List.subset_cons_self line rest)) (later apart))
  | case3 active line rest name uses missing ih =>
    exact .undefined uses missing (ih (free.mono (List.subset_cons_self line rest)) (later apart))
  | case4 active line rest name uses block defined open_ ih =>
    exact absurd (.of_use List.mem_cons_self uses .refl) (apart name open_)
  | case5 active line rest name uses block defined closed inner ih =>
    refine .use uses defined (inner (fun other met => ?_) fun other open_ met => ?_)
      (ih (free.mono (List.subset_cons_self line rest)) (later apart))
    · exact free other (met.through List.mem_cons_self uses defined)
    · rcases List.mem_cons.1 open_ with rfl | open_
      -- The component just opened is not met again, since it leads not back to itself.
      · exact free other (.of_use List.mem_cons_self uses .refl) (met.transGen defined)
      · exact apart other open_ (met.through List.mem_cons_self uses defined)

theorem Substitutes.unique {other : List Text} (h : Substitutes components lines result)
    (h' : Substitutes components lines other) : result = other := by
  induction h generalizing other with
  | nil => cases h'; rfl
  | plain own _ ih =>
    cases h' with
    | plain _ later => rw [ih later]
    | undefined uses _ _ => cases own.symm.trans uses
    | use uses _ _ _ => cases own.symm.trans uses
  | undefined uses missing _ ih =>
    cases h' with
    | plain own _ => cases own.symm.trans uses
    | undefined _ _ later => exact ih later
    | use uses' defined _ _ =>
      obtain rfl := Option.some.inj (uses.symm.trans uses')
      cases missing.symm.trans defined
  | use uses defined _ _ inner ih =>
    cases h' with
    | plain own _ => cases own.symm.trans uses
    | undefined uses' missing _ =>
      obtain rfl := Option.some.inj (uses.symm.trans uses')
      cases missing.symm.trans defined
    | use uses' defined' inner' later =>
      obtain rfl := Option.some.inj (uses.symm.trans uses')
      obtain rfl := Option.some.inj (defined.symm.trans defined')
      rw [inner inner', ih later]

/-- The replacement that keeps no account of what is open comes to an end exactly for lines from which no
component on a cycle of uses is met, whatever cycles there are elsewhere. What it gives is then, line
for line, what putting components in place gives. -/
theorem substitutes_iff (components : Table Block) (lines result : List Text) :
    Substitutes components lines result ↔
      CycleFree components lines ∧ result = expand components [] lines := by
  constructor
  · intro h
    have free : CycleFree components lines := h.cycleFree
    exact ⟨free, h.unique (substitutes_expand free (by simp))⟩
  · rintro ⟨free, rfl⟩
    exact substitutes_expand free (by simp)

/-- A component that two others use, and one that uses itself. -/
def shared : Table Block :=
  .ofList
    [("card", { props := ["use edge", "use line"] }), ("edge", { props := ["use line", "bold"] }),
     ("line", { props := ["underline"] }), ("ring", { props := ["use ring"] })]

/-- The component `line` is met three times, `ring` not at all. -/
theorem expand_shared : TransGen (Uses shared) "ring" "ring" ∧
    expand shared [] ["use card", "use frame", "row", "use line"] =
      (["underline", "bold", "underline", "row", "underline"] : List Text) := by
  have ring : shared.get? "ring" = some { props := ["use ring"] } := by decide +kernel
  have line : shared.get? "line" = some { props := ["underline"] } := by decide +kernel
  have edge : shared.get? "edge" = some { props := ["use line", "bold"] } := by decide +kernel
  have card : shared.get? "card" = some { props := ["use edge", "use line"] } := by decide +kernel
  have frame : shared.get? "frame" = none := by decide +kernel
  have uses : ∀ name ∈ (["ring", "line", "edge", "card", "frame"] : List Text),
      reference? ("use " ++ name) = some name := by decide +kernel
  have plain : ∀ line ∈ (["underline", "bold", "row"] : List Text), reference? line = none := by
    decide +kernel
  have with_line {rest result : List Text} (later : Substitutes shared rest result) :
      Substitutes shared ("use line" :: rest) ("underline" :: result) :=
    .use (uses "line" (by decide)) line (.plain (plain "underline" (by decide)) .nil) later
  have in_edge : Substitutes shared ["use line", "bold"] ["underline", "bold"] :=
    with_line (.plain (plain "bold" (by decide)) .nil)
  have in_card : Substitutes shared ["use edge", "use line"] ["underline", "bold", "underline"] :=
    .use (uses "edge" (by decide)) edge in_edge (with_line .nil)
  have lines : Substitutes shared ["use card", "use frame", "row", "use line"]
      ["underline", "bold", "underline", "row", "underline"] :=
    .use (uses "card" (by decide)) card in_card
      (.undefined (uses "frame" (by decide)) frame
        (.plain (plain "row" (by decide)) (with_line .nil)))
  have cycle : Uses shared "ring" "ring" := ⟨_, ring, "use ring", by decide, uses "ring" (by decide)⟩
  exact ⟨.single cycle, ((substitutes_iff _ _ _).1 lines).2.symm⟩

end Stylesheet.Component
