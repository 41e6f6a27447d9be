import Stylesheet.Proofs.Scoping

/-!
# Scoping a tree of rules

A well-formed style sheet is a tree: rules stand at the top or in at-rules that group them, to any
depth, between blanks, comments, statements, keyframes and other at-rules. Scoping, which only sees
characters, changes the selector lists of the style rules in the tree and nothing else.

* `Node.WellFormed`: what a part of a tree may look like;
* `rewrites_node`: what becomes of a part of a tree, wherever rules are scoped;
* `rewrites_nodes`: what becomes of the parts of a tree that stand one after another.
-/

namespace Stylesheet.Css

open Text

/-- A part of what a block of keyframes holds. -/
inductive Frame where
  | blank (text : Text)
  | comment (text : Text)
  /-- Declarations for an offset such as `from` or `50%`. -/
  | offset (prelude body : Text)

inductive Node where
  | blank (text : Text)
  | comment (text : Text)
  /-- A statement such as `@import url(base.css)`, without the semicolon that ends it. -/
  | statement (text : Text)
  /-- A style rule: declarations for a list of selectors. -/
  | style (selectors body : Text)
  /-- An at-rule that groups other parts. -/
  | group (prelude : Text) (nodes : List Node)
  | keyframes (prelude : Text) (frames : List Frame)
  | other (prelude body : Text)

def Frame.text : Frame → Text
  | blank text => text
  | comment text => text
  | offset prelude body => braced prelude body

mutual

def Node.text : Node → Text
  | .blank text => text
  | .comment text => text
  | .statement text => text ++ [';']
  | .style selectors body => braced selectors body
  | .group prelude nodes => braced prelude (Node.textOf nodes)
  | .keyframes prelude frames => braced prelude (frames.flatMap Frame.text)
  | .other prelude body => braced prelude body

/-- The text of parts that stand one after another. -/
def Node.textOf : List Node → Text
  | [] => []
  | n :: ns => n.text ++ Node.textOf ns

end

mutual

/-- The part with a function applied to the selector lists of the style rules in it. -/
def Node.mapSelectors (f : Text → Text) : Node → Node
  | .style selectors body => .style (f selectors) body
  | .group prelude nodes => .group prelude (Node.mapAll f nodes)
  | n => n

/-- Parts with a function applied to all selector lists of style rules. -/
def Node.mapAll (f : Text → Text) : List Node → List Node
  | [] => []
  | n :: ns => n.mapSelectors f :: Node.mapAll f ns

end

/-- The first word of the opening of an at-rule, in lower case. -/
def atWord (prelude : Text) : Text :=
  fold ((trim prelude).takeWhile fun c => !isBlank c)

def IsAtRule (prelude : Text) : Prop :=
  isPrelude prelude = true ∧ leads "@" (trimStart prelude) = true

/-- Whether a word is that of keyframes, perhaps with the name of a vendor between hyphens. -/
def IsKeyframesWord (word : Text) : Prop :=
  ∃ vendor behind : Text, word = "@" ++ vendor ++ "keyframes" ++ behind ∧
    behind.head?.any isWordChar = false ∧
    (vendor = [] ∨ ∃ name : Text, name ≠ [] ∧ name.all Char.isLower = true ∧
      vendor = "-" ++ name ++ "-")

/-- Whether a text can be the selector list of a style rule: something stands in it, and it starts
neither as an at-rule nor with a comment. -/
def IsSelectorList (t : Text) : Prop :=
  isPrelude t = true ∧ isBlankText t = false ∧ leads "@" (trimStart t) = false ∧
    leads "/*" (trimStart t) = false

def Frame.WellFormed : Frame → Prop
  | blank text => isBlankText text = true
  | comment text => (Lexeme.comment text).isComplete = true
  | offset prelude body => isPrelude prelude = true ∧ isBody body = true

mutual

def Node.WellFormed : Node → Prop
  | .blank text => isBlankText text = true
  | .comment text => (Lexeme.comment text).isComplete = true
  | .statement text => isPrelude text = true
  | .style selectors body => IsSelectorList selectors ∧ isBody body = true
  | .group prelude nodes =>
    IsAtRule prelude ∧ groupingRules.any (leads · (atWord prelude)) = true ∧ Node.AllWellFormed nodes
  | .keyframes prelude frames =>
    IsAtRule prelude ∧ IsKeyframesWord (atWord prelude) ∧ ∀ f ∈ frames, f.WellFormed
  | .other prelude body => IsAtRule prelude ∧ isBody body = true

/-- What parts that stand one after another may look like. -/
def Node.AllWellFormed : List Node → Prop
  | [] => True
  | n :: ns => n.WellFormed ∧ Node.AllWellFormed ns

end

theorem isKeyframes_of_word {word : Text} (h : IsKeyframesWord word) : isKeyframes word = true := by
  obtain ⟨vendor, behind, rfl, ends, vendor_form⟩ := h
  have plain : startsKeyframes ("keyframes" ++ behind) = true := by
    simp [startsKeyframes, dropLead?, leads, ends]
  rcases vendor_form with rfl | ⟨name, some, lower, rfl⟩
  · rw [List.append_nil, List.append_assoc]
    simp only [isKeyframes, dropLead?_append, plain, Bool.true_or]
  · have letters : ∀ c ∈ name, isVendorLetter c = true := by
      intro c hc
      simp [isVendorLetter, List.all_eq_true.1 lower c hc]
    have hyphen : isVendorLetter '-' = false := by decide
    have text : "@" ++ ("-" ++ name ++ "-") ++ "keyframes" ++ behind =
        "@" ++ '-' :: (name ++ '-' :: ("keyframes" ++ behind)) := by simp
    have front : (name ++ '-' :: ("keyframes" ++ behind)).takeWhile isVendorLetter = name := by
      rw [List.takeWhile_append_of_pos letters, List.takeWhile_cons_of_neg (by simp [hyphen]),
        List.append_nil]
    have back : (name ++ '-' :: ("keyframes" ++ behind)).dropWhile isVendorLetter =
        '-' :: ("keyframes" ++ behind) := by
      rw [List.dropWhile_append_of_pos letters, List.dropWhile_cons_of_neg (by simp [hyphen])]
    obtain ⟨c, cs, rfl⟩ := List.exists_cons_of_ne_nil some
    rw [text]
    simp only [isKeyframes, dropLead?_append, front, back, plain, Bool.or_true]

theorem isKeyframes_of_grouping {word : Text} (h : groupingRules.any (leads · word) = true) :
    isKeyframes word = false := by
  obtain ⟨rule, listed, lead⟩ := List.any_eq_true.1 h
  obtain ⟨behind, rfl⟩ := List.isPrefixOf_iff_prefix.1 lead
  simp only [groupingRules, List.mem_cons, List.not_mem_nil, or_false] at listed
  rcases listed with rfl | rfl | rfl | rfl | rfl <;>
    simp [isKeyframes, startsKeyframes, dropLead?, leads]

theorem atRuleKind_group {prelude : Text}
    (h : groupingRules.any (leads · (atWord prelude)) = true) :
    atRuleKind (trim prelude) = .group := by
  have word : fold ((trim prelude).takeWhile fun c => !isBlank c) = atWord prelude := rfl
  simp only [atRuleKind, word, isKeyframes_of_grouping h, h, if_true, Bool.false_eq_true, if_false]

theorem atRuleKind_keyframes {prelude : Text} (h : IsKeyframesWord (atWord prelude)) :
    atRuleKind (trim prelude) = .keyframes := by
  have word : fold ((trim prelude).takeWhile fun c => !isBlank c) = atWord prelude := rfl
  simp only [atRuleKind, word, isKeyframes_of_word h, if_true]

/-- An at-rule does not start with a comment. -/
theorem not_comment_of_atRule {t : Text} (h : leads "@" (trimStart t) = true) :
    leads "/*" (trimStart t) = false := by
  obtain ⟨behind, split⟩ := List.isPrefixOf_iff_prefix.1 h
  rw [← split]
  rfl

variable (id : Text)

theorem rewrites_atRule (stack : List BlockKind) {prelude inner outer : Text}
    (rule : IsAtRule prelude)
    (inside : RewritesInside id (atRuleKind (trim prelude) :: stack) inner outer) :
    Rewrites id stack (braced prelude inner) (braced prelude outer) :=
  Rewrites.block rule.1 (not_comment_of_atRule rule.2)
    (fun _ blank => openBlock_atRule rule.2 blank) inside

theorem rewrites_frame (stack : List BlockKind) (f : Frame) (h : f.WellFormed) :
    Rewrites id (.keyframes :: stack) f.text f.text := by
  cases f with
  | blank text => exact .blank h
  | comment text => exact .comment h
  | offset prelude body =>
    refine .verbatimBlock (isBody_of_isPrelude h.1) (fun t => ?_) h.2
    unfold openBlock
    split <;> rfl

theorem rewrites_frames (stack : List BlockKind) (frames : List Frame)
    (h : ∀ f ∈ frames, f.WellFormed) :
    Rewrites id (.keyframes :: stack) (frames.flatMap Frame.text) (frames.flatMap Frame.text) := by
  induction frames with
  | nil => exact .nil
  | cons f frames ih =>
    have first := rewrites_frame id stack f (h f List.mem_cons_self)
    exact first.append (ih fun g hg => h g (List.mem_cons_of_mem f hg))

mutual

/-- A part of a tree is rewritten in its selector lists, wherever rules are scoped. -/
theorem rewrites_node (n : Node) (h : n.WellFormed) {stack : List BlockKind}
    (rules : holdsRules stack = true) :
    Rewrites id stack n.text (n.mapSelectors (scopeSelectors id)).text := by
  cases n with
  | blank text => exact .blank h
  | comment text => exact .comment h
  | statement text => exact .statement (isBody_of_isPrelude h)
  | style selectors body =>
    obtain ⟨⟨opening, shown, plain, front⟩, body⟩ := h
    exact .block opening front (fun _ blank => openBlock_style rules shown plain blank)
      (.body id _ body)
  | group prelude nodes =>
    obtain ⟨rule, grouping, parts⟩ := h
    refine rewrites_atRule id stack rule ?_
    rw [atRuleKind_group grouping]
    exact (rewrites_nodes nodes parts rfl).inside
  | keyframes prelude frames =>
    obtain ⟨rule, word, parts⟩ := h
    refine rewrites_atRule id stack rule ?_
    rw [atRuleKind_keyframes word]
    exact (rewrites_frames id stack frames parts).inside
  | other prelude body => exact rewrites_atRule id stack h.1 (.body id _ h.2)

theorem rewrites_nodes (ns : List Node) (h : Node.AllWellFormed ns) {stack : List BlockKind}
    (rules : holdsRules stack = true) :
    Rewrites id stack (Node.textOf ns) (Node.textOf (Node.mapAll (scopeSelectors id) ns)) := by
  cases ns with
  | nil => exact .nil
  | cons n ns => exact (rewrites_node n h.1 rules).append (rewrites_nodes ns h.2 rules)

end

/-- Scoping the text of a tree gives the text of the tree in which the selector lists of the style
rules are scoped and all else is as it was. -/
theorem scope_textOf (nodes : List Node) (h : Node.AllWellFormed nodes) :
    scope id (Node.textOf nodes) = Node.textOf (Node.mapAll (scopeSelectors id) nodes) :=
  scope_of_rewrites (rewrites_nodes id nodes h rfl)

/-- A tree with braces in a comment and in a string, a semicolon in a string, and rules in a group
inside another. -/
def quotedBraces : List Node :=
  [.comment "/* \x7b */", .statement "@import \"a;b\"",
   .group "@MEDIA screen " [.group "@supports (x: y) "
    [.style "a, :root " " content: \"\x7d\"; ", .blank "\n"]],
   .keyframes "@-webkit-keyframes k " [.offset "from, to " "top: 0"],
   .other "@font-face " "src: url(x)"]

theorem scope_quotedBraces : scope "s1" (Node.textOf quotedBraces) = join []
    ["/* \x7b */", "@import \"a;b\";", "@MEDIA screen \x7b", "@supports (x: y) \x7b",
     "[data-tom=\"s1\"] a, [data-tom=\"s1\"]:root \x7b", " content: \"\x7d\"; \x7d\n", "\x7d\x7d",
     "@-webkit-keyframes k \x7b", "from, to \x7btop: 0\x7d\x7d", "@font-face \x7bsrc: url(x)\x7d"] := by
  have keyframes : IsKeyframesWord (atWord "@-webkit-keyframes k ") :=
    ⟨"-webkit-", [], by decide +kernel, rfl, .inr ⟨"webkit", by decide, by decide +kernel, rfl⟩⟩
  have well_formed : Node.AllWellFormed quotedBraces := by
    simp only [quotedBraces, Node.AllWellFormed, Node.WellFormed, Frame.WellFormed, IsAtRule,
      IsSelectorList, List.forall_mem_singleton, keyframes, and_true, true_and]
    decide +kernel
  rw [scope_textOf "s1" quotedBraces well_formed]
  decide +kernel

end Stylesheet.Css
