import Mathlib.Data.List.DropRight
import Stylesheet.Text.Class
import Stylesheet.Text.Basic

/-!
# Trimming and joining

* `trim_append_of_blank`: blanks in front of a text do not show in its trimmed form;
* `trimEnd_append`: a text with something in it keeps all that stands in front of it;
* `trim_eq_self`: a text that neither starts nor ends with a blank is its own trimmed form;
* `isSolid_trim`: every trimmed form with something in it is such a text;
* `trim_join`: so is what such texts are joined to;
* `split_join`: texts that are joined with a separator are found again by splitting;
* `isBlank_eq_false_of_isNameChar`: no character of a name is blank.
-/

namespace Stylesheet.Text

theorem dropEndWhile_eq_rdropWhile (p : Char → Bool) (t : Text) :
    dropEndWhile p t = t.rdropWhile p := by
  induction t with
  | nil => simp [dropEndWhile]
  | cons c t ih =>
    simp only [dropEndWhile, ih, List.rdropWhile, List.reverse_cons, List.dropWhile_append]
    cases h : t.reverse.dropWhile p with
    | nil => by_cases hc : p c <;> simp [hc]
    | cons d r =>
      obtain ⟨e, s, back⟩ := List.exists_cons_of_ne_nil (l := (d :: r).reverse) (by simp)
      simp only [back, List.isEmpty_cons, Bool.false_eq_true, if_false]
      simpa using back.symm

theorem isBlankText_append (a b : Text) :
    isBlankText (a ++ b) = (isBlankText a && isBlankText b) := by
  simp [isBlankText]

theorem isBlankText_iff {t : Text} : isBlankText t = true ↔ ∀ c ∈ t, isBlank c = true := by
  simp [isBlankText]

theorem trimStart_append_of_blank {b : Text} (h : isBlankText b = true) (t : Text) :
    trimStart (b ++ t) = trimStart t :=
  List.dropWhile_append_of_pos (isBlankText_iff.1 h)

theorem trim_append_of_blank {b : Text} (h : isBlankText b = true) (t : Text) :
    trim (b ++ t) = trim t := by
  rw [trim, trimStart_append_of_blank h, trim]

theorem trimEnd_eq_nil_iff {t : Text} : trimEnd t = [] ↔ isBlankText t = true := by
  rw [trimEnd, dropEndWhile_eq_rdropWhile, List.rdropWhile_eq_nil_iff, isBlankText_iff]

theorem trimEnd_front (t : Text) : trimEnd t <+: t := by
  rw [trimEnd, dropEndWhile_eq_rdropWhile]
  exact List.rdropWhile_prefix _ _

/-- Only the end of a text is trimmed at the end: what stands in front of a text with something in
it is kept. -/
theorem trimEnd_append (a : Text) {t : Text} (h : isBlankText t = false) :
    trimEnd (a ++ t) = a ++ trimEnd t := by
  have some : t.reverse.dropWhile isBlank ≠ [] := by
    intro none
    have blank : isBlankText t = true := by
      rw [← trimEnd_eq_nil_iff, trimEnd, dropEndWhile_eq_rdropWhile, List.rdropWhile, none]
      rfl
    simp [blank] at h
  simp only [trimEnd, dropEndWhile_eq_rdropWhile, List.rdropWhile, List.reverse_append,
    List.dropWhile_append, List.isEmpty_iff, some, if_false, List.reverse_reverse]

theorem isBlankText_trimStart (t : Text) : isBlankText (trimStart t) = isBlankText t := by
  obtain ⟨b, split, blank⟩ := trimStart_append_blank t
  conv_rhs => rw [split]
  rw [isBlankText_append, show isBlankText b = true from blank, Bool.true_and]

theorem trim_eq_nil_iff {t : Text} : trim t = [] ↔ isBlankText t = true := by
  rw [trim, trimEnd_eq_nil_iff, isBlankText_trimStart]

theorem trimStart_eq_self {t : Text} (first : ∀ c ∈ t.head?, isBlank c = false) :
    trimStart t = t := by
  cases t with
  | nil => rfl
  | cons c t => exact List.dropWhile_cons_of_neg (by simp [first c rfl])

theorem trimEnd_eq_self {t : Text} (last : ∀ c ∈ t.getLast?, isBlank c = false) :
    trimEnd t = t := by
  rw [trimEnd, dropEndWhile_eq_rdropWhile, List.rdropWhile_eq_self_iff]
  intro some
  simp [last _ (List.getLast?_eq_getLast_of_ne_nil some)]

theorem trimEnd_concat_of_blank (t : Text) {c : Char} (blank : isBlank c = true) :
    trimEnd (t ++ [c]) = trimEnd t := by
  simp only [trimEnd, dropEndWhile_eq_rdropWhile]
  exact List.rdropWhile_concat_pos _ _ c blank

theorem trim_eq_self {t : Text} (first : ∀ c ∈ t.head?, isBlank c = false)
    (last : ∀ c ∈ t.getLast?, isBlank c = false) : trim t = t := by
  rw [trim, trimStart_eq_self first, trimEnd_eq_self last]

theorem head?_trim (t : Text) : (trim t).head? = (trimStart t).head? := by
  have blank : trimEnd (trimStart t) = [] ↔ trimStart t = [] := by
    rw [trimEnd_eq_nil_iff, isBlankText_trimStart, isBlankText_iff, trimStart,
      List.dropWhile_eq_nil_iff]
  obtain ⟨back, split⟩ := trimEnd_front (trimStart t)
  cases kept : trimEnd (trimStart t) with
  | nil => rw [trim, kept, blank.1 kept]
  | cons c r =>
    rw [kept] at split
    rw [trim, kept, ← split, List.cons_append, List.head?_cons, List.head?_cons]

theorem leads_single_iff {c : Char} {t : Text} : leads [c] t = true ↔ t.head? = some c := by
  cases t with
  | nil => simp [leads]
  | cons d t =>
    simp only [leads, List.isPrefixOf_cons_cons, List.isPrefixOf_nil_left, Bool.and_true, beq_iff_eq,
      List.head?_cons, Option.some.injEq]
    exact eq_comm

theorem leads_eq_false_of_head? {c : Char} {t : Text} (front : Text) (h : t.head? ≠ some c) :
    leads (c :: front) t = false := by
  rw [Bool.eq_false_iff]
  intro lead
  obtain ⟨u, rfl⟩ := List.isPrefixOf_iff_prefix.1 lead
  exact h rfl

theorem dropLead?_append (front t : Text) : dropLead? front (front ++ t) = some t := by
  have lead : leads front (front ++ t) = true :=
    List.isPrefixOf_iff_prefix.2 (List.prefix_append front t)
  simp [dropLead?, lead]

theorem join_cons_cons (separator first second : Text) (rest : List Text) :
    join separator (first :: second :: rest) =
      first ++ separator ++ join separator (second :: rest) :=
  List.intercalate_cons_cons

theorem not_mem_of_mem_split {separator : Char} {t piece : Text} (h : piece ∈ split separator t) :
    separator ∉ piece := by
  induction t generalizing piece with
  | nil =>
    rw [split, List.mem_singleton] at h
    simp [h]
  | cons c t ih =>
    by_cases same : c = separator
    · rw [split, if_pos same] at h
      rcases List.mem_cons.1 h with rfl | h
      · simp
      · exact ih h
    · obtain ⟨first, rest, pieces⟩ := List.exists_cons_of_ne_nil (split_ne_nil separator t)
      rw [split, if_neg same, pieces] at h
      rw [pieces] at ih
      rcases List.mem_cons.1 h with rfl | h
      · have inner := ih List.mem_cons_self
        simp [Ne.symm same, inner]
      · exact ih (List.mem_cons_of_mem first h)

theorem split_append {separator : Char} {piece : Text} (h : separator ∉ piece) (t : Text) :
    split separator (piece ++ separator :: t) = piece :: split separator t := by
  induction piece with
  | nil => rw [List.nil_append, split, if_pos rfl]
  | cons c piece ih =>
    obtain ⟨other, rest⟩ := not_or.1 fun hc => h (List.mem_cons.2 hc)
    rw [List.cons_append, split, if_neg (Ne.symm other), ih rest]

theorem split_eq_singleton {separator : Char} {t : Text} (h : separator ∉ t) :
    split separator t = [t] := by
  induction t with
  | nil => rfl
  | cons c t ih =>
    obtain ⟨other, rest⟩ := not_or.1 fun hc => h (List.mem_cons.2 hc)
    rw [split, if_neg (Ne.symm other), ih rest]

/-- Texts without a separator in them are the pieces of what they are joined to. -/
theorem split_join {separator : Char} {pieces : List Text} (some : pieces ≠ [])
    (h : ∀ p ∈ pieces, separator ∉ p) : split separator (join [separator] pieces) = pieces := by
  induction pieces with
  | nil => exact absurd rfl some
  | cons first rest ih =>
    have plain := h first List.mem_cons_self
    cases rest with
    | nil => rw [join, List.intercalate_singleton, split_eq_singleton plain]
    | cons second rest =>
      have others := ih (by simp) fun p hp => h p (List.mem_cons_of_mem first hp)
      rw [join_cons_cons, List.append_assoc, List.singleton_append, split_append plain, others]

/-- Something stands in a text, and no blank at either end. -/
structure IsSolid (t : Text) : Prop where
  ne_nil : t ≠ []
  first : ∀ c ∈ t.head?, isBlank c = false
  last : ∀ c ∈ t.getLast?, isBlank c = false

theorem IsSolid.append {a b : Text} (ha : IsSolid a) (hb : IsSolid b) (separator : Text) :
    IsSolid (a ++ separator ++ b) where
  ne_nil := by simp [ha.ne_nil]
  first := by
    rw [List.append_assoc, List.head?_append_of_ne_nil a ha.ne_nil]
    exact ha.first
  last := by
    rw [List.getLast?_append_of_ne_nil _ hb.ne_nil]
    exact hb.last

theorem IsSolid.trim_eq_self {t : Text} (h : IsSolid t) : trim t = t :=
  Text.trim_eq_self h.first h.last

theorem IsSolid.isBlankText_eq_false {t : Text} (h : IsSolid t) : isBlankText t = false := by
  obtain ⟨c, rest, rfl⟩ := List.exists_cons_of_ne_nil h.ne_nil
  simp [isBlankText, h.first c rfl]

theorem isSolid_trim {t : Text} (some : trim t ≠ []) : IsSolid (trim t) where
  ne_nil := some
  first c hc := by
    have kept := List.head?_dropWhile_not isBlank t
    rw [head?_trim, trimStart] at hc
    rw [Option.mem_def.1 hc] at kept
    simpa using kept
  last c hc := by
    simp only [trim, trimEnd, dropEndWhile_eq_rdropWhile] at some hc
    have kept := List.rdropWhile_last_not isBlank (trimStart t) some
    rw [List.getLast?_eq_getLast_of_ne_nil some, Option.mem_some_iff] at hc
    simpa [hc] using kept

theorem mem_of_mem_trim {c : Char} {t : Text} (h : c ∈ trim t) : c ∈ t :=
  (List.dropWhile_sublist isBlank).subset ((trimEnd_front _).subset h)

theorem trim_join (separator : Text) {pieces : List Text} (h : ∀ p ∈ pieces, IsSolid p) :
    trim (join separator pieces) = join separator pieces := by
  have solid (first : Text) (rest : List Text) (h : ∀ p ∈ first :: rest, IsSolid p) :
      IsSolid (join separator (first :: rest)) := by
    induction rest generalizing first with
    | nil =>
      rw [join, List.intercalate_singleton]
      exact h first List.mem_cons_self
    | cons second rest ih =>
      rw [join_cons_cons]
      exact (h first List.mem_cons_self).append
        (ih second fun p hp => h p (List.mem_cons_of_mem first hp)) separator
  cases pieces with
  | nil => rfl
  | cons first rest => exact trim_eq_self (solid first rest h).first (solid first rest h).last

theorem isBlank_eq_false_of_isNameChar {c : Char} (h : isNameChar c = true) :
    isBlank c = false := by
  have apart : ∀ n ∈ blankCodes, isNameChar (Char.ofNat n) = false := by decide +kernel
  cases blank : isBlank c with
  | false => rfl
  | true =>
    have listed : c.toNat ∈ blankCodes := by simpa [isBlank] using blank
    have nameless := apart c.toNat listed
    rw [Char.ofNat_toNat] at nameless
    simp [nameless] at h

end Stylesheet.Text
