import Mathlib.Algebra.Group.Nat.Even
import Mathlib.Order.Bounds.Defs
import Stylesheet.Proofs.Lexing

/-!
# Where a string ends

Inside a string a backslash takes the next character with it, so that a scan never stops at that
character. Whether it stops at a quote can be told without a scan: the number of backslashes in front
of the quote must be even.

* `even_backslashes_escape`: a backslash with the character behind it does not matter to that number;
* `reaches_spanQuoted`: a scan goes up to the first quote that is not escaped, or else to the end;
* `stringEnd_isLeast`: so does the position behind a string, wherever it starts in a text.
-/

namespace Stylesheet.Css

/-- The character at a position. A negative position counts from the end. -/
def charAt? (t : Text) : Int → Option Char
  | .ofNat i => t[i]?
  | .negSucc back => if t.length ≤ back then none else t[t.length - 1 - back]?

@[simp] theorem charAt?_natCast (t : Text) (i : Nat) : charAt? t i = t[i]? := rfl

/-- How many backslashes stand in a row right in front of the place `n` behind `first`, counted back to
`first`. -/
def backslashes (t : Text) (first : Int) : (n : Nat) → Nat
  | 0 => 0
  | n + 1 => if charAt? t (first + n) = some '\\' then backslashes t first n + 1 else 0

/-- At `j` stands the same character as at `start`, right behind an even number of backslashes. -/
def Closes (t : Text) (start j : Int) : Prop :=
  start < j ∧ charAt? t j = charAt? t start ∧
    Even (backslashes t (start + 1) (j - (start + 1)).toNat)

instance (t : Text) (start j : Int) : Decidable (Closes t start j) :=
  inferInstanceAs (Decidable (_ ∧ _ ∧ _))

/-! ## Scanning what stands behind the opening mark -/

@[simp] theorem backslashes_zero (t : Text) (first : Int) : backslashes t first 0 = 0 := rfl

theorem backslashes_succ (t : Text) (n : Nat) :
    backslashes t 0 (n + 1) = if t[n]? = some '\\' then backslashes t 0 n + 1 else 0 := by
  rw [backslashes, Int.zero_add]
  rfl

theorem backslashes_cons {c : Char} (plain : c ≠ '\\') (t : Text) (n : Nat) :
    backslashes (c :: t) 0 (n + 1) = backslashes t 0 n := by
  induction n with
  | zero => simp [backslashes_succ, plain]
  | succ n ih => rw [backslashes_succ, ih, List.getElem?_cons_succ, backslashes_succ]

/-- A row of backslashes that goes on through an escaped backslash has two more. -/
theorem even_backslashes_escape (d : Char) (t : Text) (n : Nat) :
    Even (backslashes ('\\' :: d :: t) 0 (n + 2)) ↔ Even (backslashes t 0 n) := by
  induction n with
  | zero =>
    by_cases escape : d = '\\'
    · have two : Even 2 := ⟨1, rfl⟩
      simp [backslashes_succ, escape, two]
    · simp [backslashes_succ, escape]
  | succ n ih =>
    rw [backslashes_succ _ (n + 2), List.getElem?_cons_succ, List.getElem?_cons_succ,
      backslashes_succ t n]
    split
    · rw [Nat.even_add_one, Nat.even_add_one, ih]
    · rfl

/-- At place `n` stands a mark that no backslash escapes. -/
def Ends (mark : Char) (t : Text) (n : Nat) : Prop :=
  t[n]? = some mark ∧ Even (backslashes t 0 n)

theorem ends_zero {mark c : Char} {t : Text} : Ends mark (c :: t) 0 ↔ c = mark := by
  simp [Ends]

theorem ends_cons {mark c : Char} (plain : c ≠ '\\') {t : Text} {n : Nat} :
    Ends mark (c :: t) (n + 1) ↔ Ends mark t n := by
  rw [Ends, Ends, List.getElem?_cons_succ, backslashes_cons plain]

theorem ends_escape {mark d : Char} {t : Text} {n : Nat} :
    Ends mark ('\\' :: d :: t) (n + 2) ↔ Ends mark t n := by
  rw [Ends, Ends, List.getElem?_cons_succ, List.getElem?_cons_succ, even_backslashes_escape]

theorem not_ends_escaped {mark d : Char} {t : Text} : ¬ Ends mark ('\\' :: d :: t) 1 := by
  simp [Ends, backslashes_succ]

/-- How far a string goes in the text behind its opening mark. -/
inductive Reaches (mark : Char) (t : Text) : Nat → Prop
  | closed {n : Nat} (ends : Ends mark t n) (first : ∀ m, Ends mark t m → n ≤ m) :
      Reaches mark t (n + 1)
  | unclosed (never : ∀ n, ¬ Ends mark t n) : Reaches mark t t.length

theorem Reaches.behind {mark : Char} (front : Text) {t : Text} {n : Nat} (h : Reaches mark t n)
    (early : ∀ m < front.length, ¬ Ends mark (front ++ t) m)
    (later : ∀ m, Ends mark (front ++ t) (m + front.length) ↔ Ends mark t m) :
    Reaches mark (front ++ t) (n + front.length) := by
  have shifted : ∀ m, Ends mark (front ++ t) m → ∃ k, m = k + front.length ∧ Ends mark t k := by
    intro m ends
    have inside : front.length ≤ m := by
      apply Nat.le_of_not_lt
      intro less
      exact early m less ends
    obtain ⟨k, rfl⟩ := Nat.exists_eq_add_of_le' inside
    exact ⟨k, rfl, (later k).1 ends⟩
  cases h with
  | @closed n ends first =>
    rw [Nat.add_right_comm]
    refine .closed ((later n).2 ends) fun m hm => ?_
    obtain ⟨k, rfl, own⟩ := shifted m hm
    have least := first k own
    omega
  | unclosed never =>
    rw [Nat.add_comm, ← List.length_append]
    refine .unclosed fun m hm => ?_
    obtain ⟨k, -, own⟩ := shifted m hm
    exact never k own

theorem reaches_spanQuoted {mark : Char} (plain : mark ≠ '\\') (t : Text) :
    Reaches mark t (spanQuoted mark t).1.length := by
  fun_induction spanQuoted mark t with
  | case1 => exact .unclosed fun n ends => by simp [Ends] at ends
  | case2 c =>
    by_cases same : c = mark
    · exact .closed (ends_zero.2 same) fun m _ => Nat.zero_le m
    · refine .unclosed fun n ends => ?_
      cases n with
      | zero => exact same (ends_zero.1 ends)
      | succ n => simp [Ends] at ends
  | case3 d t body rest cut ih =>
    rw [cut] at ih
    refine ih.behind ['\\', d] ?_ fun m => ends_escape
    intro m early ends
    obtain rfl | rfl : m = 0 ∨ m = 1 := Nat.le_one_iff_eq_zero_or_eq_one.1 (Nat.le_of_lt_succ early)
    · exact plain (ends_zero.1 ends).symm
    · exact not_ends_escaped ends
  | case4 d t no_escape => exact .closed (ends_zero.2 rfl) fun m _ => Nat.zero_le m
  | case5 c d t no_escape no_mark body rest cut ih =>
    rw [cut] at ih
    refine ih.behind [c] ?_ fun m => ends_cons no_escape
    intro m early ends
    obtain rfl : m = 0 := Nat.lt_one_iff.1 early
    exact no_mark (ends_zero.1 ends)

/-! ## Strings at a position of a text -/

/-- What a scan goes through behind a position: the rest of the text and, if the position counts from
the end, the whole text after it. -/
def behind (t : Text) : (start : Int) → Text
  | .ofNat start => t.drop (start + 1)
  | .negSucc back => t.drop (t.length - back) ++ t

section Opened

variable {t : Text} {start : Int} {mark : Char}

theorem stringEndFrom?_eq (opens : charAt? t start = some mark) :
    stringEndFrom? t start = some (start + 1 + (spanQuoted mark (behind t start)).1.length) := by
  cases start with
  | ofNat i =>
    obtain ⟨inside, same⟩ := List.getElem?_eq_some_iff.1 opens
    rw [stringEndFrom?, stringEnd?, List.drop_eq_getElem_cons inside, same]
    rfl
  | negSucc back =>
    obtain ⟨inside, found⟩ := Option.ite_none_left_eq_some.1 opens
    obtain ⟨index, same⟩ := List.getElem?_eq_some_iff.1 found
    have next : t.length - 1 - back + 1 = t.length - back := by omega
    rw [stringEndFrom?, if_neg inside, List.drop_eq_getElem_cons index, same, next, behind]
    simp only [Option.some.injEq]
    omega

theorem length_behind (opens : charAt? t start = some mark) :
    start + 1 + (behind t start).length = t.length := by
  cases start with
  | ofNat i =>
    obtain ⟨inside, -⟩ := List.getElem?_eq_some_iff.1 opens
    rw [behind, List.length_drop, Int.ofNat_eq_natCast]
    omega
  | negSucc back =>
    obtain ⟨inside, -⟩ := Option.ite_none_left_eq_some.1 opens
    rw [behind, List.length_append, List.length_drop]
    omega

theorem charAt?_behind (opens : charAt? t start = some mark) (n : Nat) :
    charAt? t (start + 1 + n) = (behind t start)[n]? := by
  cases start with
  | ofNat i =>
    rw [behind, List.getElem?_drop]
    rfl
  | negSucc back =>
    obtain ⟨inside, -⟩ := Option.ite_none_left_eq_some.1 opens
    have length : (t.drop (t.length - back)).length = back := by
      rw [List.length_drop]
      omega
    by_cases rest : n < back
    · have position : Int.negSucc back + 1 + n = Int.negSucc (back - n - 1) := by omega
      have index : t.length - 1 - (back - n - 1) = t.length - back + n := by omega
      rw [position, charAt?, if_neg (by omega), index, behind,
        List.getElem?_append_left (by omega), List.getElem?_drop]
    · have position : Int.negSucc back + 1 + n = (n - back : Nat) := by omega
      rw [position, charAt?_natCast, behind, List.getElem?_append_right (by omega), length]

theorem backslashes_behind (opens : charAt? t start = some mark) (n : Nat) :
    backslashes t (start + 1) n = backslashes (behind t start) 0 n := by
  induction n with
  | zero => rfl
  | succ n ih => rw [backslashes, charAt?_behind opens, ih, backslashes_succ]

theorem closes_iff (opens : charAt? t start = some mark) {j : Int} :
    Closes t start j ↔ ∃ n : Nat, j = start + 1 + n ∧ Ends mark (behind t start) n := by
  constructor
  · rintro ⟨later, same, even⟩
    obtain ⟨n, place⟩ := Int.eq_ofNat_of_zero_le (a := j - (start + 1)) (by omega)
    obtain rfl : j = start + 1 + n := by omega
    rw [place, Int.toNat_natCast, backslashes_behind opens] at even
    rw [charAt?_behind opens, opens] at same
    exact ⟨n, rfl, same, even⟩
  · rintro ⟨n, rfl, same, even⟩
    have place : start + 1 + n - (start + 1) = n := by omega
    refine ⟨by omega, ?_, ?_⟩
    · rw [charAt?_behind opens, opens, same]
    · rw [place, Int.toNat_natCast, backslashes_behind opens]
      exact even

end Opened

/-- A string that a quote opens ends behind the first such quote that has an even number of backslashes
in front of it. Where there is none, it goes on to the end of the text. -/
theorem stringEnd_isLeast {t : Text} {start : Int} {mark : Char}
    (opens : charAt? t start = some mark) (quote : isQuoteMark mark = true) :
    ∃ e, stringEndFrom? t start = some e ∧ start < e ∧ e ≤ t.length ∧
      ((∃ j, Closes t start j) → IsLeast {j | Closes t start j} (e - 1)) ∧
      ((¬ ∃ j, Closes t start j) → e = t.length) := by
  have plain : mark ≠ '\\' := ne_of_isQuoteMark quote rfl
  have length := length_behind opens
  have reaches := reaches_spanQuoted plain (behind t start)
  refine ⟨_, stringEndFrom?_eq opens, ?_⟩
  generalize (spanQuoted mark (behind t start)).1.length = far at reaches
  cases reaches with
  | @closed n ends first =>
    obtain ⟨inside, -⟩ := List.getElem?_eq_some_iff.1 ends.1
    have closes : Closes t start (start + 1 + n) := (closes_iff opens).2 ⟨n, rfl, ends⟩
    have last : start + 1 + (n + 1 : Nat) - 1 = start + 1 + n := by omega
    refine ⟨by omega, by omega, fun _ => ?_, fun none => absurd ⟨_, closes⟩ none⟩
    rw [last]
    refine ⟨closes, fun j other => ?_⟩
    obtain ⟨m, rfl, later⟩ := (closes_iff opens).1 other
    have least := first m later
    omega
  | unclosed never =>
    refine ⟨by omega, by omega, ?_, fun _ => length⟩
    rintro ⟨j, closes⟩
    obtain ⟨n, -, ends⟩ := (closes_iff opens).1 closes
    exact absurd ends (never n)

/-- A string with a mark behind three backslashes, one of the other kind, and then one behind two. -/
def escapes : Text := "a'\\\\\\'\"\\\\'b'"

theorem stringEnd_escapes :
    charAt? escapes 1 = some '\'' ∧ isQuoteMark '\'' = true ∧
      ¬ Closes escapes 1 5 ∧ Closes escapes 1 9 ∧
      ∃ e, stringEndFrom? escapes 1 = some e ∧ IsLeast {j | Closes escapes 1 j} (e - 1) := by
  have opens : charAt? escapes 1 = some '\'' := by decide +kernel
  have closes : ¬ Closes escapes 1 5 ∧ Closes escapes 1 9 := by decide +kernel
  obtain ⟨e, found, -, -, closed, -⟩ := stringEnd_isLeast opens rfl
  exact ⟨opens, rfl, closes.1, closes.2, e, found, closed ⟨9, closes.2⟩⟩

end Stylesheet.Css
