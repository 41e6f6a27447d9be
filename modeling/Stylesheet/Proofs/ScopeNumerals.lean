import Mathlib.Algebra.BigOperators.Ring.Finset
import Mathlib.Data.Int.ModEq
import Mathlib.Data.List.GetD
import Stylesheet.ScopeId

/-!
# Scope ids as numerals

A scope id writes the magnitude of a signed 32-bit number in base 36. No digit is ever cut off, so the
number can be read back from the id, and two texts share an id only if their numbers are equal or
opposite.

* `IsUtf16`: the units of a text, stated by what each character is made of;
* `hash_eq_weight`: the rolling hash is the weighted sum of the units, up to multiples of `2 ^ 32`;
* `eq_base36_iff`: a number has one numeral, without zeros in front;
* `length_base36_le`: six digits are enough for every magnitude, the greatest one included;
* `ofText_numeral`: what a scope id is, and when two texts have the same one.
-/

namespace Stylesheet.ScopeId

/-! ## Units -/

/-- UTF-16 writes a character as its number if that has 16 bits. Otherwise it counts from `2 ^ 16` on and
writes ten bits in each of two units. -/
inductive Encodes (c : Char) : List Nat → Prop
  | single (short : c.toNat < 0x10000) : Encodes c [c.toNat]
  | pair {high low : Nat} (highBits : high < 0x400) (lowBits : low < 0x400)
      (number : c.toNat = 0x10000 + high * 0x400 + low) :
      Encodes c [0xd800 + high, 0xdc00 + low]

/-- The units of a text, one character after another. -/
inductive IsUtf16 : Text → List Nat → Prop
  | nil : IsUtf16 [] []
  | cons {c : Char} {t : Text} {first rest : List Nat} (own : Encodes c first)
      (later : IsUtf16 t rest) : IsUtf16 (c :: t) (first ++ rest)

theorem encodes_units (c : Char) : Encodes c (units c) := by
  unfold units
  split
  · rename_i short
    exact .single short
  · have bound : c.toNat < 0x110000 := by
      rcases c.valid with low | ⟨-, high⟩
      · exact Nat.lt_trans low (by decide)
      · exact high
    exact .pair (by omega) (by omega) (by omega)

theorem Encodes.eq_units {c : Char} {us : List Nat} (h : Encodes c us) : us = units c := by
  cases h with
  | single short => rw [units, if_pos short]
  | @pair high low highBits lowBits number =>
    have long : ¬ c.toNat < 0x10000 := by omega
    have front : (c.toNat - 0x10000) / 0x400 = high := by omega
    have back : (c.toNat - 0x10000) % 0x400 = low := by omega
    rw [units, if_neg long, front, back]

theorem isUtf16_iff {t : Text} {us : List Nat} : IsUtf16 t us ↔ us = t.flatMap units := by
  constructor
  · intro h
    induction h with
    | nil => rfl
    | cons own later ih => rw [List.flatMap_cons, own.eq_units, ih]
  · rintro rfl
    induction t with
    | nil => exact .nil
    | cons c t ih => exact .cons (encodes_units c) ih

/-! ## The hash -/

/-- The sum of some units, each with the weight of its place: 31 times that of the next. -/
def weight (us : List Nat) : Nat :=
  ∑ i ∈ Finset.range us.length, us.getD i 0 * 31 ^ (us.length - 1 - i)

theorem weight_concat (us : List Nat) (u : Nat) : weight (us ++ [u]) = weight us * 31 + u := by
  have place (i : Nat) (h : i ∈ Finset.range us.length) :
      (us ++ [u]).getD i 0 * 31 ^ (us.length + 1 - 1 - i) =
        us.getD i 0 * 31 ^ (us.length - 1 - i) * 31 := by
    have inside : i < us.length := Finset.mem_range.1 h
    have shift : us.length + 1 - 1 - i = us.length - 1 - i + 1 := by omega
    rw [List.getD_append _ _ _ _ inside, shift, pow_succ, mul_assoc]
  have last : (us ++ [u]).getD us.length 0 = u := by simp
  rw [weight, List.length_append, List.length_singleton, Finset.sum_range_succ,
    Finset.sum_congr rfl place, ← Finset.sum_mul, last]
  simp [weight]

/-- The hash keeps a rest in every step; the sum has it only in the end. -/
theorem hash_eq_weight (us : List Nat) : hash us = weight us % 2 ^ 32 := by
  induction us using List.reverseRecOn with
  | nil => rfl
  | append_singleton us u ih =>
    have step : hash (us ++ [u]) = (hash us * 31 + u) % 2 ^ 32 := by
      rw [hash, List.foldl_concat]
      rfl
    rw [step, ih, weight_concat, Nat.add_mod, Nat.mul_mod, Nat.mod_mod, ← Nat.mul_mod, ← Nat.add_mod]

/-- The number of 32 bits, one of them for the sign, that the units of a text come to. -/
def signed (us : List Nat) : Int :=
  Int.bmod (weight us) (2 ^ 32)

theorem bmod_word (n : Nat) :
    Int.bmod n (2 ^ 32) =
      if n % 4294967296 < 2147483648 then (n % 4294967296 : Int) else n % 4294967296 - 4294967296 := by
  rw [Int.bmod_def]
  norm_cast

theorem magnitude_hash (us : List Nat) : magnitude (hash us) = (signed us).natAbs := by
  have half : Nat.pow 2 31 = 2147483648 := rfl
  have full : Nat.pow 2 32 = 4294967296 := rfl
  have rest : (2 : Nat) ^ 32 = 4294967296 := rfl
  rw [hash_eq_weight]
  unfold signed magnitude
  generalize weight us = n
  rw [bmod_word, half, full, rest]
  split <;> omega

/-- The signed number is the one of 32 bits that the weighted sum is congruent to. -/
theorem signed_spec (us : List Nat) :
    signed us ≡ weight us [ZMOD 2 ^ 32] ∧ -2 ^ 31 ≤ signed us ∧ signed us < 2 ^ 31 := by
  have half : (2 : Int) ^ 31 = 2147483648 := rfl
  have full : (2 : Int) ^ 32 = 4294967296 := rfl
  unfold signed Int.ModEq
  generalize weight us = n
  rw [bmod_word, half, full]
  split <;> omega

/-- Numbers of the same magnitude belong to sums that are equal or opposite up to multiples of
`2 ^ 32`. The least number is its own opposite there. -/
theorem natAbs_signed_eq_iff (us vs : List Nat) :
    (signed us).natAbs = (signed vs).natAbs ↔
      (weight us : Int) ≡ weight vs [ZMOD 2 ^ 32] ∨ (weight us : Int) ≡ -weight vs [ZMOD 2 ^ 32] := by
  have full : (2 : Int) ^ 32 = 4294967296 := rfl
  unfold signed Int.ModEq
  generalize weight us = m
  generalize weight vs = n
  rw [bmod_word, bmod_word, full]
  split <;> split <;> omega

/-! ## Numerals -/

def digits : Text := "0123456789abcdefghijklmnopqrstuvwxyz"

/-- The number that digits of base 36 stand for, the first one having the most weight. -/
def value (t : Text) : Nat :=
  t.foldl (fun n c => n * 36 + digits.idxOf c) 0

/-- A text is a numeral of base 36: it has digits, and a zero in front only if it has no other. -/
structure IsNumeral (t : Text) : Prop where
  nonempty : t ≠ []
  plain : ∀ c ∈ t, c ∈ digits
  lead : t.head? = some '0' → t = ['0']

@[simp] theorem value_nil : value [] = 0 := rfl

theorem value_concat (t : Text) (c : Char) : value (t ++ [c]) = value t * 36 + digits.idxOf c := by
  rw [value, List.foldl_concat]
  rfl

theorem digits_eq : digits = (List.range 36).map digit := by
  decide +kernel

theorem idxOf_digit {n : Nat} (h : n < 36) : digits.idxOf (digit n) = n := by
  have table : (List.range 36).all (fun n => digits.idxOf (digit n) == n) = true := by
    decide +kernel
  simpa using List.all_eq_true.1 table n (List.mem_range.2 h)

theorem mem_digits_iff {c : Char} : c ∈ digits ↔ ∃ n < 36, digit n = c := by
  rw [digits_eq, List.mem_map]
  simp only [List.mem_range]

theorem base36_small {n : Nat} (h : n < 36) : base36 n = [digit n] := by
  rw [base36, if_pos h]

theorem base36_large {n : Nat} (h : ¬ n < 36) : base36 n = base36 (n / 36) ++ [digit (n % 36)] := by
  rw [base36, if_neg h]

theorem value_base36 (n : Nat) : value (base36 n) = n := by
  fun_induction base36 n with
  | case1 n small =>
    have read := value_concat [] (digit n)
    rw [idxOf_digit small] at read
    simpa using read
  | case2 n large ih =>
    rw [value_concat, ih, idxOf_digit (Nat.mod_lt n (by decide))]
    omega

theorem isNumeral_base36 (n : Nat) : IsNumeral (base36 n) := by
  fun_induction base36 n with
  | case1 n small =>
    have own : digit n ∈ digits := mem_digits_iff.2 ⟨n, small, rfl⟩
    refine ⟨by simp, by simpa using own, ?_⟩
    intro zero
    simpa using zero
  | case2 n large ih =>
    have last : digit (n % 36) ∈ digits := mem_digits_iff.2 ⟨n % 36, Nat.mod_lt n (by decide), rfl⟩
    refine ⟨by simp, ?_, ?_⟩
    · intro c hc
      rcases List.mem_append.1 hc with front | back
      · exact ih.plain c front
      · rw [List.mem_singleton.1 back]
        exact last
    · intro zero
      -- A zero in front would be all of the numeral for `n / 36`, which is not zero.
      rw [List.head?_append_of_ne_nil _ ih.nonempty] at zero
      have whole := congrArg value (ih.lead zero)
      rw [value_base36] at whole
      have none : value ['0'] = 0 := by decide
      omega

/-- A numeral is the one of the number that it stands for. -/
theorem base36_value {t : Text} (h : IsNumeral t) : base36 (value t) = t := by
  induction t using List.reverseRecOn with
  | nil => exact absurd rfl h.nonempty
  | append_singleton front c ih =>
    obtain ⟨d, small, rfl⟩ := mem_digits_iff.1 (h.plain c (by simp))
    rw [value_concat, idxOf_digit small]
    by_cases first : front = []
    · subst first
      simp [base36_small small]
    · have lead : front.head? ≠ some '0' := by
        intro zero
        have whole := h.lead (by rw [List.head?_append_of_ne_nil _ first, zero])
        exact first (by simpa using congrArg List.dropLast whole)
      have shorter : base36 (value front) = front :=
        ih ⟨first, fun c hc => h.plain c (List.mem_append_left _ hc), fun zero => absurd zero lead⟩
      have positive : value front ≠ 0 := by
        intro zero
        rw [zero, base36_small (by decide)] at shorter
        exact lead (by rw [← shorter]; rfl)
      have large : ¬ value front * 36 + d < 36 := by omega
      have quotient : (value front * 36 + d) / 36 = value front := by omega
      have rest : (value front * 36 + d) % 36 = d := by omega
      rw [base36_large large, quotient, rest, shorter]

theorem eq_base36_iff {t : Text} {n : Nat} : t = base36 n ↔ IsNumeral t ∧ value t = n := by
  constructor
  · rintro rfl
    exact ⟨isNumeral_base36 n, value_base36 n⟩
  · rintro ⟨numeral, rfl⟩
    exact (base36_value numeral).symm

theorem base36_inj {m n : Nat} : base36 m = base36 n ↔ m = n := by
  constructor
  · intro same
    rw [← value_base36 m, same, value_base36]
  · rintro rfl
    rfl

theorem length_base36_le {n k : Nat} (h : n < 36 ^ (k + 1)) : (base36 n).length ≤ k + 1 := by
  induction k generalizing n with
  | zero => rw [base36_small (by simpa using h)]; rfl
  | succ k ih =>
    by_cases small : n < 36
    · rw [base36_small small]
      simp
    · have fewer : n / 36 < 36 ^ (k + 1) := by
        rw [Nat.div_lt_iff_lt_mul (by decide), ← pow_succ]
        exact h
      rw [base36_large small, List.length_append, List.length_singleton]
      exact Nat.add_le_add_right (ih fewer) 1

/-! ## Scope ids -/

/-- Six digits hold every magnitude of 32 bits, so none is cut off. -/
theorem length_base36_signed (us : List Nat) : (base36 (signed us).natAbs).length ≤ 6 := by
  obtain ⟨-, low, high⟩ := signed_spec us
  have bound : (signed us).natAbs ≤ 2 ^ 31 := by omega
  have fits : 2 ^ 31 < 36 ^ (5 + 1) := by decide
  exact length_base36_le (Nat.lt_of_le_of_lt bound fits)

theorem ofText_eq {t : Text} {us : List Nat} (h : IsUtf16 t us) :
    ofText t = 't' :: base36 (signed us).natAbs := by
  rw [ofText, ← isUtf16_iff.1 h, magnitude_hash, List.take_of_length_le (length_base36_signed us)]

/-- Let `us` be the units of a text, and `s` the signed number of 32 bits that is their weighted sum up
to multiples of `2 ^ 32`. The scope id of the text is `t` and the one numeral of base 36 for the
magnitude of `s`, of which no digit is cut off: it has between one and six. Two texts have the same
scope id exactly if their sums are equal or opposite up to multiples of `2 ^ 32`. -/
theorem ofText_numeral {t u : Text} {us vs : List Nat} (ht : IsUtf16 t us) (hu : IsUtf16 u vs) :
    (signed us ≡ weight us [ZMOD 2 ^ 32] ∧ -2 ^ 31 ≤ signed us ∧ signed us < 2 ^ 31) ∧
    ofText t = 't' :: base36 (signed us).natAbs ∧
    (∀ numeral, ofText t = 't' :: numeral ↔
      IsNumeral numeral ∧ value numeral = (signed us).natAbs) ∧
    1 ≤ (base36 (signed us).natAbs).length ∧ (base36 (signed us).natAbs).length ≤ 6 ∧
    (ofText t = ofText u ↔
      (weight us : Int) ≡ weight vs [ZMOD 2 ^ 32] ∨
        (weight us : Int) ≡ -weight vs [ZMOD 2 ^ 32]) := by
  refine ⟨signed_spec us, ofText_eq ht, ?_, ?_, length_base36_signed us, ?_⟩
  · intro numeral
    rw [ofText_eq ht, List.cons.injEq, eq_comm (a := base36 _), eq_base36_iff]
    exact and_iff_right rfl
  · exact List.length_pos_iff.2 (isNumeral_base36 _).nonempty
  · rw [ofText_eq ht, ofText_eq hu, List.cons.injEq, base36_inj, natAbs_signed_eq_iff]
    exact and_iff_right rfl

/-- Two texts with opposite sums, one of them with a character that takes two units. -/
theorem ofText_opposite : ofText "😀" = 't' :: "11zz7" ∧ ofText "😀" = ofText "bmelnij" := by
  have smiley : IsUtf16 "😀" [0xd83d, 0xde00] := isUtf16_iff.2 (by decide +kernel)
  have letters : IsUtf16 "bmelnij" [98, 109, 101, 108, 110, 105, 106] :=
    isUtf16_iff.2 (by decide +kernel)
  obtain ⟨-, written, -, -, -, same⟩ := ofText_numeral smiley letters
  have number : base36 (signed [0xd83d, 0xde00]).natAbs = "11zz7" := by decide +kernel
  refine ⟨written.trans (congrArg ('t' :: ·) number), same.2 (.inr ?_)⟩
  decide +kernel

example : ofText "polygenelubricants" = "tzik0zk" := by decide +kernel

end Stylesheet.ScopeId
