/-!
# What remains to be visited

A search that never visits the same place twice ends because ever fewer places remain.

* `remaining_cons_lt`: visiting a new place of the list leaves fewer;
* `remaining_cons_le`: visiting any place leaves no more.
-/

namespace Stylesheet

variable {α : Type} [DecidableEq α]

/-- How many entries of a list of places are not among the visited ones. -/
def remaining (places visited : List α) : Nat :=
  places.countP (fun p => decide (p ∉ visited))

theorem remaining_place (p : α) (places visited : List α) :
    remaining (p :: places) visited =
      remaining places visited + if p ∈ visited then 0 else 1 := by
  by_cases h : p ∈ visited <;> simp [remaining, h]

theorem remaining_cons_le (places visited : List α) (x : α) :
    remaining places (x :: visited) ≤ remaining places visited :=
  List.countP_mono_left fun p _ h => by
    simp only [List.mem_cons, not_or, decide_eq_true_eq] at h ⊢
    exact h.2

theorem remaining_cons_lt {places visited : List α} {x : α} (hx : x ∈ places)
    (new : x ∉ visited) : remaining places (x :: visited) < remaining places visited := by
  induction places with
  | nil => cases hx
  | cons p rest ih =>
    have le := remaining_cons_le rest visited x
    rw [remaining_place, remaining_place]
    by_cases hp : p = x
    · simp only [hp, List.mem_cons, true_or, if_true, new, if_false]
      omega
    · have lt := ih (by simpa [Ne.symm hp] using hx)
      simp only [List.mem_cons, hp, false_or]
      omega

end Stylesheet
