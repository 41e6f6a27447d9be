import Stylesheet.Text.Basic

/-!
# Similar words

Two words are similar if they have long runs of characters in common: the longest common run, and
then, in the same way, what stands before it and behind it in both. Their likeness is twice the number
of characters in such runs over the number of all characters.

In a word of 200 characters or more, a character that makes up more than one in a hundred is common:
runs are not looked for from common characters, though a run found may extend over them.
-/

namespace Stylesheet.Similarity

/-- The characters that are too common in a long word to start a run. -/
def commonIn (word : Text) (c : Char) : Bool :=
  200 ≤ word.length && word.length / 100 + 1 < word.count c

/-- A run of characters at the same time in two texts. -/
structure Run where
  /-- Where it starts in the first text. -/
  first : Nat := 0
  /-- Where it starts in the second text. -/
  second : Nat := 0
  length : Nat := 0

/-- For each position of the second text, the length of the common run that ends there and at the
character `c` of the first, from the lengths for the character before. -/
def runsAt (ignored : Char → Bool) (c : Char) : (before : Nat) → (lengths : List Nat) → Text → List Nat
  | _, [], _ => []
  | _, _, [] => []
  | before, here :: lengths, d :: t =>
    (if d = c && !ignored d then before + 1 else 0) :: runsAt ignored c here lengths t

/-- The better of the longest run so far and the runs that end at character `i` of the first text;
only a longer one is better. `j` is the position in the second text. -/
def longer (i : Nat) : (j : Nat) → Run → List Nat → Run
  | _, best, [] => best
  | j, best, n :: rest =>
    longer i (j + 1)
      (if best.length < n then { first := i + 1 - n, second := j + 1 - n, length := n } else best) rest

/-- The longest run over all characters of the first text from position `i` on. -/
def longestFrom (ignored : Char → Bool) (second : Text) : (i : Nat) → List Nat → Run → Text → Run
  | _, _, best, [] => best
  | i, lengths, best, c :: t =>
    let next := runsAt ignored c 0 lengths second
    longestFrom ignored second (i + 1) next (longer i 0 best next) t

/-- How many characters two texts have in common at their fronts. -/
def commonFront : Text → Text → Nat
  | c :: s, d :: t => if c = d then commonFront s t + 1 else 0
  | _, _ => 0

/-- The longest common run that comes first, extended at both ends as far as the texts agree. -/
def longest (ignored : Char → Bool) (first second : Text) : Run :=
  let run := longestFrom ignored second 0 (second.map fun _ => 0) {} first
  let before := commonFront (first.take run.first).reverse (second.take run.second).reverse
  let behind := commonFront (first.drop (run.first + run.length)) (second.drop (run.second + run.length))
  { first := run.first - before
    second := run.second - before
    length := before + run.length + behind }

/-- How many characters lie in common runs. A run takes characters from both texts, so what remains on
either side of it is shorter. -/
def matched (ignored : Char → Bool) (first second : Text) : Nat :=
  let run := longest ignored first second
  let before := first.take run.first
  let behind := first.drop (run.first + run.length)
  if _ : before.length < first.length ∧ behind.length < first.length then
    run.length + matched ignored before (second.take run.second) +
      matched ignored behind (second.drop (run.second + run.length))
  else run.length
termination_by first.length
decreasing_by
  · rename_i h; exact h.1
  · rename_i h; exact h.2

/-- The likeness of a candidate to a word, as a fraction. Two empty texts are alike. -/
def likeness (word candidate : Text) : Nat × Nat :=
  match word.length + candidate.length with
  | 0 => (1, 1)
  | n => (2 * matched (commonIn word) candidate word, n)

def isClose (ratio : Nat × Nat) : Bool :=
  3 * ratio.2 ≤ 5 * ratio.1

/-- Whether one candidate with its likeness goes before another: it is more alike, or as much and
later in the order of texts. -/
def better (a b : (Nat × Nat) × Text) : Bool :=
  let left := a.1.1 * b.1.2
  let right := b.1.1 * a.1.2
  right < left || (left == right && decide (b.2 < a.2))

/-- The candidate closest to a word, if one is close. -/
def closest? (word : Text) (candidates : List Text) : Option Text :=
  let close := (candidates.map fun c => (likeness word c, c)).filter fun c => isClose c.1
  (close.foldl (fun best c =>
    match best with
    | none => some c
    | some b => if better c b then some c else some b) none).map Prod.snd

end Stylesheet.Similarity
