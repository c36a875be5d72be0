import Mathlib.Data.Rat.Defs
import Mathlib.Data.List.Dedup

/-! # Similarity of two sequences

`difflib.SequenceMatcher(None, a, b).ratio()`: the longest block the two sequences share,
then the same to its left and to its right; the ratio is twice what was matched over the
total length.  Of several longest blocks the one that starts first in `a`, and then in
`b`, is taken.  In a second sequence of 200 elements or more, an element that makes up
more than a hundredth of it cannot start a block, and blocks are only extended over it.
-/
namespace SequenceMatcher
variable {α : Type} [DecidableEq α]

/-- A block: where it starts in each sequence, and its length. -/
structure Block where
  i : Nat
  j : Nat
  size : Nat
deriving DecidableEq

/-- The elements of `b` that are left out of `b2j`. -/
def popular (b : List α) (x : α) : Bool :=
  decide (200 ≤ b.length) && decide (b.length / 100 + 1 < b.count x)

/-- One row of the table of block lengths: `diag` is the entry up and to the left. -/
def nextRow (junk : α → Bool) (x : α) : Nat → List Nat → List α → List Nat
  | diag, up :: row, y :: ys =>
      (if x = y ∧ junk y = false then diag + 1 else 0) :: nextRow junk x up row ys
  | _, _, _ => []

/-- The best block after a row, `i` being the row. -/
def improve (i : Nat) (best : Block) (row : List Nat) : Block :=
  (row.zipIdx).foldl (fun best (k, j) =>
    if best.size < k then ⟨i + 1 - k, j + 1 - k, k⟩ else best) best

/-- The rows of the table, and the best block. -/
def scanRows (junk : α → Bool) (ys : List α) : Nat → List α → List Nat → Block → Block
  | _, [], _, best => best
  | i, x :: xs, row, best =>
      let row := nextRow junk x 0 row ys
      scanRows junk ys (i + 1) xs row (improve i best row)

/-- Extend a block to the left. -/
def extendLeft (xs ys : List α) : Nat → Nat → Nat → Block
  | i + 1, j + 1, k =>
      if xs[i]? = ys[j]? then extendLeft xs ys i j (k + 1) else ⟨i + 1, j + 1, k⟩
  | i, j, k => ⟨i, j, k⟩

/-- The length of the common prefix. -/
def commonPrefix : List α → List α → Nat
  | x :: xs, y :: ys => if x = y then commonPrefix xs ys + 1 else 0
  | _, _ => 0

/-- `find_longest_match`. -/
def findLongestMatch (junk : α → Bool) (xs ys : List α) : Block :=
  let best := scanRows junk ys 0 xs (ys.map fun _ => 0) ⟨0, 0, 0⟩
  let best := extendLeft xs ys best.i best.j best.size
  { best with
    size := best.size +
      commonPrefix (xs.drop (best.i + best.size)) (ys.drop (best.j + best.size)) }

/-- The number of elements in the matching blocks; every block found uses up an element of
the first sequence, which bounds the recursion. -/
def matched (junk : α → Bool) : Nat → List α → List α → Nat
  | 0, _, _ => 0
  | fuel + 1, xs, ys =>
      let block := findLongestMatch junk xs ys
      if block.size = 0 then 0
      else block.size + matched junk fuel (xs.take block.i) (ys.take block.j) +
        matched junk fuel (xs.drop (block.i + block.size)) (ys.drop (block.j + block.size))

/-- `ratio`. -/
def ratio (a b : List α) : ℚ :=
  if a.length + b.length = 0 then 1
  else 2 * matched (popular b) a.length a b / ((a.length + b.length : Nat) : ℚ)

example : ratio "abcd".toList "bcde".toList = 3 / 4 := by decide +kernel

end SequenceMatcher
