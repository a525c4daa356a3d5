/-!
# Character ranges

Properties of characters are given by lists of code point ranges in ascending order. For look-up
the list is laid out as a search tree: of each subtree, the left half holds the lower ranges and
the right half the higher ones.

## Main definitions

* `CodeRange` — consecutive code points that share a value
* `RangeTree.ofList` — the search tree of an ascending list of ranges
* `RangeTree.find?` — the value of the range that holds a code point

## Main results

* `RangeTree.toList_ofList` — no range is lost in the tree
-/

namespace RowLayout

/-- The code points from `first` to `last`, both included, and the value they share. -/
structure CodeRange (α : Type) where
  first : Nat
  last : Nat
  value : α
deriving DecidableEq, Repr

/-- Ranges laid out for search. -/
inductive RangeTree (α : Type) where
  | leaf
  | node (left : RangeTree α) (range : CodeRange α) (right : RangeTree α)
deriving Repr

namespace RangeTree

variable {α : Type}

/-- Lay out the first ranges of a list as a tree of the given depth, and hand back the ranges for
which it has no room. -/
def fill : Nat → List (CodeRange α) → RangeTree α × List (CodeRange α)
  | 0, ranges => (leaf, ranges)
  | depth + 1, ranges =>
    match fill depth ranges with
    | (left, []) => (left, [])
    | (left, range :: rest) =>
      let (right, rest) := fill depth rest
      (node left range right, rest)

/-- The search tree of an ascending list of ranges. Its depth is the number of binary digits of
the length of the list, so that there is room for every range. -/
def ofList (ranges : List (CodeRange α)) : RangeTree α :=
  (fill (ranges.length.log2 + 1) ranges).1

/-- The value of the range that holds a code point. -/
def find? : RangeTree α → Nat → Option α
  | leaf, _ => none
  | node left range right, code =>
    if code < range.first then left.find? code
    else if range.last < code then right.find? code
    else some range.value

/-- The ranges of a tree in ascending order. -/
def toList : RangeTree α → List (CodeRange α)
  | leaf => []
  | node left range right => left.toList ++ range :: right.toList

/-- No range is lost or moved when a tree is filled. -/
theorem toList_fill (depth : Nat) (ranges : List (CodeRange α)) :
    (fill depth ranges).1.toList ++ (fill depth ranges).2 = ranges := by
  induction depth generalizing ranges with
  | zero => rfl
  | succ depth ih =>
    have h := ih ranges
    rw [fill]
    split
    · next left heq => rw [heq] at h; simpa using h
    · next left range rest heq =>
      rw [heq] at h
      have hr := ih rest
      simp only [toList, List.append_assoc, List.cons_append] at h ⊢
      rw [hr, h]

/-- How many ranges a tree of a given depth has room for. -/
def room : Nat → Nat
  | 0 => 0
  | depth + 1 => 2 * room depth + 1

/-- A tree leaves over only what it has no room for. -/
theorem length_rest_fill (depth : Nat) (ranges : List (CodeRange α)) :
    (fill depth ranges).2.length = ranges.length - room depth := by
  induction depth generalizing ranges with
  | zero => rfl
  | succ depth ih =>
    have h := ih ranges
    rw [fill, room]
    split
    · next left heq =>
      rw [heq] at h
      simp only [List.length_nil] at h ⊢
      omega
    · next left range rest heq =>
      rw [heq] at h
      have hr := ih rest
      simp only [List.length_cons] at h ⊢
      omega

/-- A tree as deep as a number has binary digits has room for that many ranges. -/
theorem le_room_log2 (n : Nat) : n ≤ room (n.log2 + 1) := by
  induction n using Nat.strongRecOn with
  | ind n ih =>
    rw [Nat.log2_def]
    split
    · have := ih (n / 2) (by omega)
      rw [room]; omega
    · simp only [room]; omega

/-- The search tree of a list holds exactly the ranges of the list. -/
theorem toList_ofList (ranges : List (CodeRange α)) : (ofList ranges).toList = ranges := by
  have hrest : (fill (ranges.length.log2 + 1) ranges).2 = [] := by
    apply List.eq_nil_of_length_eq_zero
    rw [length_rest_fill]
    exact Nat.sub_eq_zero_of_le (le_room_log2 _)
  have h := toList_fill (ranges.length.log2 + 1) ranges
  rwa [hrest, List.append_nil] at h

end RangeTree

end RowLayout
