/-!
# Looking things up in ordered lists

Folds, wraps, inlays and rows are kept in lists ordered by offset. In such a list the elements
that come before a given offset make up an initial stretch, and all look-ups and insertions are
about the length of that stretch.

## Main definitions

* `countWhile` — the length of the initial stretch on which a test holds
* `lastWhile?` — the index of the last element of that stretch
* `insertAfter` — a new element put right behind it

## Main results

* `insertAfter_perm` — an insertion adds one element and loses none
* `lastWhile?_eq_some_iff` — the index of the last element is one less than the length
-/

namespace RowLayout

variable {α : Type}

/-- How many elements at the front of a list pass a test. -/
def countWhile (p : α → Bool) (xs : List α) : Nat := (xs.takeWhile p).length

/-- The index of the last element of the initial stretch that passes a test. -/
def lastWhile? (p : α → Bool) (xs : List α) : Option Nat :=
  match countWhile p xs with
  | 0 => none
  | n + 1 => some n

/-- Put an element behind the initial stretch that passes a test. -/
def insertAfter (p : α → Bool) (x : α) (xs : List α) : List α :=
  xs.takeWhile p ++ x :: xs.dropWhile p

theorem countWhile_le (p : α → Bool) (xs : List α) : countWhile p xs ≤ xs.length :=
  (List.takeWhile_prefix p).length_le

@[simp]
theorem countWhile_nil (p : α → Bool) : countWhile p ([] : List α) = 0 := rfl

theorem countWhile_cons (p : α → Bool) (x : α) (xs : List α) :
    countWhile p (x :: xs) = if p x then countWhile p xs + 1 else 0 := by
  simp only [countWhile, List.takeWhile_cons]
  split <;> simp

theorem lastWhile?_eq_none_iff {p : α → Bool} {xs : List α} :
    lastWhile? p xs = none ↔ countWhile p xs = 0 := by
  rw [lastWhile?]
  split <;> simp_all

theorem lastWhile?_eq_some_iff {p : α → Bool} {xs : List α} {i : Nat} :
    lastWhile? p xs = some i ↔ countWhile p xs = i + 1 := by
  rw [lastWhile?]
  split <;> simp_all

theorem insertAfter_perm (p : α → Bool) (x : α) (xs : List α) :
    (insertAfter p x xs).Perm (x :: xs) := by
  have h : (insertAfter p x xs).Perm (x :: (xs.takeWhile p ++ xs.dropWhile p)) :=
    List.perm_middle
  rwa [List.takeWhile_append_dropWhile] at h

end RowLayout
