import RowLayout.Fold.FoldSet
import RowLayout.Inlay.InlaySet
import RowLayout.Text.TextLines
import RowLayout.Wrap.SoftWrap

/-!
# Layouts

A layout is everything that the rows of a text are made from. The text is a document if nothing
else is said, but it may be any one that tells about its lines. The lists in a layout are expected
to be ordered by offset; nothing else is asked of them, and rows can be walked whatever they hold.

## Main definitions

* `Layout` — a text with the folds, soft wraps and inlays that shape its rows
* `Mark` — how far a list has been passed
-/

namespace RowLayout

/-- A text and what shapes its rows. Only the ranges of the folds count here: each of them is taken
as collapsed. -/
structure Layout (T : Type := Document) where
  document : T
  folds : List FoldRegion
  wraps : List SoftWrap
  inlays : List Inlay
  /-- The height of a row of text, in pixels. -/
  lineHeight : Nat
deriving DecidableEq, Repr, Inhabited

/-! ### Watermarks -/

/-- How far an ordered list has been passed: the number of elements left behind, and those that
are still ahead. A mark only ever moves forward. -/
structure Mark (α : Type) where
  behind : Nat
  ahead : List α
deriving DecidableEq, Repr

namespace Mark

variable {α : Type}

/-- Nothing of the list has been passed. -/
def atFront (xs : List α) : Mark α := ⟨0, xs⟩

/-- Pass all elements up to the first one that fails a test. -/
def passWhile (p : α → Bool) (m : Mark α) : Mark α :=
  ⟨m.behind + countWhile p m.ahead, m.ahead.dropWhile p⟩

/-- Pass the next element, if there is one. -/
def passNext (m : Mark α) : Mark α :=
  match m.ahead with
  | [] => m
  | _ :: rest => ⟨m.behind + 1, rest⟩

/-- The next element. -/
def next? (m : Mark α) : Option α := m.ahead.head?

/-- The index of the last element passed. -/
def last? (m : Mark α) : Option Nat :=
  match m.behind with
  | 0 => none
  | n + 1 => some n

end Mark

end RowLayout
