import RowLayout.Text.Blank
import RowLayout.Text.Width

/-!
# How lines are wrapped

The two choices that decide where a long line is continued on a further row, and how far the
continuation rows are indented.

## Main definitions

* `WrapMode` — where a row may be broken
* `WrapIndent` — what a continuation row is indented by
* `WrapIndent.cells` — the indentation of a line's continuation rows

## Main results

* `WrapIndent.cells_lt` — the indentation leaves at least one cell of the row
-/

namespace RowLayout

/-- Where a row may be broken. -/
inductive WrapMode where
  /-- Nowhere: each line is one row. -/
  | none
  /-- Between any two characters. -/
  | char
  /-- After blank characters; between any two only where a word is too long for a row. -/
  | word
deriving DecidableEq, Repr, Inhabited

/-- What a continuation row is indented by. Cell counts are 64-bit. -/
inductive WrapIndent where
  | none
  /-- The width of the blanks at the start of the line. -/
  | sameAsLine
  | fixedCells (cells : UInt64)
deriving DecidableEq, Repr, Inhabited

namespace WrapIndent

/-- What a continuation row of the line would be indented by if rows had no end. -/
def wanted (indent : WrapIndent) (tab : Nat) (line : List Char) : Nat :=
  match indent with
  | .none => 0
  | .sameAsLine => textWidth tab (line.takeWhile isIndent)
  | .fixedCells cells => cells.toNat

/-- The indentation of the line's continuation rows in a viewport of `width` cells: never so much
that no cell is left for text. -/
def cells (indent : WrapIndent) (width tab : Nat) (line : List Char) : Nat :=
  if width ≤ 1 then 0 else min (indent.wanted tab line) (width - 1)

theorem cells_lt (indent : WrapIndent) {width : Nat} (h : 0 < width) (tab : Nat)
    (line : List Char) : indent.cells width tab line < width := by
  simp only [cells]
  split <;> omega

@[simp]
theorem cells_none (width tab : Nat) (line : List Char) :
    WrapIndent.none.cells width tab line = 0 := by
  simp [cells, wanted]

end WrapIndent

end RowLayout
