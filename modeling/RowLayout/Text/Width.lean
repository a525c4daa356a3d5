import RowLayout.Bounded
import RowLayout.Text.WidthTable

/-!
# Widths in cells

How far characters and texts reach across a row of equally wide cells. A tab reaches to the next
tab stop, so its width depends on the cell it begins at; every other character has a width of its
own.

## Main definitions

* `charWidth` — the cells a character takes
* `cellWidth` — the same at a given cell, where a tab runs to the next stop
* `textEnd`, `textWidth` — the cell at which a text ends

## Main results

* `cellWidth_tab_bounds` — a tab takes at least one cell and at most the distance of two stops
* `textEnd_append` — a text is measured piece by piece
-/

namespace RowLayout

/-- The search tree of the width table. -/
def widthTree : RangeTree Nat := RangeTree.ofList widthRanges

/-- The cells a character takes where it is not a tab. Control characters take one. -/
def charWidth (c : Char) : Nat := (widthTree.find? c.toNat).getD 1

/-- The distance between tab stops: a tab width of zero counts as one. -/
def tabStep (tab : Nat) : Nat := max tab 1

/-- The cells a character takes that begins at cell `cell`. A tab runs to the next multiple of the
tab width. -/
def cellWidth (tab : Nat) (cell : Nat) (c : Char) : Nat :=
  if c = '\t' then tabStep tab - cell % tabStep tab else charWidth c

theorem tabStep_pos (tab : Nat) : 0 < tabStep tab := by simp only [tabStep]; omega

theorem cellWidth_tab_bounds (tab cell : Nat) :
    0 < cellWidth tab cell '\t' ∧ cellWidth tab cell '\t' ≤ tabStep tab := by
  have := Nat.mod_lt cell (tabStep_pos tab)
  simp only [cellWidth, if_true]
  omega

theorem cellWidth_of_ne_tab {c : Char} (h : c ≠ '\t') (tab cell : Nat) :
    cellWidth tab cell c = charWidth c := by
  simp [cellWidth, h]

/-! ### Texts -/

/-- The cell just past a text that begins at cell `cell`. -/
def textEnd (tab : Nat) (cell : Nat) (text : List Char) : Nat :=
  text.foldl (fun x c => addCells x (cellWidth tab x c)) cell

/-- The cells taken by a text that begins a line. -/
def textWidth (tab : Nat) (text : List Char) : Nat := textEnd tab 0 text

@[simp]
theorem textEnd_nil (tab cell : Nat) : textEnd tab cell [] = cell := rfl

@[simp]
theorem textEnd_cons (tab cell : Nat) (c : Char) (text : List Char) :
    textEnd tab cell (c :: text) = textEnd tab (addCells cell (cellWidth tab cell c)) text := rfl

theorem textEnd_append (tab cell : Nat) (s t : List Char) :
    textEnd tab cell (s ++ t) = textEnd tab (textEnd tab cell s) t := by
  simp [textEnd, List.foldl_append]

/-! ### Runs of equal width -/

/-- The code points among `code`, `code + 1`, … (`count` of them) at which the width differs from
that of the code point before, with the width that begins there. Code points that are no
characters are passed over. -/
def widthRuns (code : Nat) (count : Nat) : List (Nat × Nat) :=
  let scan (runs : List (Nat × Nat)) (i : Nat) : List (Nat × Nat) :=
    if (code + i).isValidChar then
      let width := charWidth (Char.ofNat (code + i))
      if runs.head?.any (·.2 == width) then runs else (code + i, width) :: runs
    else runs
  ((List.range count).foldl scan []).reverse

end RowLayout
