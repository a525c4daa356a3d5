import RowLayout.Layout.Cursor
import RowLayout.Layout.RowTable
import RowLayout.LogEvent

/-!
# Views

A view is a document with its settings, folds and inlays, and with the layout that follows from
them: the soft wraps and the row table. Whatever changes the former computes the latter anew.

## Main definitions

* `View` — a document, all that shapes its rows, and the rows
* `View.ofText` — a view of a text, with no folds or inlays yet
* `View.layout`, `View.measures` — what cursors over the view are made from
* `View.cursorAt`, `View.rows` — walking the rows
* `View.viewport`, `View.rowAtY?`, `View.rowOfOffset?` — finding rows
-/

namespace RowLayout

/-- A document and its layout. -/
structure View where
  document : Document
  folds : FoldSet
  inlays : InlaySet
  settings : Settings
  wraps : List SoftWrap
  table : RowTable
deriving DecidableEq, Repr

namespace View

/-- What the rows of a view are made from. -/
def layout (v : View) : Layout where
  document := v.document
  folds := v.folds.outermost
  wraps := v.wraps
  inlays := v.inlays.inlays
  lineHeight := v.settings.lineHeight.toNat

/-- The view with soft wraps and row table made anew. -/
def relayout (v : View) : View :=
  let wrapped := { v with wraps := SoftWrap.ofDocument v.document v.folds v.settings }
  { wrapped with table := .ofLayout wrapped.layout }

/-- A view of a text without folds and inlays, under settings taken as they are. -/
def fresh (text : List Char) (settings : Settings) : View :=
  relayout {
    document := .ofText text
    folds := .empty
    inlays := .empty
    settings := settings
    wraps := []
    table := .empty }

/-- A view of a text without folds and inlays. -/
def ofText (text : List Char) (settings : Settings) : Except LayoutError View := do
  settings.validate
  return fresh text settings

/-! ### Rows -/

/-- How many rows there are. -/
def rowCount (v : View) : Nat := v.table.rowCount

/-- The height of all rows together, in pixels. -/
def totalHeight (v : View) : Nat := v.table.totalHeight

/-- What is known about the rows without walking them. -/
def measures (v : View) : Measures := v.table.measures v.document.length

/-- The offset at which a row starts, or the length of the text past the last row. -/
def rowStart (v : View) (index : Nat) : Nat := v.measures.startOf index

/-- The top of a row, or the height of all rows past the last row. -/
def rowY (v : View) (index : Nat) : Nat := v.measures.yOf index

/-- A cursor on the row with the given index, at its end if there is no such row. -/
def cursorAt (v : View) (index : Nat) : Cursor := .atRow v.layout v.measures index

/-- All rows from the one with the given index on. -/
def rowsFrom (v : View) (index : Nat) : List Row := (v.cursorAt index).rest.1

/-- All rows. -/
def rows (v : View) : List Row := v.rowsFrom 0

/-! ### Finding rows -/

/-- The row that covers a vertical position, or the last row below all rows. -/
def rowAtY? (v : View) (y : Nat) : Option Nat := v.table.rowAtY? y

/-- The row that holds an offset; offsets past the text count as its end. -/
def rowOfOffset? (v : View) (offset : Nat) : Option Nat :=
  v.table.rowOfOffset? (min offset v.document.length)

/-- The rows in a window of the given height whose top is at `top`. A row reaches to the top of the
next one, so a band of block inlays belongs to the row above it. A window below all rows is
empty. -/
def viewport (v : View) (top height : Nat) : List Row :=
  if v.totalHeight ≤ top then []
  else
    match v.rowAtY? top with
    | none => []
    | some index => (v.rowsFrom index).takeWhile (·.y < addPixels top height)

end View

end RowLayout
