import RowLayout.Layout.Location

/-!
# Row tables

A table of where the rows of a layout start, taken in one walk, so that a row can be found by its
index, by a vertical position or by an offset without walking there.

## Main definitions

* `RowOrigin`, `RowTable` — the starts of the rows and the height of all of them
* `RowTable.ofLayout` — the table of a layout
* `RowTable.measures` — what cursors ask of a table
* `RowTable.rowAtY?`, `RowTable.rowOfOffset?` — finding a row
-/

namespace RowLayout

/-- Where a row starts: its offset in the text, and its top in pixels. -/
structure RowOrigin where
  offset : Nat
  y : Nat
deriving DecidableEq, Repr, Inhabited

/-- The origin of a row. -/
def Row.origin (r : Row) : RowOrigin := ⟨r.start, r.y⟩

/-- Where the rows of a layout start, and the height of all rows together. -/
structure RowTable where
  origins : List RowOrigin
  totalHeight : Nat
deriving DecidableEq, Repr

/-- The top of a row that would come after the given one if that is the last: below it lie all
inlays that are left. -/
def Row.bottomAsLast {T : Type} (lay : Layout T) (r : Row) : Nat :=
  bottomBelow lay.lineHeight r.y (lay.inlays.drop r.inlayIndex)

namespace RowTable

/-- A table without rows. -/
def empty : RowTable := ⟨[], 0⟩

instance : Inhabited RowTable := ⟨empty⟩

/-- The table of a layout, taken in one walk over its rows. -/
def ofLayout {T : Type} [TextLines T] (lay : Layout T) : RowTable :=
  let rows := (Location.first lay).rows lay
  { origins := rows.map Row.origin
    totalHeight := (rows.getLast?.map (·.bottomAsLast lay)).getD 0 }

/-- How many rows there are. -/
def rowCount (t : RowTable) : Nat := t.origins.length

/-- The start of the row with the given index. -/
def origin? (t : RowTable) (index : Nat) : Option RowOrigin := t.origins[index]?

/-- What the table tells about the rows of a text of the given length. A row past the last one
would start at the end of the text, below all rows. -/
def measures (t : RowTable) (textLength : Nat) : Measures where
  rowCount := t.rowCount
  startOf index := ((t.origin? index).map RowOrigin.offset).getD textLength
  yOf index := ((t.origin? index).map RowOrigin.y).getD t.totalHeight

/-- The last row whose top is at or above a vertical position. -/
def rowAtY? (t : RowTable) (y : Nat) : Option Nat := lastWhile? (·.y ≤ y) t.origins

/-- The last row that starts at or before an offset. -/
def rowOfOffset? (t : RowTable) (offset : Nat) : Option Nat :=
  lastWhile? (·.offset ≤ offset) t.origins

end RowTable

end RowLayout
