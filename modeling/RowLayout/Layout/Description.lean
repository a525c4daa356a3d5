import RowLayout.Layout.Cursor
import RowLayout.Text.Record

/-!
# Layouts and cursors described

The text in which a layout or a cursor is shown for debugging. Of the lists in a layout only the
lengths are shown, and of a location how far each of them has been passed. The text of a cursor
can be asked for at its end as well.

## Main definitions

* `Layout.description`, `Location.description`, `Cursor.description`
-/

namespace RowLayout

/-- The size of a layout. -/
def Layout.description {T : Type} [TextLines T] (lay : Layout T) : String :=
  recordText "LayoutInputs" [
    ("line_count", toString (TextLines.lineCount lay.document)),
    ("text_len", toString (TextLines.length lay.document)),
    ("fold_regions", toString lay.folds.length),
    ("soft_wraps", toString lay.wraps.length),
    ("inlays", toString lay.inlays.length),
    ("line_height", toString lay.lineHeight)]

/-- The state of a walk. -/
def Location.description (loc : Location) : String :=
  recordText "Location" [
    ("visual_line", toString loc.index),
    ("offset", optionText loc.start),
    ("logical_line", toString loc.line),
    ("fold_region", toString loc.folds.behind),
    ("soft_wrap", toString loc.wraps.behind),
    ("inlay", toString loc.inlays.behind),
    ("y", toString loc.y)]

/-- A cursor with its layout; whether it has looked ahead is not shown. -/
def Cursor.description {T : Type} [TextLines T] (c : Cursor T) : String :=
  recordText "VisualLinesIterator" [
    ("inputs", c.layout.description),
    ("location", c.location.description)]

end RowLayout
