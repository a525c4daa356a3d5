import RowLayout.LayoutError
import RowLayout.Wrap.Style

/-!
# Settings of a view

All that shapes the rows of a document besides the document itself: the height of a row, the
width of the viewport, and how lines are wrapped.

## Main definitions

* `Settings` — the settings, with the values they have where nothing else is said
* `Settings.validate` — the settings a layout can work with
-/

namespace RowLayout

/-- The settings of a view. Heights are 32-bit pixels, widths 64-bit cells. -/
structure Settings where
  /-- The height of a row of text, in pixels. -/
  lineHeight : UInt32 := 16
  /-- The width of the viewport, in cells; zero stands for one without end. -/
  viewportWidth : UInt64 := 80
  /-- The distance between tab stops, in cells. -/
  tabWidth : UInt64 := 4
  wrapMode : WrapMode := .char
  wrapIndent : WrapIndent := .none
deriving DecidableEq, Repr, Inhabited

namespace Settings

/-- Rows without height cannot be laid out. -/
def validate (s : Settings) : Except LayoutError Unit :=
  if s.lineHeight = 0 then .error .zeroLineHeight else .ok ()

/-- The distance between tab stops that is laid out: never zero. -/
def tabCells (s : Settings) : Nat := tabStep s.tabWidth.toNat

end Settings

end RowLayout
