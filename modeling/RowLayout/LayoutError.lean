/-!
# What can be refused

The reasons for which a change to a layout is refused or a cursor cannot move, and their wording.

## Main definitions

* `LayoutError` — the reasons
* `LayoutError.message` — what is said about each
-/

namespace RowLayout

/-- Why a request was refused. -/
inductive LayoutError where
  /-- A cursor past the last row was asked about its row, or to move. -/
  | iterationFinished
  /-- A fold was empty, reversed or reached past the text. -/
  | invalidFoldRange (start stop : Nat)
  /-- A fold would cross or repeat another one. -/
  | overlappingFold (start stop : Nat)
  /-- An anchor lay past the text. -/
  | offsetOutOfBounds (offset length : Nat)
  /-- Rows were to have no height. -/
  | zeroLineHeight
deriving DecidableEq, Repr

namespace LayoutError

/-- What is said about a refused request. -/
def message : LayoutError → String
  | iterationFinished => "visual line iteration finished"
  | invalidFoldRange start stop => s!"invalid fold range {start}..={stop}"
  | overlappingFold start stop =>
    s!"fold region {start}..={stop} partially overlaps an existing region"
  | offsetOutOfBounds offset length =>
    s!"offset {offset} is out of bounds (text length {length})"
  | zeroLineHeight => "invalid configuration: line_height must be greater than zero"

end LayoutError

end RowLayout
