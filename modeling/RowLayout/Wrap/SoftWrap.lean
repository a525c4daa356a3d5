import RowLayout.Fold.FoldSet
import RowLayout.Settings.Basic
import RowLayout.Wrap.Points

/-!
# The soft wraps of a document

A soft wrap is a place in a document at which a row begins though no line does. The soft wraps of
a document are the wrap points of its lines, in order, without those that a collapsed fold hides:
what is folded away is not laid out.

## Main definitions

* `SoftWrap` — an offset, and the indentation of the row that begins there
* `SoftWrap.ofDocument` — the soft wraps of a document
* `SoftWrap.ofOffsets` — soft wraps at given offsets
* `SoftWrap.search`, `SoftWrap.firstFrom?` — looking one up by its offset
-/

namespace RowLayout

/-- A place at which a row begins within a line. -/
structure SoftWrap where
  /-- The offset of the row's first character. -/
  offset : Nat
  /-- The indentation of the row, in cells. -/
  indent : Nat
deriving DecidableEq, Repr, Inhabited

namespace SoftWrap

/-- The soft wraps of one line that starts at `start`, whether or not a fold hides them. -/
def ofLine (s : Settings) (start : Nat) (line : List Char) : List SoftWrap :=
  let width := s.viewportWidth.toNat
  let indent := s.wrapIndent.cells width s.tabCells line
  (wrapPoints s.wrapMode s.wrapIndent width s.tabCells line).map fun p => ⟨start + p, indent⟩

/-- The soft wraps of a document: those of its lines, one line after the other, that no collapsed
fold hides. -/
def ofDocument (d : Document) (folds : FoldSet) (s : Settings) : List SoftWrap :=
  (d.lines.zip d.spans).flatMap fun (line, span) =>
    (ofLine s span.start line.text).filter fun w => !folds.hides w.offset

/-- Soft wraps without indentation at the given offsets, in order, one at each of them. -/
def ofOffsets (offsets : List Nat) : List SoftWrap :=
  (offsets.mergeSort.eraseReps).map fun offset => ⟨offset, 0⟩

/-! ### Look-up -/

/-- Where an offset falls in an ordered list. -/
inductive Position where
  /-- The element with the index has the offset. -/
  | found (index : Nat)
  /-- No element has the offset; one that had it would come at the index. -/
  | absent (index : Nat)
deriving DecidableEq, Repr

/-- How many soft wraps come before an offset. -/
def countBefore (wraps : List SoftWrap) (offset : Nat) : Nat :=
  countWhile (·.offset < offset) wraps

/-- The soft wrap at an offset, or the index at which one would have to be put in. -/
def search (wraps : List SoftWrap) (offset : Nat) : Position :=
  let i := countBefore wraps offset
  if wraps[i]?.any (·.offset = offset) then .found i else .absent i

/-- The index of the first soft wrap at or after an offset. -/
def firstFrom? (wraps : List SoftWrap) (offset : Nat) : Option Nat :=
  let i := countBefore wraps offset
  if i < wraps.length then some i else none

end SoftWrap

end RowLayout
