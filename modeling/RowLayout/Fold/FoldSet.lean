import RowLayout.Fold.Region
import RowLayout.LayoutError
import RowLayout.Ordered
import RowLayout.Text.Document

/-!
# The folds of a document

A fold set holds regions in order, the enclosing before the enclosed. Regions may nest and touch
but never cross, and no two have the same range; a region that would break this is refused.

What a layout needs to know is which regions hide something on their own account: the *outermost*
regions, which are collapsed and lie in no other collapsed region. They are kept beside the
regions, and every change computes them anew.

## Main definitions

* `FoldSet` — the regions and the outermost collapsed ones
* `FoldSet.add`, `addLines`, `remove` — changing which regions there are
* `FoldSet.updateAt` — changing the innermost region at an offset
* `FoldSet.hides` — whether a line starting at an offset would have no row
* `FoldEdit`, `FoldSet.apply` — the changes as values, and what they answer
-/

namespace RowLayout

/-! ### Outermost regions -/

/-- Of an ordered list of regions, those that are not enclosed by one kept before. In an ordered
list without crossings only the last one kept can enclose the next. -/
def outermostAfter (last : Option FoldRegion) : List FoldRegion → List FoldRegion
  | [] => []
  | r :: rest =>
    if last.any (·.Encloses r) then outermostAfter last rest
    else r :: outermostAfter (some r) rest

/-- The collapsed regions of an ordered list that lie in no other collapsed region. -/
def outermostCollapsed (regions : List FoldRegion) : List FoldRegion :=
  outermostAfter none (regions.filter (·.collapsed))

/-- The index of the last region that starts before an offset, in a list ordered by start. -/
def lastRegionBefore? (regions : List FoldRegion) (offset : Nat) : Option Nat :=
  lastWhile? (·.start < offset) regions

/-! ### Fold sets -/

/-- The regions of a document, in order, and the outermost collapsed ones. -/
structure FoldSet where
  regions : List FoldRegion
  outermost : List FoldRegion
deriving DecidableEq, Repr

namespace FoldSet

/-- No regions. -/
def empty : FoldSet := ⟨[], []⟩

instance : Inhabited FoldSet := ⟨empty⟩

/-- The set with the given regions. -/
def ofRegions (regions : List FoldRegion) : FoldSet := ⟨regions, outermostCollapsed regions⟩

/-- Add a region to the folds of a text of the given length. A region that is empty or reaches
past the text is refused, and so is one that crosses or repeats a region of the set. -/
def add (s : FoldSet) (r : FoldRegion) (textLength : Nat) : Except LayoutError FoldSet :=
  if r.stop ≤ r.start ∨ textLength < r.stop then
    .error (.invalidFoldRange r.start r.stop)
  else if s.regions.any fun other => other.Crosses r ∨ other.SameRange r then
    .error (.overlappingFold r.start r.stop)
  else
    .ok (ofRegions (insertAfter (·.Precedes r) r s.regions))

/-- The region over the lines from `first` to `last` of a document. -/
def lineRegion (d : Document) (first last : Nat) (collapsed : Bool) : FoldRegion :=
  .plain (d.lineStart first) (d.lineStop last) collapsed

/-- Add a region over at least two lines of a document. Collapsed, it shows as the one row on
which its first line starts. -/
def addLines (s : FoldSet) (d : Document) (first last : Nat) (collapsed : Bool) :
    Except LayoutError FoldSet :=
  let r := lineRegion d first last collapsed
  if last ≤ first ∨ d.lineCount ≤ last then .error (.invalidFoldRange r.start r.stop)
  else s.add r d.length

/-- Remove the region with exactly the given range. No answer means that there is none. -/
def remove (s : FoldSet) (start stop : Nat) : Option FoldSet :=
  if s.regions.any fun r => r.start = start ∧ r.stop = stop then
    some (ofRegions (s.regions.eraseP fun r => r.start = start ∧ r.stop = stop))
  else none

/-- The index of the innermost region that holds an offset. Regions come after those that enclose
them, so it is the last one that holds the offset. -/
def innermostAt? (s : FoldSet) (offset : Nat) : Option Nat :=
  let holding := s.regions.zipIdx.filter fun (r, _) => r.Contains offset
  holding.getLast?.map (·.2)

/-- The innermost region that holds an offset. -/
def regionAt? (s : FoldSet) (offset : Nat) : Option FoldRegion :=
  (s.innermostAt? offset).bind (s.regions[·]?)

/-- Change the innermost region that holds an offset. No answer means that there is none. -/
def updateAt (s : FoldSet) (change : FoldRegion → FoldRegion) (offset : Nat) : Option FoldSet :=
  (s.innermostAt? offset).map fun i => ofRegions (s.regions.modify i change)

/-- Change every region. -/
def updateAll (s : FoldSet) (change : FoldRegion → FoldRegion) : FoldSet :=
  ofRegions (s.regions.map change)

/-- The index of the last outermost region that starts before an offset. -/
def lastBefore? (s : FoldSet) (offset : Nat) : Option Nat := lastRegionBefore? s.outermost offset

/-- Whether a line that starts at an offset would have no row of its own. Outermost regions do not
overlap, so only the last one that starts before the offset can hide it. -/
def hides (s : FoldSet) (offset : Nat) : Bool :=
  ((s.lastBefore? offset).bind (s.outermost[·]?)).any (·.Hides offset)

end FoldSet

/-! ### Changes as values -/

/-- A change to the folds of a document. -/
inductive FoldEdit where
  | add (region : FoldRegion) (textLength : Nat)
  | addLines (first last : Nat) (collapsed : Bool)
  | remove (start stop : Nat)
  | collapseAt (offset : Nat)
  | expandAt (offset : Nat)
  | toggleAt (offset : Nat)
  | collapseAll
  | expandAll
  | clear
deriving DecidableEq, Repr

/-- What a change answers. -/
inductive FoldAnswer where
  /-- The change has nothing to report. -/
  | done
  /-- The region was added. -/
  | added
  /-- The region was refused. -/
  | refused (error : LayoutError)
  /-- Whether there was a region to change. -/
  | found (found : Bool)
deriving DecidableEq, Repr

namespace FoldSet

/-- The answer and the set after an addition, which changes nothing if it is refused. -/
def afterAdding (s : FoldSet) : Except LayoutError FoldSet → FoldAnswer × FoldSet
  | .ok t => (.added, t)
  | .error e => (.refused e, s)

/-- The answer and the set after a change to one region, which changes nothing if there is no
such region. -/
def afterFinding (s : FoldSet) : Option FoldSet → FoldAnswer × FoldSet
  | some t => (.found true, t)
  | none => (.found false, s)

/-- Carry out a change to the folds of a document. -/
def apply (d : Document) (s : FoldSet) : FoldEdit → FoldAnswer × FoldSet
  | .add region textLength => s.afterAdding (s.add region textLength)
  | .addLines first last collapsed => s.afterAdding (s.addLines d first last collapsed)
  | .remove start stop => s.afterFinding (s.remove start stop)
  | .collapseAt offset => s.afterFinding (s.updateAt .collapse offset)
  | .expandAt offset => s.afterFinding (s.updateAt .expand offset)
  | .toggleAt offset => s.afterFinding (s.updateAt .toggle offset)
  | .collapseAll => (.done, s.updateAll .collapse)
  | .expandAll => (.done, s.updateAll .expand)
  | .clear => (.done, empty)

end FoldSet

end RowLayout
