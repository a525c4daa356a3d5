import RowLayout.Wrap.Style

/-!
# Wrap points

The places at which a line is cut into rows that fit the viewport. Both modes read the line once
from left to right and remember where the current row began. A place is the index of the first
character of the new row.

The width of a tab depends on its cell in the uncut line, so both scans carry that cell along
with the state of the current row.

The width up to which a row is filled has a ceiling, but the width that it would have with one more
character is a sum of 64 bits whose carry is lost. A tab can be as wide as such a number, so there
are lines on which it shows.

## Main definitions

* `CharScan`, `charPoints` — cutting between any two characters
* `WordScan`, `wordPoints` — cutting after blanks, where a blank can be found
* `wrapPoints` — the points of a line in either mode
-/

namespace RowLayout

/-! ### Cutting between characters -/

/-- The state of the scan that cuts anywhere: the index of the next character, the cells the
current row takes so far, its indentation included, and the cell reached in the uncut line. -/
structure CharScan where
  index : Nat
  used : Nat
  cell : Nat
deriving DecidableEq, Repr

namespace CharScan

/-- The scan at the start of a line, whose first row is not indented. -/
def start : CharScan := ⟨0, 0, 0⟩

/-- Cut in front of a character of `w` cells if it does not fit, unless the row is still empty. -/
def cutBefore (width indent w : Nat) (s : CharScan) : List Nat × CharScan :=
  if width < low64 (s.used + w) ∧ indent < s.used then ([s.index], { s with used := indent })
  else ([], s)

/-- Put a character of `w` cells on the row. -/
def put (w : Nat) (s : CharScan) : CharScan :=
  ⟨s.index + 1, addCells s.used w, addCells s.cell w⟩

/-- Cut behind the character just put if it filled the row and was not the last one. -/
def cutAfter (width indent : Nat) (more : Bool) (s : CharScan) : List Nat × CharScan :=
  if width ≤ s.used ∧ more then ([s.index], { s with used := indent }) else ([], s)

/-- The cuts made while the rest of a line is scanned. -/
def points (width tab indent : Nat) : List Char → CharScan → List Nat
  | [], _ => []
  | c :: rest, s =>
    let w := cellWidth tab s.cell c
    let before := s.cutBefore width indent w
    let after := (before.2.put w).cutAfter width indent !rest.isEmpty
    before.1 ++ after.1 ++ points width tab indent rest after.2

end CharScan

/-- The points at which a line is cut if it may be cut between any two characters. A wide
character that does not fit moves to the next row as a whole. -/
def charPoints (width tab indent : Nat) (line : List Char) : List Nat :=
  CharScan.start.points width tab indent line

/-! ### Cutting after blanks -/

/-- A place in a line: the index of a character and the cell at which it begins. -/
structure Place where
  index : Nat
  cell : Nat
deriving DecidableEq, Repr

/-- The state of the scan that cuts after blanks: the place of the next character, the place at
which the current row began, and the place just past the last blank seen since then. -/
structure WordScan where
  here : Place
  row : Place
  blank : Option Place
deriving DecidableEq, Repr

namespace WordScan

/-- The scan at the start of a line. -/
def start : WordScan := ⟨⟨0, 0⟩, ⟨0, 0⟩, none⟩

/-- The indentation of the current row: the first row of a line has none. -/
def indented (indent : Nat) (s : WordScan) : Nat := if s.row.index = 0 then 0 else indent

/-- Whether a character of `w` cells still fits on the current row. -/
def fits (width indent w : Nat) (s : WordScan) : Bool :=
  low64 (s.here.cell - s.row.cell + s.indented indent + w) ≤ width

/-- Begin a new row at a place. -/
def cutAt (place : Place) (s : WordScan) : List Nat × WordScan :=
  ([place.index], { s with row := place, blank := none })

/-- Cut after the last blank of the row if the next character does not fit. -/
def cutAtBlank (width indent w : Nat) (s : WordScan) : List Nat × WordScan :=
  match s.blank with
  | some place =>
    if ¬ s.fits width indent w ∧ s.row.index < place.index then s.cutAt place else ([], s)
  | none => ([], s)

/-- Cut in front of the next character if it does not fit, unless the row is still empty. -/
def cutHere (width indent w : Nat) (s : WordScan) : List Nat × WordScan :=
  if ¬ s.fits width indent w ∧ s.row.index < s.here.index then s.cutAt s.here else ([], s)

/-- Put the next character, of `w` cells, on the row. -/
def put (c : Char) (w : Nat) (s : WordScan) : WordScan :=
  let here : Place := ⟨s.here.index + 1, addCells s.here.cell w⟩
  { s with here := here, blank := if isBlank c then some here else s.blank }

/-- The cuts made while the rest of a line is scanned. A character that does not fit is brought
to a new row together with the word it belongs to, and if it still does not fit, on its own. -/
def points (width tab indent : Nat) : List Char → WordScan → List Nat
  | [], _ => []
  | c :: rest, s =>
    let w := cellWidth tab s.here.cell c
    let first := s.cutAtBlank width indent w
    let second := first.2.cutHere width indent w
    first.1 ++ second.1 ++ points width tab indent rest (second.2.put c w)

end WordScan

/-- The points at which a line is cut if it is preferably cut after blanks. -/
def wordPoints (width tab indent : Nat) (line : List Char) : List Nat :=
  WordScan.start.points width tab indent line

/-! ### Both modes -/

/-- The points at which a line is cut for a viewport of `width` cells, as indices of characters.
A viewport without cells is taken as one without end. -/
def wrapPoints (mode : WrapMode) (indent : WrapIndent) (width tab : Nat) (line : List Char) :
    List Nat :=
  if width = 0 then []
  else
    match mode with
    | .none => []
    | .char => charPoints width tab (indent.cells width tab line) line
    | .word => wordPoints width tab (indent.cells width tab line) line

@[simp]
theorem wrapPoints_zero (mode : WrapMode) (indent : WrapIndent) (tab : Nat) (line : List Char) :
    wrapPoints mode indent 0 tab line = [] := by
  simp [wrapPoints]

@[simp]
theorem wrapPoints_none (indent : WrapIndent) (width tab : Nat) (line : List Char) :
    wrapPoints .none indent width tab line = [] := by
  simp [wrapPoints]

end RowLayout
