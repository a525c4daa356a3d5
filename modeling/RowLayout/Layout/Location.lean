import RowLayout.Layout.Basic

/-!
# Walking the rows

A row begins at the start of a line that no fold hides, or at a soft wrap. A *location* is one
row of a layout together with all that is needed to find the next: which lines, folds, soft wraps
and inlays are still ahead. Walking is a merge of these lists, each of which is passed once.

The rows after a location are the rows after the next location and so on; every step uses up a
line or a soft wrap, so a walk ends.

The numbers of the rows have 64 bits and start again from zero behind the largest one. No text has
rows enough for that, but a walk may be told to begin at a row with any number.

## Main definitions

* `Location` — a row, and what lies ahead of it
* `Location.first`, `Location.atRow` — the first row, and a row whose place is known
* `Location.next` — the following row, or the end
* `Row`, `Location.row` — what there is to know about a row
* `Location.rows`, `Location.last` — all rows from here on, and where they end

## Main results

* `Location.stepsLeft_next_lt` — every step brings the end nearer
-/

namespace RowLayout

/-- A row of a layout, and how far the lists of the layout have been passed when it begins. -/
structure Location where
  /-- How many rows come before, as far as 64 bits can tell. -/
  index : Nat
  /-- The offset of the first character, or nothing past the last row. -/
  start : Option Nat
  /-- The line that holds the start of the row. -/
  line : Nat
  /-- The starts of the lines after that line. -/
  linesAhead : List Nat
  /-- Behind are the folds that start before the row. -/
  folds : Mark FoldRegion
  /-- Behind are the soft wraps at or before the start of the row. -/
  wraps : Mark SoftWrap
  /-- Behind are the inlays anchored before the row. -/
  inlays : Mark Inlay
  /-- The top of the row, in pixels. -/
  y : Nat
deriving DecidableEq, Repr

/-- What is known about the rows of a layout before they are walked: how many there are, and where
each of them starts. -/
structure Measures where
  rowCount : Nat
  startOf : Nat → Nat
  yOf : Nat → Nat

namespace Location

variable {T : Type}

/-! ### Where a walk begins -/

/-- The first row. Every text has one. -/
def first [TextLines T] (lay : Layout T) : Location where
  index := 0
  start := some 0
  line := 0
  linesAhead := TextLines.startsAfter lay.document 0
  folds := .atFront lay.folds
  wraps := .atFront lay.wraps
  inlays := .atFront lay.inlays
  y := 0

/-- The end of a walk that was never begun. -/
def nowhere [TextLines T] (lay : Layout T) : Location := { first lay with start := none }

/-- The row with the given index, start and top. What lies ahead of it is found from its start. -/
def placed [TextLines T] (lay : Layout T) (index start y : Nat) : Location :=
  let line := TextLines.lineOf lay.document start
  { index := index
    start := some start
    line := line
    linesAhead := TextLines.startsAfter lay.document line
    folds := (Mark.atFront lay.folds).passWhile (·.start < start)
    wraps := (Mark.atFront lay.wraps).passWhile (·.offset ≤ start)
    inlays := (Mark.atFront lay.inlays).passWhile (·.offset < start)
    y := y }

/-- The row with the given index of a layout whose rows have been measured before: the first row
needs no measures, and an index past the last row is the end. -/
def atRow [TextLines T] (lay : Layout T) (measures : Measures) (index : Nat) : Location :=
  if measures.rowCount ≤ index then nowhere lay
  else if index = 0 then first lay
  else placed lay (low64 index) (measures.startOf index) (measures.yOf index)

/-- Whether all rows have been passed. -/
def finished (loc : Location) : Bool := loc.start.isNone

/-! ### The next row -/

/-- Whether the next of the folds hides a line that starts at an offset. -/
def hiddenBy (folds : Mark FoldRegion) (offset : Nat) : Bool :=
  folds.next?.any (·.start < offset)

/-- Pass the folds that lie before a line start altogether. -/
def passClosed (folds : Mark FoldRegion) (offset : Nat) : Mark FoldRegion :=
  folds.passWhile fun r => r.start < offset && r.stop < offset

/-- The next place at which a row begins, with the lines and folds passed on the way there. -/
structure RowStart where
  start : Option Nat
  line : Nat
  linesAhead : List Nat
  folds : Mark FoldRegion
deriving DecidableEq, Repr

/-- The next row start: the pending soft wrap, if it comes before the next line, or the first line
that no fold hides. Hidden lines are passed all the same. -/
def scan (pending : Option Nat) : Nat → List Nat → Mark FoldRegion → RowStart
  | line, [], folds => ⟨pending, line, [], folds⟩
  | line, offset :: rest, folds =>
    if pending.any (· < offset) then ⟨pending, line, offset :: rest, folds⟩
    else if hiddenBy (passClosed folds offset) offset then
      scan pending (line + 1) rest (passClosed folds offset)
    else ⟨some offset, line + 1, rest, passClosed folds offset⟩

/-- The soft wrap at which the row after this one begins at the latest. -/
def pending (loc : Location) : Option Nat := loc.wraps.next?.map SoftWrap.offset

/-- The next row start after this row. -/
def scanNext (loc : Location) : RowStart := scan loc.pending loc.line loc.linesAhead loc.folds

/-- The row after this one. Its top lies below this row and all inlays that are passed on the way
there. -/
def next (lay : Layout T) (loc : Location) : Location :=
  let found := loc.scanNext
  match found.start with
  | none =>
    { loc with
      index := low64 (loc.index + 1)
      start := none
      line := found.line
      linesAhead := found.linesAhead
      folds := found.folds }
  | some offset =>
    let passed := loc.inlays.ahead.takeWhile (·.offset < offset)
    { index := low64 (loc.index + 1)
      start := some offset
      line := found.line
      linesAhead := found.linesAhead
      folds := found.folds.passWhile (·.start < offset)
      wraps := if loc.pending = some offset then loc.wraps.passNext else loc.wraps
      inlays := loc.inlays.passWhile (·.offset < offset)
      y := topBelow lay.lineHeight loc.y passed }

/-! ### Every step comes nearer to the end -/

/-- A bound on the rows from here on, this one included: one for the row itself, and one for each
line and soft wrap ahead. -/
def stepsLeft (loc : Location) : Nat :=
  match loc.start with
  | none => 0
  | some _ => 1 + loc.linesAhead.length + loc.wraps.ahead.length

/-- A scan stops at a line, which it passes, or at the pending soft wrap. -/
theorem scan_cases (pending : Option Nat) (line : Nat) (ahead : List Nat)
    (folds : Mark FoldRegion) :
    (scan pending line ahead folds).linesAhead.length < ahead.length ∧
        (scan pending line ahead folds).start.isSome ∨
      (scan pending line ahead folds).linesAhead.length ≤ ahead.length ∧
        (scan pending line ahead folds).start = pending := by
  induction ahead generalizing line folds with
  | nil => right; simp [scan]
  | cons offset rest ih =>
    rw [scan]
    split
    · right; simp
    · split
      · obtain ⟨h, hs⟩ | ⟨h, hs⟩ := ih (line + 1) (passClosed folds offset)
        · left; exact ⟨by simp only [List.length_cons]; omega, hs⟩
        · right; exact ⟨by simp only [List.length_cons]; omega, hs⟩
      · left; simp

theorem length_passNext_lt {m : Mark SoftWrap} (h : m.next?.isSome) :
    m.passNext.ahead.length < m.ahead.length := by
  obtain ⟨behind, ahead⟩ := m
  cases ahead with
  | nil => simp [Mark.next?] at h
  | cons w rest => simp [Mark.passNext]

theorem length_passNext_le (m : Mark SoftWrap) :
    m.passNext.ahead.length ≤ m.ahead.length := by
  obtain ⟨behind, ahead⟩ := m
  cases ahead <;> simp [Mark.passNext]

/-- Every step uses up a line or a soft wrap, or ends the walk. -/
theorem stepsLeft_next_lt (lay : Layout T) {loc : Location} (h : loc.finished = false) :
    (loc.next lay).stepsLeft < loc.stepsLeft := by
  have hs : loc.stepsLeft = 1 + loc.linesAhead.length + loc.wraps.ahead.length := by
    cases hstart : loc.start with
    | none => simp [finished, hstart] at h
    | some s => simp [stepsLeft, hstart]
  have hscan := scan_cases loc.pending loc.line loc.linesAhead loc.folds
  change loc.scanNext.linesAhead.length < _ ∧ loc.scanNext.start.isSome ∨
    loc.scanNext.linesAhead.length ≤ _ ∧ loc.scanNext.start = loc.pending at hscan
  rw [hs]
  simp only [next]
  split
  · next hnone => simp only [stepsLeft]; omega
  · next offset hsome =>
    simp only [stepsLeft]
    obtain ⟨hl, -⟩ | ⟨hl, hp⟩ := hscan
    · have := length_passNext_le loc.wraps
      split <;> omega
    · rw [hp] at hsome
      rw [if_pos hsome]
      have : loc.wraps.next?.isSome := by
        rw [pending] at hsome
        cases hw : loc.wraps.next? with
        | none => simp [hw] at hsome
        | some w => rfl
      have := length_passNext_lt this
      omega

end Location

/-! ### Rows -/

/-- What there is to know about one row. -/
structure Row where
  /-- How many rows come before, as far as 64 bits can tell. -/
  index : Nat
  /-- The offset of the first character. -/
  start : Nat
  /-- The offset just past the last character. -/
  stop : Nat
  /-- The line that holds the start of the row. -/
  line : Nat
  /-- The index of the first fold on this or a later row. -/
  foldIndex : Nat
  /-- The index of the soft wrap at which the row starts, or of the last one before it. -/
  wrapIndex : Option Nat
  /-- The index of the first inlay on this or a later row. -/
  inlayIndex : Nat
  /-- The top of the row, in pixels. -/
  y : Nat
  /-- The height of the row, its inline inlays included, in pixels. -/
  height : Nat
deriving DecidableEq, Repr, Inhabited

namespace Location

variable {T : Type}

/-- Where the row of `loc` stops if `following` is the row after it: at the soft wrap at which
that row starts, at the end of the line before it, or at the end of the text. -/
def stopBefore [TextLines T] (lay : Layout T) (loc following : Location) : Nat :=
  match following.start with
  | none => TextLines.length lay.document
  | some offset =>
    if following.wraps.behind = loc.wraps.behind then
      TextLines.lineStop lay.document (following.line - 1)
    else offset

/-- The inlays ahead that stand on a row from `start` to `stop`. One at the end of a row that is
not empty stands on the next row. -/
def inlaysUpTo (loc : Location) (start stop : Nat) : List Inlay :=
  loc.inlays.ahead.takeWhile fun i => i.offset < stop || (i.offset = stop && stop ≤ start)

/-- The row that starts at `start`, if `following` is the location after it. -/
def rowBefore [TextLines T] (lay : Layout T) (loc : Location) (start : Nat)
    (following : Location) : Row :=
  let stop := loc.stopBefore lay following
  { index := loc.index
    start := start
    stop := stop
    line := loc.line
    foldIndex := loc.folds.behind
    wrapIndex := loc.wraps.last?
    inlayIndex := loc.inlays.behind
    y := loc.y
    height := rowHeight lay.lineHeight (loc.inlaysUpTo start stop) }

/-- The row at a location. -/
def row [TextLines T] (lay : Layout T) (loc : Location) (start : Nat) : Row :=
  loc.rowBefore lay start (loc.next lay)

/-- All rows from a location on. -/
def rows [TextLines T] (lay : Layout T) (loc : Location) : List Row :=
  match _h : loc.start with
  | none => []
  | some start => loc.row lay start :: (loc.next lay).rows lay
termination_by loc.stepsLeft
decreasing_by exact stepsLeft_next_lt lay (by simp [finished, *])

/-- The location past the last row. -/
def last (lay : Layout T) (loc : Location) : Location :=
  match _h : loc.start with
  | none => loc
  | some _ => (loc.next lay).last lay
termination_by loc.stepsLeft
decreasing_by exact stepsLeft_next_lt lay (by simp [finished, *])

end Location

end RowLayout
