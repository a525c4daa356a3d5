import RowLayout.Layout.Location

/-!
# Cursors

A cursor stands on one row of a layout and can move to the next. To tell where its row stops it
has to look at the next row; that look ahead is kept until the cursor moves, so that it is made at
most once a row.

A cursor that has moved past the last row refuses to move on and to tell anything about a row.

## Main definitions

* `Cursor` — a layout, a location in it, and the look ahead
* `Cursor.advance`, `Cursor.next?` — moving on
* `Cursor.row`, `Cursor.stop`, `Cursor.height`, … — asking about the current row
* `CursorStep`, `Cursor.step` — the uses of a cursor as values, and what they answer

## Main results

* `Cursor.advance_of_atEnd` — past the last row a cursor stays as it is
-/

namespace RowLayout

/-- A position among the rows of a layout. -/
structure Cursor (T : Type := Document) where
  layout : Layout T
  location : Location
  /-- The location of the next row, if it has been asked for since the cursor moved. -/
  lookahead : Option Location
deriving DecidableEq, Repr

namespace Cursor

variable {T : Type}

/-- A cursor on the first row. -/
def atFirstRow [TextLines T] (lay : Layout T) : Cursor T := ⟨lay, .first lay, none⟩

/-- A cursor on the row with the given index, found by measures taken before. -/
def atRow [TextLines T] (lay : Layout T) (measures : Measures) (index : Nat) : Cursor T :=
  ⟨lay, .atRow lay measures index, none⟩

/-- Whether the cursor has moved past the last row. -/
def atEnd (c : Cursor T) : Bool := c.location.finished

/-- The offset at which the current row starts. -/
def start (c : Cursor T) : Except LayoutError Nat :=
  match c.location.start with
  | some start => .ok start
  | none => .error .iterationFinished

/-- A part of the current location, unless the cursor is at its end. -/
def peek {α : Type} (part : Location → α) (c : Cursor T) : Except LayoutError α :=
  if c.atEnd then .error .iterationFinished else .ok (part c.location)

/-! ### Looking ahead -/

/-- The location of the next row. -/
def following (c : Cursor T) : Location := c.lookahead.getD (c.location.next c.layout)

/-- The cursor once it has looked ahead. -/
def lookingAhead (c : Cursor T) : Cursor T := { c with lookahead := some c.following }

/-- What is known of the current row by looking ahead, and the cursor that has done so. -/
def ask [TextLines T] {α : Type} (part : Row → α) (c : Cursor T) :
    Except LayoutError α × Cursor T :=
  match c.location.start with
  | some start => (.ok (part (c.location.rowBefore c.layout start c.following)), c.lookingAhead)
  | none => (.error .iterationFinished, c)

/-- The offset just past the last character of the current row. -/
def stop [TextLines T] (c : Cursor T) : Except LayoutError Nat × Cursor T := c.ask Row.stop

/-- The height of the current row, its inline inlays included. -/
def height [TextLines T] (c : Cursor T) : Except LayoutError Nat × Cursor T := c.ask Row.height

/-- All there is to know about the current row. -/
def row [TextLines T] (c : Cursor T) : Except LayoutError Row × Cursor T := c.ask id

/-! ### Moving -/

/-- Move to the next row. -/
def advance (c : Cursor T) : Except LayoutError Unit × Cursor T :=
  if c.atEnd then (.error .iterationFinished, c)
  else (.ok (), { c with location := c.following, lookahead := none })

/-- Tell the current row and move on; at the end, nothing. -/
def next? [TextLines T] (c : Cursor T) : Option Row × Cursor T :=
  let told := c.row
  match told.1 with
  | .ok row => (some row, told.2.advance.2)
  | .error _ => (none, c)

/-- Tell all rows from the current one on, and move to the end. After the first of them the
cursor has no look ahead, so the rest is what a walk from its location finds. -/
def rest [TextLines T] (c : Cursor T) : List Row × Cursor T :=
  let next := c.next?
  match next.1 with
  | some row =>
    let after := next.2
    (row :: after.location.rows after.layout,
      { after with location := after.location.last after.layout })
  | none => ([], next.2)

theorem advance_of_atEnd {c : Cursor T} (h : c.atEnd = true) :
    c.advance = (.error .iterationFinished, c) := by
  simp [advance, h]

end Cursor

/-! ### Uses as values -/

/-- One use of a cursor. -/
inductive CursorStep where
  | atEnd
  | advance
  | tryAdvance
  | next
  | row
  | index
  | start
  | stop
  | line
  | wrapIndex
  | foldIndex
  | inlayIndex
  | y
  | height
  | rest
deriving DecidableEq, Repr

/-- What a use of a cursor answers. -/
inductive CursorAnswer where
  | flag (value : Bool)
  | moved
  | row (row : Row)
  | row? (row : Option Row)
  | number (value : Nat)
  | number? (value : Option Nat)
  | rows (rows : List Row)
  | refused (error : LayoutError)
deriving DecidableEq, Repr

namespace CursorAnswer

/-- The answer to a question that may be refused. -/
def ofExcept {α : Type} (answer : α → CursorAnswer) : Except LayoutError α → CursorAnswer
  | .ok value => answer value
  | .error e => .refused e

end CursorAnswer

namespace Cursor

open CursorAnswer in
/-- Carry out one use of a cursor. -/
def step {T : Type} [TextLines T] (c : Cursor T) : CursorStep → CursorAnswer × Cursor T
  | .atEnd => (flag c.atEnd, c)
  | .advance | .tryAdvance => let a := c.advance; (ofExcept (fun _ => moved) a.1, a.2)
  | .next => let a := c.next?; (row? a.1, a.2)
  | .row => let a := c.row; (ofExcept .row a.1, a.2)
  | .index => (ofExcept number (c.peek (·.index)), c)
  | .start => (ofExcept number c.start, c)
  | .stop => let a := c.stop; (ofExcept number a.1, a.2)
  | .line => (ofExcept number (c.peek (·.line)), c)
  | .wrapIndex => (ofExcept number? (c.peek (·.wraps.last?)), c)
  | .foldIndex => (ofExcept number (c.peek (·.folds.behind)), c)
  | .inlayIndex => (ofExcept number (c.peek (·.inlays.behind)), c)
  | .y => (ofExcept number (c.peek (·.y)), c)
  | .height => let a := c.height; (ofExcept number a.1, a.2)
  | .rest => let a := c.rest; (rows a.1, a.2)

end Cursor

end RowLayout
