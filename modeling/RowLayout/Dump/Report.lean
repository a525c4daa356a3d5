import RowLayout.Dump.Width
import RowLayout.View.Edit

/-!
# A report of rows

The rows of a text, one to a line of the report: their index, top, height and line, the offsets
from where to where they reach, and what they show. A collapsed fold is shown by its placeholder.
The last line tells the height of all rows.

Without a text of its own the report is about a sample, in which some lines are folded and a block
inlay stands below the first line. Its width is then the usual one.

## Main definitions

* `sample` — the sample text
* `View.report` — the report of a view
* `dump` — the report of a text at a width
-/

namespace RowLayout

/-- The text that is reported on where no other is given. -/
def sample : String :=
  "fn main() \x7b\n" ++
  "    let message = \"a fairly long line that will wrap in a narrow viewport\";\n" ++
  "    if message.is_empty() \x7b\n" ++
  "        return;\n" ++
  "    \x7d\n" ++
  "    println!(\"\x7bmessage\x7d\");\n" ++
  "\x7d"

/-- The viewport width where no other is given, in cells. -/
def usualWidth : Nat := 32

/-! ### Columns -/

/-- A number at the right end of a column. -/
def flushRight (width n : Nat) : String :=
  let text := toString n
  String.ofList (List.replicate (width - text.length) ' ') ++ text

/-- A number at the left end of a column. -/
def flushLeft (width n : Nat) : String :=
  let text := toString n
  text ++ String.ofList (List.replicate (width - text.length) ' ')

/-! ### Rows -/

/-- A character as it stands in the report: a line feed has a sign of its own. -/
def shownChar (c : Char) : Char := if c = '\n' then '⏎' else c

/-- The characters of a document from one offset to another. -/
def Document.slice (d : Document) (start stop : Nat) : List Char :=
  (d.text.drop start).take (stop - start)

namespace View

/-- The fold that starts together with a row. -/
def foldAtRow? (v : View) (r : Row) : Option FoldRegion :=
  v.folds.outermost[r.foldIndex]?.filter fun fold => fold.start = r.start

/-- What a row shows: its text, or what is left of its first line and the placeholder of the fold
that starts with it. -/
def rowText (v : View) (r : Row) : String :=
  match v.foldAtRow? r with
  | some fold =>
    let head := v.document.slice r.start (min (v.document.lineStop r.line) r.stop)
    String.ofList head ++ " " ++ fold.placeholder
  | none => String.ofList ((v.document.slice r.start r.stop).map shownChar)

/-- The line of the report about a row. -/
def rowReport (v : View) (r : Row) : String :=
  flushRight 4 r.index ++ " y=" ++ flushLeft 5 r.y ++ " h=" ++ flushLeft 3 r.height ++
    " L" ++ flushLeft 4 r.line ++ " " ++ flushRight 5 r.start ++ ".." ++ flushLeft 5 r.stop ++
    " " ++ v.rowText r ++ "\n"

/-- The report of a view. -/
def report (v : View) : String :=
  String.join (v.rows.map v.rowReport) ++ s!"total height: {v.totalHeight}px\n"

end View

/-! ### Reports of texts -/

/-- The settings of a report at a width. -/
def reportSettings (width : Nat) : Settings :=
  { viewportWidth := UInt64.ofNat width, wrapMode := .word }

/-- The changes made to the sample: its inner block is folded, and an inlay stands below the first
line. -/
def sampleEdits (d : Document) : List ViewEdit :=
  [.foldLines 2 4 true, .addInlay (d.lineStop 0) 24 .block]

/-- The report of a text at a width. The sample gets its fold and inlay wherever it comes from. -/
def reportOf (text : String) (width : Nat) : String :=
  let view := View.fresh text.toList (reportSettings width)
  if text = sample then (view.afterAll (sampleEdits view.document)).report else view.report

/-- The report of a text at the width that is written down, or at the usual one. Without a text it
is about the sample, and always at the usual width. -/
def dump (text : Option String) (width : Option String) : Except WidthError String :=
  match text, width with
  | none, _ => .ok (reportOf sample usualWidth)
  | some text, none => .ok (reportOf text usualWidth)
  | some text, some written => (readWidth written.toList).map (reportOf text)

end RowLayout
