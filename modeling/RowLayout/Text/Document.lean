import RowLayout.Text.Line

/-!
# Documents

A document is a text together with its lines and their places. Places are offsets, counted in
characters. Questions about a line past the last one are answered with the length of the text,
and offsets past the text are taken as its end, so every question has an answer.

## Main definitions

* `Span` — where the content of a line begins and stops
* `Document` — a text with its lines and their spans, kept beside it
* `Document.lineStart`, `lineStop`, `lineText`, `lineOf` — looking up lines and offsets
-/

namespace RowLayout

/-- The place of a line's content: the offset of its first character, and the offset just past
its last character that is not part of the line break. -/
structure Span where
  start : Nat
  stop : Nat
deriving DecidableEq, Repr, Inhabited

/-- The spans of consecutive lines, the first of them starting at `start`. -/
def spansFrom (start : Nat) : List Line → List Span
  | [] => []
  | l :: rest =>
    let stop := start + l.text.length
    ⟨start, stop⟩ :: spansFrom (stop + l.ending.length) rest

@[simp]
theorem length_spansFrom (start : Nat) (lines : List Line) :
    (spansFrom start lines).length = lines.length := by
  induction lines generalizing start with
  | nil => rfl
  | cons l rest ih => simp [spansFrom, ih]

/-- A text whose lines are known. Lines, spans and length are functions of the text, kept so that
looking one up does not read the text again. -/
structure Document where
  text : List Char
  lines : List Line
  spans : List Span
  length : Nat
  lines_eq : lines = splitLines text
  spans_eq : spans = spansFrom 0 lines
  length_eq : length = text.length
deriving DecidableEq, Repr

namespace Document

/-- The document of a text. -/
def ofText (text : List Char) : Document :=
  let lines := splitLines text
  ⟨text, lines, spansFrom 0 lines, text.length, rfl, rfl, rfl⟩

/-- The document of a string. -/
def ofString (text : String) : Document := ofText text.toList

instance : Inhabited Document := ⟨ofText []⟩

/-- A document is known by its text. -/
theorem eq_ofText (d : Document) : d = ofText d.text := by
  obtain ⟨text, lines, spans, length, rfl, rfl, rfl⟩ := d
  rfl

/-- How many lines there are; at least one. -/
def lineCount (d : Document) : Nat := d.spans.length

/-- The offset at which a line starts, or the length of the text past the last line. -/
def lineStart (d : Document) (line : Nat) : Nat :=
  match d.spans[line]? with
  | some span => span.start
  | none => d.length

/-- The offset just past a line's content, or the length of the text past the last line. -/
def lineStop (d : Document) (line : Nat) : Nat :=
  match d.spans[line]? with
  | some span => span.stop
  | none => d.length

/-- What a line shows, if there is such a line. -/
def lineText (d : Document) (line : Nat) : Option (List Char) := d.lines[line]?.map Line.text

/-- The line that holds an offset: the last one that starts at or before it. The break that ends
a line is held by that line. -/
def lineOf (d : Document) (offset : Nat) : Nat :=
  (d.spans.takeWhile fun span => span.start ≤ min offset d.length).length - 1

/-- The starts of the lines after `line`. -/
def startsAfter (d : Document) (line : Nat) : List Nat :=
  (d.spans.drop (line + 1)).map Span.start

theorem lineCount_pos (d : Document) : 0 < d.lineCount := by
  have h := splitLines_ne_nil d.text
  rw [← d.lines_eq] at h
  rw [lineCount, d.spans_eq, length_spansFrom]
  exact List.length_pos_iff.mpr h

end Document

end RowLayout
