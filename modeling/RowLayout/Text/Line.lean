/-!
# Logical lines

A text is cut into lines at its line breaks. A line break is one character, except that a
carriage return and the line feed after it are one break of two characters.

The cut is built from the back of the text to the front, so that it is one fold: a character put
in front of a text either breaks off an empty line, joins the break it stands before, or becomes
the first character of the first line.

## Main definitions

* `isLineBreak` — the characters that end a line
* `Line` — what a line shows, and the break that ends it
* `splitLines` — the lines of a text, never an empty list

## Main results

* `flatten_splitLines` — the lines and their breaks, put together again, are the text
* `splitLines_ne_nil` — every text has a line
-/

namespace RowLayout

/-- The characters that end a line: line feed, vertical tab, form feed, carriage return, next
line, line separator and paragraph separator. -/
def isLineBreak (c : Char) : Bool :=
  c == '\n' || c == '\x0b' || c == '\x0c' || c == '\r' || c == '\u0085' ||
    c == '\u2028' || c == '\u2029'

/-- A logical line: the characters it shows, and the line break that ends it. Only the last line
of a text has an empty ending. -/
structure Line where
  text : List Char
  ending : List Char
deriving DecidableEq, Repr, Inhabited

namespace Line

/-- A line that shows nothing and is not ended. -/
def blank : Line := ⟨[], []⟩

/-- The characters of the line, its break included. -/
def chars (l : Line) : List Char := l.text ++ l.ending

/-- Whether a carriage return put in front would only make a longer break. -/
def isLoneLineFeed (l : Line) : Bool := l.text.isEmpty && l.ending == ['\n']

end Line

/-- The lines of a text with one more character in front of it. -/
def consChar (c : Char) : List Line → List Line
  | [] => [⟨[c], []⟩]
  | l :: rest =>
    if c == '\r' && l.isLoneLineFeed then ⟨[], [c, '\n']⟩ :: rest
    else if isLineBreak c then ⟨[], [c]⟩ :: l :: rest
    else ⟨c :: l.text, l.ending⟩ :: rest

/-- The lines of a text. A text that ends with a line break has an empty last line. -/
def splitLines (text : List Char) : List Line := text.foldr consChar [Line.blank]

theorem splitLines_nil : splitLines [] = [Line.blank] := rfl

theorem splitLines_cons (c : Char) (text : List Char) :
    splitLines (c :: text) = consChar c (splitLines text) := rfl

theorem consChar_ne_nil (c : Char) (lines : List Line) : consChar c lines ≠ [] := by
  cases lines with
  | nil => simp [consChar]
  | cons l rest =>
    simp only [consChar]
    split
    · simp
    · split <;> simp

/-- Every text has at least one line. -/
theorem splitLines_ne_nil (text : List Char) : splitLines text ≠ [] := by
  cases text with
  | nil => simp [splitLines_nil]
  | cons c text => exact consChar_ne_nil c _

theorem flatMap_consChar (c : Char) (lines : List Line) :
    (consChar c lines).flatMap Line.chars = c :: lines.flatMap Line.chars := by
  cases lines with
  | nil => simp [consChar, Line.chars]
  | cons l rest =>
    simp only [consChar]
    split
    · next h =>
      simp only [Bool.and_eq_true, Line.isLoneLineFeed, List.isEmpty_iff, beq_iff_eq] at h
      simp [Line.chars, h.2.1, h.2.2]
    · split <;> simp [Line.chars]

/-- Nothing of a text is lost by cutting it into lines. -/
theorem flatten_splitLines (text : List Char) : (splitLines text).flatMap Line.chars = text := by
  induction text with
  | nil => rfl
  | cons c text ih => rw [splitLines_cons, flatMap_consChar, ih]

end RowLayout
