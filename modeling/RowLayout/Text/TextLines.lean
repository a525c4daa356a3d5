import RowLayout.Text.Document

/-!
# Texts known by their lines

To lay out a text, only a few questions are asked of it: how many lines it has, where a line starts
and where its content stops, how long the text is, and on which line an offset lies. Whatever
answers them can be laid out, a document as well as a text that is kept elsewhere and in another
way.

## What is deliberately absent

Nothing is asked of the answers. They need not fit together, and an offset may be on a line that
there is not. What is proved of every layout holds for such texts too; results that need the lines
of a text to tile it are about documents.

## Main definitions

* `TextLines` — the questions that a layout asks of a text
-/

namespace RowLayout

/-- A text that answers questions about its lines. -/
class TextLines (T : Type) where
  /-- How many lines there are. -/
  lineCount : T → Nat
  /-- The offset at which a line starts. -/
  lineStart : T → Nat → Nat
  /-- The offset just past a line's content. -/
  lineStop : T → Nat → Nat
  /-- How many characters there are. -/
  length : T → Nat
  /-- The line that holds an offset. -/
  lineOf : T → Nat → Nat
  /-- The starts of the lines after one. This is no question of its own, but a text may know a
  shorter way to the answer than to ask for one line after the other. -/
  startsAfter : T → Nat → List Nat := fun text line =>
    (List.range' (line + 1) (lineCount text - (line + 1))).map (lineStart text)
  startsAfter_eq : ∀ (text : T) (line : Nat), startsAfter text line =
    (List.range' (line + 1) (lineCount text - (line + 1))).map (lineStart text) := by
      intros; rfl

namespace Document

theorem startsAfter_eq_map (d : Document) (line : Nat) :
    d.startsAfter line =
      (List.range' (line + 1) (d.lineCount - (line + 1))).map d.lineStart := by
  apply List.ext_getElem
  · simp [startsAfter, lineCount]
  · intro i hi _
    have hlt : line + 1 + i < d.spans.length := by
      simp only [startsAfter, List.length_map, List.length_drop] at hi
      omega
    simp [startsAfter, lineStart, List.getElem?_eq_getElem hlt]

instance : TextLines Document where
  lineCount := lineCount
  lineStart := lineStart
  lineStop := lineStop
  length := length
  lineOf := lineOf
  startsAfter := startsAfter
  startsAfter_eq := startsAfter_eq_map

end Document

/-! ### What a document answers -/

@[simp]
theorem TextLines.lineStop_document (d : Document) (line : Nat) :
    TextLines.lineStop d line = d.lineStop line := rfl

@[simp]
theorem TextLines.length_document (d : Document) : TextLines.length d = d.length := rfl

@[simp]
theorem TextLines.lineOf_document (d : Document) (offset : Nat) :
    TextLines.lineOf d offset = d.lineOf offset := rfl

@[simp]
theorem TextLines.startsAfter_document (d : Document) (line : Nat) :
    TextLines.startsAfter d line = d.startsAfter line := rfl

end RowLayout
