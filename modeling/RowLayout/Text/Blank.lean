/-!
# Blank characters

The White_Space property, after which a row may be broken, and the narrower notion of leading
blanks, which make up the indentation of a line.

## Main definitions

* `isBlank` — the White_Space property
* `isIndent` — the two characters that indent a line

## Main results

* `isBlank_of_isIndent` — whatever indents is blank
-/

namespace RowLayout

/-- Whether a character is white space. -/
def isBlank (c : Char) : Bool :=
  let n := c.toNat
  (9 ≤ n && n ≤ 13) || n == 0x20 || n == 0x85 || n == 0xA0 || n == 0x1680 ||
    (0x2000 ≤ n && n ≤ 0x200A) || n == 0x2028 || n == 0x2029 || n == 0x202F ||
    n == 0x205F || n == 0x3000

/-- Whether a character at the start of a line counts to its indentation. -/
def isIndent (c : Char) : Bool := c == ' ' || c == '\t'

theorem isBlank_of_isIndent {c : Char} (h : isIndent c = true) : isBlank c = true := by
  simp only [isIndent, Bool.or_eq_true, beq_iff_eq] at h
  obtain rfl | rfl := h <;> decide

end RowLayout
