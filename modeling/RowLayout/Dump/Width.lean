import RowLayout.Bounded

/-!
# A width on the command line

A width is written in decimal digits, perhaps with a plus sign in front, and fits 64 bits. The
text is read from left to right, and the first thing that is wrong is what is reported.

## Main definitions

* `WidthError` — what can be wrong
* `readWidth` — the width that a text stands for
-/

namespace RowLayout

/-- What can be wrong with a width. -/
inductive WidthError where
  /-- There is nothing. -/
  | empty
  /-- There is something that is no digit, or only a sign. -/
  | invalidDigit
  /-- The number has more than 64 bits. -/
  | overflow
deriving DecidableEq, Repr

namespace WidthError

/-- The name of what is wrong. -/
def name : WidthError → String
  | empty => "Empty"
  | invalidDigit => "InvalidDigit"
  | overflow => "PosOverflow"

/-- What is said about a width that cannot be read. -/
def message (e : WidthError) : String :=
  "Error: ParseIntError \x7b kind: " ++ e.name ++ " \x7d\n"

end WidthError

/-- One digit more of a width. -/
def addDigit (n : Nat) (c : Char) : Except WidthError Nat :=
  if c < '0' ∨ '9' < c then .error .invalidDigit
  else
    let m := n * 10 + (c.toNat - '0'.toNat)
    if m ≤ maxCells then .ok m else .error .overflow

/-- The width that a text stands for. -/
def readWidth : List Char → Except WidthError Nat
  | [] => .error .empty
  | ['+'] => .error .invalidDigit
  | '+' :: digits => digits.foldlM addDigit 0
  | digits => digits.foldlM addDigit 0

end RowLayout
