import RowLayout.Text.RangeTree
import RowLayout.Text.UnshownTable

/-!
# Quoted text

Text in messages stands between double quotes. Quotes, backslashes and the common controls are
written with a backslash, and every other character that would leave no mark by its number.

## Main definitions

* `isUnshown` — the characters written by their number
* `quotedChar`, `quoted` — a character and a text as they stand in a message
-/

namespace RowLayout

/-- The search tree of the characters that are not shown. -/
def unshownTree : RangeTree Unit :=
  RangeTree.ofList (unshownRanges.map fun (first, last) => ⟨first, last, ()⟩)

/-- Whether a character leaves no mark of its own. -/
def isUnshown (c : Char) : Bool := (unshownTree.find? c.toNat).isSome

/-- A character by its number, in as few hexadecimal digits as it takes. -/
def numberedChar (c : Char) : List Char :=
  ['\\', 'u', '\x7b'] ++ Nat.toDigits 16 c.toNat ++ ['\x7d']

/-- A character as it stands in a quoted text. -/
def quotedChar (c : Char) : List Char :=
  match c with
  | '\x00' => ['\\', '0']
  | '\t' => ['\\', 't']
  | '\n' => ['\\', 'n']
  | '\r' => ['\\', 'r']
  | '"' => ['\\', '"']
  | '\\' => ['\\', '\\']
  | c => if isUnshown c then numberedChar c else [c]

/-- A text between double quotes. -/
def quoted (text : List Char) : String := String.ofList ('"' :: text.flatMap quotedChar ++ ['"'])

end RowLayout
