/-!
# Documents as values

What a document means: a value made from words, whole numbers, strings, lists and named members.
A value is written without any white space, the members of an object in the order given.

## Main definitions

* `Value` — the values that are written
* `Value.compact` — the text of a value
-/

namespace RowLayout.Json

/-- A value that can be written as a document. -/
inductive Value where
  | null
  | bool (b : Bool)
  | number (n : Nat)
  | string (s : List Char)
  | list (elements : List Value)
  | object (members : List (List Char × Value))

/-- A hexadecimal digit for each of the four places of a 16-bit unit. -/
def unitDigits (n : Nat) : List Char :=
  let digits := Nat.toDigits 16 n
  List.replicate (4 - digits.length) '0' ++ digits

/-- A character as it stands in a string. -/
def escapedChar (c : Char) : List Char :=
  match c with
  | '"' => ['\\', '"']
  | '\\' => ['\\', '\\']
  | '\x08' => ['\\', 'b']
  | '\x0c' => ['\\', 'f']
  | '\n' => ['\\', 'n']
  | '\r' => ['\\', 'r']
  | '\t' => ['\\', 't']
  | c => if c.toNat < 0x20 then ['\\', 'u'] ++ unitDigits c.toNat else [c]

/-- The text of a string. -/
def stringText (s : List Char) : List Char := '"' :: s.flatMap escapedChar ++ ['"']

/-- Texts with commas between them. -/
def commaSeparated (texts : List (List Char)) : List Char := [','].intercalate texts

namespace Value

mutual

/-- The text of a value, without white space. -/
def compact : Value → List Char
  | null => ['n', 'u', 'l', 'l']
  | bool true => ['t', 'r', 'u', 'e']
  | bool false => ['f', 'a', 'l', 's', 'e']
  | number n => Nat.toDigits 10 n
  | string s => stringText s
  | list elements => '[' :: commaSeparated (compactAll elements) ++ [']']
  | object members => '\x7b' :: commaSeparated (compactMembers members) ++ ['\x7d']

/-- The texts of several values. -/
def compactAll : List Value → List (List Char)
  | [] => []
  | v :: rest => compact v :: compactAll rest

/-- The texts of several members: the name, a colon and the value. -/
def compactMembers : List (List Char × Value) → List (List Char)
  | [] => []
  | (name, v) :: rest => (stringText name ++ ':' :: compact v) :: compactMembers rest

end

end Value

end RowLayout.Json
