/-!
# Records in text

Values are shown for debugging as a name and the names and values of the fields, in the form
`Name { field: value, … }`.

## Main definitions

* `recordText` — a record
* `optionText` — a value that may be missing
-/

namespace RowLayout

/-- A record with at least one field, each given by its name and the text of its value. -/
def recordText (name : String) (fields : List (String × String)) : String :=
  let shown := fields.map fun (field, value) => field ++ ": " ++ value
  name ++ " \x7b " ++ String.intercalate ", " shown ++ " \x7d"

/-- A number that may be missing. -/
def optionText : Option Nat → String
  | none => "None"
  | some n => s!"Some({n})"

end RowLayout
