import RowLayout.Json.Number
import RowLayout.Settings.Field
import RowLayout.Text.Quoted

/-!
# Why settings cannot be read

A document is refused because of its form, because it has a value of the wrong type or size, or
because it gives settings that a layout cannot work with. Of the last two it is said what was
found and what was expected.

## Main definitions

* `Found`, `Expected` — what was found, and what should have been
* `ReadError` — why a document cannot be read, and `ReadError.message`
* `SettingsError` — why no settings come of a document
-/

namespace RowLayout

/-- What stands in a document. -/
inductive Found where
  | null
  | boolean (b : Bool)
  | number (n : Json.Number)
  | string (text : List Char)
  | list
  | object
  /-- A name alone, where a name with a value was needed. -/
  | bareName

namespace Found

/-- What is said about something found. -/
def text : Found → String
  | null => "null"
  | boolean b => s!"boolean `{b}`"
  | number (.float negative x) => s!"floating point `{(Json.Number.float negative x).text}`"
  | number n => s!"integer `{n.text}`"
  | string s => "string " ++ quoted s
  | list => "sequence"
  | object => "map"
  | bareName => "unit variant"

end Found

/-- What a place in a document should hold. -/
inductive Expected where
  /-- The settings as a whole. -/
  | settings
  /-- A whole number of 32 bits. -/
  | height
  /-- A whole number of 64 bits. -/
  | width
  /-- Nothing, behind the name of a variant that has no value. -/
  | nothing
  /-- A name with a value. -/
  | nameWithValue
deriving DecidableEq, Repr

namespace Expected

/-- What is said about something expected. -/
def text : Expected → String
  | settings => "struct ViewConfig"
  | height => "u32"
  | width => "usize"
  | nothing => "unit"
  | nameWithValue => "newtype variant"

end Expected

/-- Why a document cannot be read as settings. -/
inductive ReadError where
  /-- The form of the document is wrong. -/
  | form (fault : Json.Fault)
  /-- A value has the wrong type. -/
  | invalidType (found : Found) (expected : Expected)
  /-- A number is out of range. -/
  | invalidValue (found : Found) (expected : Expected)
  /-- A name is none of those known. -/
  | unknownVariant (name : List Char) (known : List String)
  /-- A field is given twice. -/
  | duplicateField (field : Field)

namespace ReadError

/-- A name as it stands in a message. -/
def named (name : String) : String := s!"`{name}`"

/-- What is said about a document that was read up to something wrong in it. Nothing is said about
a wrong form. -/
def detail? : ReadError → Option String
  | form _ => none
  | invalidType found expected =>
    some s!"invalid type: {found.text}, expected {expected.text}"
  | invalidValue found expected =>
    some s!"invalid value: {found.text}, expected {expected.text}"
  | unknownVariant name known =>
    let options := String.intercalate ", " (known.map named)
    some s!"unknown variant {named (String.ofList name)}, expected one of {options}"
  | duplicateField field => some s!"duplicate field {named field.name}"

/-- The message about a document, where something is said about it. -/
def message? (e : ReadError) : Option String :=
  e.detail?.map ("configuration parse error: " ++ ·)

end ReadError

/-- Why no settings come of a document. -/
inductive SettingsError where
  /-- The document cannot be read. -/
  | unreadable (error : ReadError)
  /-- The settings cannot be used. -/
  | invalid (error : LayoutError)

end RowLayout
