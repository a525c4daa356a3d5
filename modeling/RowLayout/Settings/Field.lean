import RowLayout.Json.Value
import RowLayout.Settings.Basic

/-!
# Settings by name

Each setting has a field, a name in documents, and a place in the order of fields. A document
gives some of the settings; those it does not give keep their usual values.

## Main definitions

* `Field` — the fields, in order, and their names
* `Setting` — a field with a value for it
* `Settings.overwrite` — settings with some of them given anew
* `Settings.value` — settings as a document
-/

namespace RowLayout

/-- The fields of the settings, in order. -/
inductive Field where
  | lineHeight
  | viewportWidth
  | tabWidth
  | wrapMode
  | wrapIndent
deriving DecidableEq, Repr

namespace Field

/-- All fields, in order. -/
def all : List Field := [lineHeight, viewportWidth, tabWidth, wrapMode, wrapIndent]

/-- The name of a field in a document. -/
def name : Field → String
  | lineHeight => "line_height"
  | viewportWidth => "viewport_width"
  | tabWidth => "tab_width"
  | wrapMode => "wrap_mode"
  | wrapIndent => "wrap_indent"

/-- The field with a name. -/
def ofName? (name : List Char) : Option Field := all.find? (·.name.toList = name)

end Field

/-- A value for one of the settings. -/
inductive Setting where
  | lineHeight (height : UInt32)
  | viewportWidth (width : UInt64)
  | tabWidth (width : UInt64)
  | wrapMode (mode : WrapMode)
  | wrapIndent (indent : WrapIndent)
deriving DecidableEq, Repr

/-- The field that a value is for. -/
def Setting.field : Setting → Field
  | lineHeight _ => .lineHeight
  | viewportWidth _ => .viewportWidth
  | tabWidth _ => .tabWidth
  | wrapMode _ => .wrapMode
  | wrapIndent _ => .wrapIndent

namespace Settings

/-- The settings with one of them given anew. -/
def set (s : Settings) : Setting → Settings
  | .lineHeight height => { s with lineHeight := height }
  | .viewportWidth width => { s with viewportWidth := width }
  | .tabWidth width => { s with tabWidth := width }
  | .wrapMode mode => { s with wrapMode := mode }
  | .wrapIndent indent => { s with wrapIndent := indent }

/-- The settings with some of them given anew, one after the other. -/
def overwrite (s : Settings) (given : List Setting) : Settings := given.foldl set s

end Settings

/-! ### Names of variants -/

/-- The wrap modes, in order. -/
def WrapMode.all : List WrapMode := [.none, .char, .word]

/-- The name of a wrap mode in a document. -/
def WrapMode.name : WrapMode → String
  | none => "none"
  | char => "char"
  | word => "word"

/-- The kinds of indentation. -/
inductive IndentKind where
  | none
  | sameAsLine
  | fixedCells
deriving DecidableEq, Repr

/-- The kinds of indentation, in order. -/
def IndentKind.all : List IndentKind := [.none, .sameAsLine, .fixedCells]

/-- The name of a kind of indentation in a document. -/
def IndentKind.name : IndentKind → String
  | none => "none"
  | sameAsLine => "same_as_line_indent"
  | fixedCells => "fixed_cells"

/-! ### Settings as a document -/

open Json (Value)

/-- A name as a value. -/
def nameValue (name : String) : Value := .string name.toList

/-- A wrap mode as a value. -/
def WrapMode.value (mode : WrapMode) : Value := nameValue mode.name

/-- An indentation as a value: a name, or for a number of cells an object with the name. -/
def WrapIndent.value : WrapIndent → Value
  | none => nameValue IndentKind.none.name
  | sameAsLine => nameValue IndentKind.sameAsLine.name
  | fixedCells cells => .object [(IndentKind.fixedCells.name.toList, .number cells.toNat)]

namespace Settings

/-- The value of a field. -/
def fieldValue (s : Settings) : Field → Value
  | .lineHeight => .number s.lineHeight.toNat
  | .viewportWidth => .number s.viewportWidth.toNat
  | .tabWidth => .number s.tabWidth.toNat
  | .wrapMode => s.wrapMode.value
  | .wrapIndent => s.wrapIndent.value

/-- Settings as an object with all fields in order. -/
def value (s : Settings) : Value :=
  .object (Field.all.map fun f => (f.name.toList, s.fieldValue f))

/-- Settings as the text of a document. -/
def text (s : Settings) : String := String.ofList s.value.compact

end Settings

end RowLayout
