import RowLayout.Json.Token
import RowLayout.Settings.ReadError

/-!
# What the values of settings hold

A height or a width is a whole number that fits its size; a wrap mode or an indentation is a
variant with a name. A value that is something else is refused with what was found in its place,
unless it has a fault of form of its own, which then counts.

## Main definitions

* `Token.found`, `Token.mismatch` — what stands in the wrong place
* `Token.height`, `Token.width` — whole numbers of 32 and 64 bits
* `Variant` — the variants, found by name, and the settings they give
-/

namespace RowLayout

open Json (Token Fault)

/-! ### Strings and numbers -/

/-- The characters of a string that is kept. -/
def Json.StringLexeme.kept (lexeme : StringLexeme) : Except ReadError (List Char) :=
  lexeme.text.mapError .form

namespace Json.Token

/-- The value of a number that is kept. -/
def keptNumber : Except Fault NumberLexeme → Except ReadError Number
  | .ok lexeme => lexeme.value.mapError .form
  | .error fault => .error (.form fault)

/-- What a value is found to be that is not what was expected. -/
def found : Token → Except ReadError Found
  | .word (.ok .null) => .ok .null
  | .word (.ok .true) => .ok (.boolean true)
  | .word (.ok .false) => .ok (.boolean false)
  | .word (.error fault) => .error (.form fault)
  | .string lexeme => lexeme.kept.map .string
  | .number lexeme => (keptNumber lexeme).map .number
  | .openBracket => .ok .list
  | .openBrace => .ok .object
  | _ => .error (.form .malformed)

/-- The error of a value that is not what was expected. -/
def mismatch (t : Token) (expected : Expected) : ReadError :=
  match t.found with
  | .ok found => .invalidType found expected
  | .error e => e

/-- A number as a whole number from zero to a limit. -/
def upTo (limit : Nat) (expected : Expected) : Number → Except ReadError Nat
  | .natural n =>
    if n ≤ limit then .ok n else .error (.invalidValue (.number (.natural n)) expected)
  | .minus n => .error (.invalidValue (.number (.minus n)) expected)
  | .float negative x => .error (.invalidType (.number (.float negative x)) expected)

/-- A whole number from zero to a limit. An integer beyond is out of range, and a float is
something else. -/
def wholeNumber (t : Token) (limit : Nat) (expected : Expected) : Except ReadError Nat :=
  match t with
  | .number lexeme => (keptNumber lexeme).bind (upTo limit expected)
  | t => .error (t.mismatch expected)

/-- A height: a whole number of 32 bits. -/
def height (t : Token) : Except ReadError UInt32 :=
  (t.wholeNumber maxPixels .height).map UInt32.ofNat

/-- A width: a whole number of 64 bits. -/
def width (t : Token) : Except ReadError UInt64 :=
  (t.wholeNumber maxCells .width).map UInt64.ofNat

end Json.Token

/-! ### Variants -/

/-- The settings that are chosen from variants with names. -/
inductive Choice where
  | wrapMode
  | wrapIndent
deriving DecidableEq, Repr

/-- A variant of one of these settings. -/
inductive Variant where
  | mode (mode : WrapMode)
  | indent (kind : IndentKind)
deriving DecidableEq, Repr

/-- The wrap mode with a name. -/
def WrapMode.ofName (name : List Char) : Except ReadError WrapMode :=
  match all.find? (·.name.toList = name) with
  | some mode => .ok mode
  | .none => .error (.unknownVariant name (all.map WrapMode.name))

/-- The kind of indentation with a name. -/
def IndentKind.ofName (name : List Char) : Except ReadError IndentKind :=
  match all.find? (·.name.toList = name) with
  | some kind => .ok kind
  | .none => .error (.unknownVariant name (all.map IndentKind.name))

/-- The variant with a name. -/
def Variant.ofName (choice : Choice) (name : List Char) : Except ReadError Variant :=
  match choice with
  | .wrapMode => (WrapMode.ofName name).map .mode
  | .wrapIndent => (IndentKind.ofName name).map .indent

/-- The setting of a variant without a value. -/
def Variant.bare : Variant → Except ReadError Setting
  | mode m => .ok (.wrapMode m)
  | indent .none => .ok (.wrapIndent .none)
  | indent .sameAsLine => .ok (.wrapIndent .sameAsLine)
  | indent .fixedCells => .error (.invalidType .bareName .nameWithValue)

/-- The setting of a variant with what is written behind its name: a number of cells where there
is one to give, and nothing otherwise. -/
def Variant.withContent (variant : Variant) (t : Token) : Except ReadError Setting :=
  match variant with
  | .indent .fixedCells => t.width.map fun cells => .wrapIndent (.fixedCells cells)
  | other =>
    match t with
    | .word (.ok .null) => other.bare
    | t => .error (t.mismatch .nothing)

end RowLayout
