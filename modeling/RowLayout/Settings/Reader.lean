import RowLayout.Json.Skip
import RowLayout.Settings.Content

/-!
# Reading settings

Settings are read from a document that is an object with some of the fields, in any order, or a
list of values for the first fields. The document is read token by token from left to right, and
the first thing that is wrong is what is reported. Members with other names are skipped.

A *reader* says what may come next and which settings have been given so far.

## Main definitions

* `Reader` — what may come next
* `Reader.step` — one token further
* `Settings.givenBy` — the settings that a text gives
* `Settings.read` — the usual settings with those a text gives, if they can be used
-/

namespace RowLayout

open Json (Token Skip)

/-- What a value is part of: an object, or a list in which values for the given fields may
follow. -/
inductive Surrounding where
  | object
  | list (later : List Field)
deriving DecidableEq, Repr

/-- What may come next in a document, and the settings given so far. -/
inductive Reader where
  /-- The document. -/
  | start
  /-- The first field name of an object, or its end. -/
  | firstName
  /-- A field name. -/
  | name (given : List Setting)
  /-- The colon behind a field name; there is no field if the name is not known. -/
  | colon (given : List Setting) (field : Option Field)
  /-- A value for a field. -/
  | value (given : List Setting) (around : Surrounding) (field : Field)
  /-- More of a value that is skipped. -/
  | skipping (given : List Setting) (skip : Skip)
  /-- The first value of a list, or its end. -/
  | firstValue
  /-- What follows a value. -/
  | behind (given : List Setting) (around : Surrounding)
  /-- The name of a variant, in an object. Only a string can be one. -/
  | variant (given : List Setting) (around : Surrounding) (choice : Choice)
  /-- The colon behind the name of a variant. -/
  | variantColon (given : List Setting) (around : Surrounding) (variant : Variant)
  /-- What belongs to a variant. -/
  | content (given : List Setting) (around : Surrounding) (variant : Variant)
  /-- The end of an object with a variant. -/
  | variantEnd (given : List Setting) (around : Surrounding)
  /-- Nothing. -/
  | done (given : List Setting)
deriving DecidableEq, Repr

namespace Reader

/-- A form error. -/
def malformed {α : Type} : Except ReadError α := .error (.form .malformed)

/-- The reader behind a value for a field. -/
def give (given : List Setting) (around : Surrounding) (setting : Setting) : Reader :=
  behind (given ++ [setting]) around

/-- A value for a setting that is chosen: the name of a variant, or an object with the name. -/
def readChoice (given : List Setting) (around : Surrounding) (choice : Choice) :
    Token → Except ReadError Reader
  | .string lexeme => do
    let chosen ← Variant.ofName choice (← lexeme.kept)
    return give given around (← chosen.bare)
  | .openBrace => .ok (variant given around choice)
  | _ => malformed

/-- A value for a field. -/
def readValue (given : List Setting) (around : Surrounding) (field : Field) (t : Token) :
    Except ReadError Reader :=
  match field with
  | .lineHeight => t.height.map fun h => give given around (.lineHeight h)
  | .viewportWidth => t.width.map fun w => give given around (.viewportWidth w)
  | .tabWidth => t.width.map fun w => give given around (.tabWidth w)
  | .wrapMode => readChoice given around .wrapMode t
  | .wrapIndent => readChoice given around .wrapIndent t

/-- A field name, which must not have been given before. -/
def readName (given : List Setting) : Token → Except ReadError Reader
  | .string lexeme => do
    let name ← lexeme.kept
    match Field.ofName? name with
    | none => return colon given none
    | some field =>
      if given.any (·.field = field) then throw (.duplicateField field)
      else return colon given (some field)
  | _ => malformed

/-- One token further. -/
def step : Reader → Token → Except ReadError Reader
  | start, .openBrace => .ok firstName
  | start, .openBracket => .ok firstValue
  | start, t => .error (t.mismatch .settings)
  | firstName, .closeBrace => .ok (done [])
  | firstName, t => readName [] t
  | name given, t => readName given t
  | colon given (some field), .colon => .ok (value given .object field)
  | colon given none, .colon => .ok (skipping given (.value []))
  | colon _ _, _ => malformed
  | value given around field, t => readValue given around field t
  | skipping given skip, t =>
    match skip.step t with
    | .ok (some more) => .ok (skipping given more)
    | .ok none => .ok (behind given .object)
    | .error fault => .error (.form fault)
  | firstValue, .closeBracket => .ok (done [])
  | firstValue, t => readValue [] (.list Field.all.tail) .lineHeight t
  | behind given .object, .comma => .ok (name given)
  | behind given .object, .closeBrace => .ok (done given)
  | behind given (.list (field :: later)), .comma => .ok (value given (.list later) field)
  | behind given (.list _), .closeBracket => .ok (done given)
  | behind _ _, _ => malformed
  | variant given around choice, .string lexeme => do
    let chosen ← Variant.ofName choice (← lexeme.kept)
    return variantColon given around chosen
  | variant _ _ _, _ => malformed
  | variantColon given around chosen, .colon => .ok (content given around chosen)
  | variantColon _ _ _, _ => malformed
  | content given around chosen, t => do
    let setting ← chosen.withContent t
    return variantEnd (given ++ [setting]) around
  | variantEnd given around, .closeBrace => .ok (behind given around)
  | variantEnd _ _, _ => malformed
  | done _, _ => malformed

/-- The settings given by a document of which nothing is left. -/
def finish : Reader → Except ReadError (List Setting)
  | done given => .ok given
  | _ => .error (.form .truncated)

/-- The settings given by a list of tokens. -/
def run (r : Reader) (tokens : List Token) : Except ReadError (List Setting) := do
  finish (← tokens.foldlM step r)

end Reader

/-! ### Documents -/

namespace Settings

/-- The settings that the text of a document gives, in the order in which it gives them. -/
def givenBy (text : List Char) : Except ReadError (List Setting) :=
  Reader.start.run (Json.lex text)

/-- The usual settings with those that the text of a document gives, if they can be used. -/
def read (text : List Char) : Except SettingsError Settings :=
  match givenBy text with
  | .error e => .error (.unreadable e)
  | .ok given =>
    let settings := overwrite {} given
    match settings.validate with
    | .ok () => .ok settings
    | .error e => .error (.invalid e)

end Settings

end RowLayout
