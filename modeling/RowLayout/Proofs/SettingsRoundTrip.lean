import RowLayout.Proofs.SettingsDocuments

/-!
# Settings read back

Settings are written as an object with all fields in their order, each with its value in the form that
is usual. That is one of the ways in which a document may give them.

A document that was written has every field once. Reading it starts from the usual settings and
overwrites every one of them, so they leave no trace, and what is left to go wrong is only that
settings cannot be used.

## Main definitions

* `Setting.value`, `Setting.tokens` — a setting as it is written, and its member in tokens
* `Settings.all` — the settings one by one

## Main results

* `Setting.writtenAs_value` — the value of a setting is written as one that may stand in a document
* `Settings.givenBy_compact` — a document of settings gives these, in its order
* `Settings.read_text` — settings that are written are read back, if they can be used
-/

namespace RowLayout

open Json (Token Value StringLexeme)

/-! ### Settings as members -/

namespace Setting

/-- A setting as the value of its field. -/
def value : Setting → Value
  | lineHeight height => .number height.toNat
  | viewportWidth width => .number width.toNat
  | tabWidth width => .number width.toNat
  | wrapMode mode => mode.value
  | wrapIndent indent => indent.value

/-- A setting as a member of an object. -/
def member (x : Setting) : List Char × Value := (x.field.name.toList, x.value)

/-- The tokens of the member. -/
def tokens (x : Setting) : List Token :=
  .string (.written x.field.name.toList) :: .colon :: x.value.tokens

/-- **The value of a setting is written as one** that may stand in a document. -/
theorem writtenAs_value (x : Setting) : x.WrittenAs x.value.tokens := by
  cases x with
  | lineHeight height => exact .lineHeight height
  | viewportWidth width => exact .viewportWidth width
  | tabWidth width => exact .tabWidth width
  | wrapMode mode => exact .name rfl (StringLexeme.text_written mode.name.toList)
  | wrapIndent indent =>
    cases indent with
    | none => exact .name rfl (StringLexeme.text_written IndentKind.none.name.toList)
    | sameAsLine => exact .name rfl (StringLexeme.text_written IndentKind.sameAsLine.name.toList)
    | fixedCells cells =>
      exact .fixedCells cells (StringLexeme.text_written IndentKind.fixedCells.name.toList)

/-- Settings that are written as members are given by them. -/
theorem gives_tokens (xs : List Setting) : Gives (xs.map tokens) xs := by
  induction xs with
  | nil => exact .nil
  | cons x xs ih => exact .setting (StringLexeme.text_written _) x.writtenAs_value ih

theorem tokensOfMembers_map (xs : List Setting) :
    Value.tokensOfMembers (xs.map member) = xs.map tokens := by
  induction xs with
  | nil => rfl
  | cons x xs ih => rw [List.map_cons, List.map_cons, ← ih]; rfl

end Setting

namespace Settings

/-- The settings one by one, in the order of the fields. -/
def all (s : Settings) : List Setting := Field.all.map s.setting

theorem value_eq (s : Settings) : s.value = .object (s.all.map Setting.member) := rfl

theorem map_field_all (s : Settings) : s.all.map Setting.field = Field.all := rfl

/-- All settings together leave nothing of those that they are put in place of. -/
theorem overwrite_all (s usual : Settings) : usual.overwrite s.all = s := rfl

/-! ### Documents -/

/-- **A document of settings gives these, in its order,** if no field is given twice. -/
theorem givenBy_compact {xs : List Setting} (h : (xs.map Setting.field).Nodup) :
    givenBy (Value.object (xs.map Setting.member)).compact = .ok xs := by
  have hlex : Json.lex (Value.object (xs.map Setting.member)).compact =
      Json.objectTokens (xs.map Setting.tokens) := by
    have hread := Value.readAs_compact (.object (xs.map Setting.member)) [] Json.endsNumber_nil
    rwa [List.append_nil, Json.lex, List.append_nil, Value.tokens, Setting.tokensOfMembers_map]
      at hread
  have hreads := (Setting.gives_tokens xs).reads_object h
  rw [← hlex, Reads] at hreads
  rw [givenBy, Reader.run, hreads]
  rfl

/-- **Settings that are written are read back,** if they can be used: the reader takes the text of
any settings to these settings, or says that rows without height cannot be laid out. -/
theorem read_text (s : Settings) :
    read s.text.toList = if s.lineHeight = 0 then .error (.invalid .zeroLineHeight) else .ok s := by
  have hgiven : givenBy s.text.toList = .ok s.all := by
    rw [text, String.toList_ofList, value_eq]
    exact givenBy_compact (by rw [map_field_all]; decide)
  by_cases hzero : s.lineHeight = 0
  · have hinvalid : s.validate = .error .zeroLineHeight := if_pos hzero
    simp only [read, hgiven, overwrite_all, hinvalid, if_pos hzero]
  · have hvalid : s.validate = .ok () := if_neg hzero
    simp only [read, hgiven, overwrite_all, hvalid, if_neg hzero]

end Settings

end RowLayout
