import RowLayout.Proofs.SkippedValues
import RowLayout.Proofs.WrittenValues
import RowLayout.Settings.Reader

/-!
# Documents of settings

The reader of settings goes through a document token by token, and what it has been given so far is
part of what it expects next. A member that gives a setting takes it from one field name to what
follows the value, with one setting more; a member with another name takes it there with none more,
whatever its value is. So it collects the settings of a document in the order in which they stand, as
long as no field is given twice.

The settings that come of this are the usual ones, overwritten by those that were given. No two of
these are for one field, so their order makes no difference.

## Main definitions

* `Reads` — tokens take a reader from what it expects to what it expects then
* `Setting.WrittenAs` — the ways in which the value of a setting may stand in a document
* `Gives` — the members of an object, and the settings that they give

## Main results

* `Setting.WrittenAs.reads` — the value of a setting gives that setting
* `Gives.reads_object`, `reads_list` — objects and lists give their settings
* `Settings.setting_overwrite_of_mem`, `setting_overwrite_of_notMem` — what becomes of a field
* `Settings.documents_overwrite_defaults` — the settings that come of a document
-/

namespace RowLayout

open Json (Token Tree Skip StringLexeme NumberLexeme)

/-! ### What is kept of a token -/

namespace Json

theorem StringLexeme.kept_eq {lexeme : StringLexeme} {s : List Char} (h : lexeme.text = .ok s) :
    lexeme.kept = .ok s := by
  rw [kept, h]
  rfl

theorem Token.wholeNumber_written {n limit : Nat} (h : n ≤ limit) (hlimit : limit ≤ maxDigits)
    (expected : Expected) :
    (Token.number (.ok (.written n))).wholeNumber limit expected = .ok n := by
  have hvalue := NumberLexeme.value_written (Nat.le_trans h hlimit)
  simp only [wholeNumber, keptNumber, hvalue, Except.mapError, Except.bind, upTo, if_pos h]

theorem Token.height_written (height : UInt32) :
    (Token.number (.ok (.written height.toNat))).height = .ok height := by
  have hle : height.toNat ≤ maxPixels := Nat.le_of_lt_succ height.toNat_lt
  rw [Token.height, wholeNumber_written hle (by decide)]
  simp [Except.map]

theorem Token.width_written (width : UInt64) :
    (Token.number (.ok (.written width.toNat))).width = .ok width := by
  have hle : width.toNat ≤ maxCells := Nat.le_of_lt_succ width.toNat_lt
  rw [Token.width, wholeNumber_written hle (by decide)]
  simp [Except.map]

end Json

/-! ### Reading on -/

/-- The tokens take a reader from one expectation to another. -/
def Reads (r : Reader) (tokens : List Token) (s : Reader) : Prop :=
  tokens.foldlM Reader.step r = .ok s

namespace Reads

variable {r s q : Reader} {t : Token} {tokens tokens' : List Token} {given : List Setting}

theorem nil (r : Reader) : Reads r [] r := rfl

theorem cons (h : r.step t = .ok s) (hrest : Reads s tokens q) : Reads r (t :: tokens) q := by
  rw [Reads, List.foldlM_cons, h]
  exact hrest

theorem append (h : Reads r tokens s) (h' : Reads s tokens' q) : Reads r (tokens ++ tokens') q := by
  rw [Reads] at h h' ⊢
  rw [List.foldlM_append, h]
  exact h'

theorem single (h : r.step t = .ok s) : Reads r [t] s := cons h (nil s)

/-- A value that is skipped leads to what follows a member, with nothing more given. -/
theorem skipped {skip : Skip} (h : skip.Passes tokens none) :
    Reads (.skipping given skip) tokens (.behind given .object) := by
  generalize hend : (none : Option Skip) = reached at h
  induction h with
  | @last skip t r hstep =>
    subst hend
    refine single ?_
    simp only [Reader.step, hstep]
  | @more skip skip' t tokens r hstep _ ih =>
    refine cons (s := .skipping given skip') ?_ (ih hend)
    simp only [Reader.step, hstep]

end Reads

/-! ### The value of a setting -/

namespace Setting

variable {x : Setting} {given : List Setting} {around : Surrounding} {tokens : List Token}

/-- The name of a setting that is a variant without a value. -/
def variantName? : Setting → Option String
  | wrapMode mode => some mode.name
  | wrapIndent .none => some IndentKind.none.name
  | wrapIndent .sameAsLine => some IndentKind.sameAsLine.name
  | _ => none

/-- The tokens in which the value of a setting may stand in a document: a height or a width is a
number, a variant is its name, alone or with nothing behind it, and an indentation by a number of
cells is its name with that number. -/
inductive WrittenAs : Setting → List Token → Prop
  | lineHeight (height : UInt32) :
    WrittenAs (.lineHeight height) [.number (.ok (.written height.toNat))]
  | viewportWidth (width : UInt64) :
    WrittenAs (.viewportWidth width) [.number (.ok (.written width.toNat))]
  | tabWidth (width : UInt64) : WrittenAs (.tabWidth width) [.number (.ok (.written width.toNat))]
  | name {x : Setting} {name : String} {lexeme : StringLexeme}
    (hvariant : x.variantName? = some name) (hname : lexeme.text = .ok name.toList) :
    WrittenAs x [.string lexeme]
  | nameWithNull {x : Setting} {name : String} {lexeme : StringLexeme}
    (hvariant : x.variantName? = some name) (hname : lexeme.text = .ok name.toList) :
    WrittenAs x [.openBrace, .string lexeme, .colon, .word (.ok .null), .closeBrace]
  | fixedCells (cells : UInt64) {lexeme : StringLexeme}
    (hname : lexeme.text = .ok IndentKind.fixedCells.name.toList) :
    WrittenAs (.wrapIndent (.fixedCells cells))
      [.openBrace, .string lexeme, .colon, .number (.ok (.written cells.toNat)), .closeBrace]

/-- A variant without a value is found by its name, and gives its setting. -/
theorem exists_variant {name : String} (h : x.variantName? = some name) :
    ∃ choice v, Variant.ofName choice name.toList = .ok v ∧ v.bare = .ok x ∧
      v.withContent (.word (.ok .null)) = .ok x ∧
      ∀ given around, Reader.readValue given around x.field =
        Reader.readChoice given around choice := by
  cases x with
  | lineHeight height => cases h
  | viewportWidth width => cases h
  | tabWidth width => cases h
  | wrapMode mode =>
    obtain rfl := Option.some.inj h
    refine ⟨.wrapMode, .mode mode, ?_, rfl, rfl, fun _ _ => rfl⟩
    cases mode <;> rfl
  | wrapIndent indent =>
    cases indent with
    | none =>
      obtain rfl := Option.some.inj h
      exact ⟨.wrapIndent, .indent .none, rfl, rfl, rfl, fun _ _ => rfl⟩
    | sameAsLine =>
      obtain rfl := Option.some.inj h
      exact ⟨.wrapIndent, .indent .sameAsLine, rfl, rfl, rfl, fun _ _ => rfl⟩
    | fixedCells cells => cases h

/-- A height is a number. -/
theorem WrittenAs.exists_number (h : x.WrittenAs tokens) (hfield : x.field = .lineHeight) :
    ∃ l, tokens = [.number l] := by
  have hname : x.variantName? = Option.none := by
    cases x with
    | lineHeight height => rfl
    | _ => cases hfield
  cases h with
  | lineHeight height => exact ⟨_, rfl⟩
  | viewportWidth width => cases hfield
  | tabWidth width => cases hfield
  | name hvariant _ => exact absurd (hname.symm.trans hvariant) (by simp)
  | nameWithNull hvariant _ => exact absurd (hname.symm.trans hvariant) (by simp)
  | fixedCells cells _ => cases hfield

/-- The name of a variant is read, and then what belongs to it. -/
theorem reads_variant {choice : Choice} {v : Variant} {name : List Char} {lexeme : StringLexeme}
    {content : Token} (hname : lexeme.text = .ok name) (hv : Variant.ofName choice name = .ok v)
    (hcontent : v.withContent content = .ok x) :
    Reads (.variant given around choice) [.string lexeme, .colon, content, .closeBrace]
      (.behind (given ++ [x]) around) := by
  have hvariant : Reader.step (.variant given around choice) (.string lexeme) =
      .ok (.variantColon given around v) := by
    simp only [Reader.step, StringLexeme.kept_eq hname, bind, Except.bind, hv]
    rfl
  have hsetting : Reader.step (.content given around v) content =
      .ok (.variantEnd (given ++ [x]) around) := by
    simp only [Reader.step, hcontent]
    rfl
  refine Reads.cons hvariant ?_
  refine Reads.cons (s := .content given around v) rfl ?_
  exact Reads.cons hsetting (Reads.single rfl)

/-- **The value of a setting gives that setting.** -/
theorem WrittenAs.reads (h : x.WrittenAs tokens) (given : List Setting) (around : Surrounding) :
    Reads (.value given around x.field) tokens (.behind (given ++ [x]) around) := by
  cases h with
  | lineHeight height =>
    refine Reads.single ?_
    simp only [Reader.step, field, Reader.readValue, Token.height_written]
    rfl
  | viewportWidth width =>
    refine Reads.single ?_
    simp only [Reader.step, field, Reader.readValue, Token.width_written]
    rfl
  | tabWidth width =>
    refine Reads.single ?_
    simp only [Reader.step, field, Reader.readValue, Token.width_written]
    rfl
  | name hvariant hname =>
    obtain ⟨choice, v, hv, hbare, -, hread⟩ := exists_variant hvariant
    refine Reads.single ?_
    simp only [Reader.step, hread, Reader.readChoice, StringLexeme.kept_eq hname, hv, hbare, bind,
      Except.bind]
    rfl
  | nameWithNull hvariant hname =>
    obtain ⟨choice, v, hv, -, hcontent, hread⟩ := exists_variant hvariant
    refine Reads.cons (s := .variant given around choice) ?_ (reads_variant hname hv hcontent)
    simp only [Reader.step, hread, Reader.readChoice]
  | fixedCells cells hname =>
    refine Reads.cons (s := .variant given around .wrapIndent) rfl ?_
    refine reads_variant (v := .indent .fixedCells) hname rfl ?_
    simp only [Variant.withContent, Token.width_written]
    rfl

end Setting

/-! ### Members -/

/-- The members of an object and the settings that they give, in order: a member with the name of a
field has a value for that field, and one with another name has any value. -/
inductive Gives : List (List Token) → List Setting → Prop
  | nil : Gives [] []
  | setting {x : Setting} {lexeme : StringLexeme} {value : List Token}
    {members : List (List Token)} {xs : List Setting}
    (hname : lexeme.text = .ok x.field.name.toList) (hvalue : x.WrittenAs value)
    (h : Gives members xs) : Gives ((.string lexeme :: .colon :: value) :: members) (x :: xs)
  | other {name : List Char} {lexeme : StringLexeme} {members : List (List Token)}
    {xs : List Setting} (hname : lexeme.text = .ok name) (hother : ∀ f : Field, f.name.toList ≠ name)
    (v : Tree) (h : Gives members xs) :
    Gives ((.string lexeme :: .colon :: v.tokens) :: members) xs

theorem Field.ofName?_name (f : Field) : ofName? f.name.toList = some f := by
  cases f <;> rfl

theorem Field.ofName?_eq_none {name : List Char} (h : ∀ f : Field, f.name.toList ≠ name) :
    ofName? name = none := by
  rw [ofName?, List.find?_eq_none]
  intro f _
  simpa using h f

section Members

variable {q : Reader} {given xs : List Setting} {x : Setting} {lexeme : StringLexeme}

/-- A member that gives a setting is read where a name may stand, unless the field has been given. -/
theorem reads_setting (given : List Setting) {value : List Token}
    (hq : q.step (.string lexeme) = Reader.readName given (.string lexeme))
    (hname : lexeme.text = .ok x.field.name.toList) (hvalue : x.WrittenAs value)
    (hnew : x.field ∉ given.map Setting.field) :
    Reads q (.string lexeme :: .colon :: value) (.behind (given ++ [x]) .object) := by
  have hfirst : ¬ (given.any fun y => decide (y.field = x.field)) = true := by
    simpa using hnew
  have hcolon : q.step (.string lexeme) = .ok (.colon given (some x.field)) := by
    simp only [hq, Reader.readName, StringLexeme.kept_eq hname, Field.ofName?_name, bind,
      Except.bind, if_neg hfirst]
    rfl
  exact Reads.cons hcolon (Reads.cons (s := .value given .object x.field) rfl (hvalue.reads _ _))

/-- A member with another name is read there as well, and gives nothing. -/
theorem reads_other (given : List Setting) {name : List Char} {v : Tree}
    (hq : q.step (.string lexeme) = Reader.readName given (.string lexeme))
    (hname : lexeme.text = .ok name) (hother : ∀ f : Field, f.name.toList ≠ name) :
    Reads q (.string lexeme :: .colon :: v.tokens) (.behind given .object) := by
  have hcolon : q.step (.string lexeme) = .ok (.colon given none) := by
    simp only [hq, Reader.readName, StringLexeme.kept_eq hname, Field.ofName?_eq_none hother, bind,
      Except.bind]
    rfl
  refine Reads.cons hcolon (Reads.cons (s := .skipping given (.value [])) rfl ?_)
  exact Reads.skipped (v.passes_tokens [])

/-- Of fields that are all different, one that is yet to come has not been given. -/
theorem field_notMem (h : ((given ++ x :: xs).map Setting.field).Nodup) :
    x.field ∉ given.map Setting.field := by
  rw [List.map_append, List.map_cons, List.nodup_append] at h
  obtain ⟨-, -, hdistinct⟩ := h
  exact fun hmem => hdistinct _ hmem _ (List.mem_cons_self ..) rfl

/-- Behind a member, others give their settings in order, if no field is given twice. -/
theorem Gives.reads_more {members : List (List Token)} (h : Gives members xs)
    (given : List Setting) (hfields : ((given ++ xs).map Setting.field).Nodup) :
    Reads (.behind given .object) (members.flatMap ([Token.comma] ++ ·))
      (.behind (given ++ xs) .object) := by
  -- the reader is back behind a member, with one setting more given or none
  induction h generalizing given with
  | nil =>
    rw [List.append_nil]
    exact Reads.nil _
  | @setting x lexeme value members xs hname hvalue h ih =>
    have hmember := reads_setting (q := .name given) given rfl hname hvalue (field_notMem hfields)
    have hrest := ih (given ++ [x]) (by simpa using hfields)
    rw [List.append_assoc, List.singleton_append] at hrest
    exact Reads.cons (s := .name given) rfl (hmember.append hrest)
  | other hname hother v h ih =>
    have hmember := reads_other (q := .name given) given (v := v) rfl hname hother
    exact Reads.cons (s := .name given) rfl (hmember.append (ih given hfields))

/-- **An object gives the settings of its members,** if no field is given twice. -/
theorem Gives.reads_object {members : List (List Token)} (h : Gives members xs)
    (hfields : (xs.map Setting.field).Nodup) :
    Reads .start (Json.objectTokens members) (.done xs) := by
  refine Reads.cons (s := .firstName) rfl ?_
  cases h with
  | nil => exact Reads.single rfl
  | @setting x lexeme value members xs hname hvalue h =>
    have hmember := reads_setting (q := .firstName) [] rfl hname hvalue
      List.not_mem_nil
    rw [Json.intercalate_cons_eq, List.append_assoc]
    exact hmember.append ((h.reads_more [x] hfields).append (Reads.single rfl))
  | other hname hother v h =>
    have hmember := reads_other (q := .firstName) [] (v := v) rfl hname hother
    rw [Json.intercalate_cons_eq, List.append_assoc]
    exact hmember.append ((h.reads_more [] hfields).append (Reads.single rfl))

end Members

/-! ### Lists -/

section Lists

variable {xs : List Setting} {values : List (List Token)}

/-- Behind a value of a list, others give the settings of the fields that follow. -/
theorem reads_moreValues (h : List.Forall₂ Setting.WrittenAs xs values) (given : List Setting)
    (later : List Field) :
    Reads (.behind given (.list (xs.map Setting.field ++ later)))
      (values.flatMap ([Token.comma] ++ ·)) (.behind (given ++ xs) (.list later)) := by
  induction h generalizing given with
  | nil =>
    rw [List.append_nil]
    exact Reads.nil _
  | @cons x value xs values hvalue h ih =>
    have hrest := ih (given ++ [x])
    rw [List.append_assoc, List.singleton_append] at hrest
    exact Reads.cons (s := .value given (.list (xs.map Setting.field ++ later)) x.field) rfl
      ((hvalue.reads _ _).append hrest)

/-- **A list gives the settings of the first fields,** in their order. -/
theorem reads_list (h : List.Forall₂ Setting.WrittenAs xs values)
    (hleading : xs.map Setting.field <+: Field.all) :
    Reads .start (Json.listTokens values) (.done xs) := by
  obtain ⟨later, hfields⟩ := hleading
  refine Reads.cons (s := .firstValue) rfl ?_
  cases h with
  | nil => exact Reads.single rfl
  | @cons x value xs values hvalue h =>
    have hfield : x.field = Field.lineHeight := (List.cons.inj hfields).1
    have htail : xs.map Setting.field ++ later = Field.all.tail := (List.cons.inj hfields).2
    have hfirst : Reads .firstValue value (.behind [x] (.list Field.all.tail)) := by
      -- the first field is a height, and no number ends a list
      obtain ⟨l, rfl⟩ := hvalue.exists_number hfield
      have hread := hvalue.reads [] (.list Field.all.tail)
      rw [hfield] at hread
      exact hread
    have hrest := reads_moreValues h [x] later
    rw [htail] at hrest
    have hend : Reader.step (.behind ([x] ++ xs) (.list later)) .closeBracket =
        .ok (.done (x :: xs)) := by
      cases later <;> rfl
    rw [Json.intercalate_cons_eq, List.append_assoc]
    exact hfirst.append (hrest.append (Reads.single hend))

end Lists

/-! ### What becomes of the fields -/

namespace Settings

variable {s t : Settings} {xs ys : List Setting} {f : Field}

/-- The settings as a value for each field. -/
def setting (s : Settings) : Field → Setting
  | .lineHeight => .lineHeight s.lineHeight
  | .viewportWidth => .viewportWidth s.viewportWidth
  | .tabWidth => .tabWidth s.tabWidth
  | .wrapMode => .wrapMode s.wrapMode
  | .wrapIndent => .wrapIndent s.wrapIndent

/-- Settings are known by their fields. -/
theorem eq_of_setting_eq (h : ∀ f, s.setting f = t.setting f) : s = t := by
  obtain ⟨lineHeight, viewportWidth, tabWidth, wrapMode, wrapIndent⟩ := s
  obtain ⟨lineHeight', viewportWidth', tabWidth', wrapMode', wrapIndent'⟩ := t
  obtain rfl := Setting.lineHeight.inj (h .lineHeight)
  obtain rfl := Setting.viewportWidth.inj (h .viewportWidth)
  obtain rfl := Setting.tabWidth.inj (h .tabWidth)
  obtain rfl := Setting.wrapMode.inj (h .wrapMode)
  obtain rfl := Setting.wrapIndent.inj (h .wrapIndent)
  rfl

theorem setting_set (s : Settings) (x : Setting) (f : Field) :
    (s.set x).setting f = if x.field = f then x else s.setting f := by
  cases x <;> cases f <;> rfl

/-- A field that is not given keeps its value. -/
theorem setting_overwrite_of_notMem (h : f ∉ xs.map Setting.field) :
    (s.overwrite xs).setting f = s.setting f := by
  induction xs generalizing s with
  | nil => rfl
  | cons x xs ih =>
    rw [List.map_cons, List.mem_cons, not_or] at h
    show ((s.set x).overwrite xs).setting f = _
    rw [ih h.2, setting_set, if_neg (Ne.symm h.1)]

/-- A field that is given once has the value that is given. -/
theorem setting_overwrite_of_mem {x : Setting} (hfields : (xs.map Setting.field).Nodup)
    (hx : x ∈ xs) : (s.overwrite xs).setting x.field = x := by
  induction xs generalizing s with
  | nil => cases hx
  | cons y xs ih =>
    obtain ⟨hy, hrest⟩ := List.nodup_cons.mp hfields
    show ((s.set y).overwrite xs).setting x.field = x
    rcases List.mem_cons.mp hx with rfl | hx
    · rw [setting_overwrite_of_notMem hy, setting_set, if_pos rfl]
    · exact ih hrest hx

/-- **The order in which fields are given makes no difference.** -/
theorem overwrite_perm (hfields : (xs.map Setting.field).Nodup) (h : ys.Perm xs) :
    s.overwrite ys = s.overwrite xs := by
  have hfields' : (ys.map Setting.field).Nodup := ((h.map Setting.field).nodup_iff).mpr hfields
  refine eq_of_setting_eq ?_
  intro f
  by_cases hf : f ∈ xs.map Setting.field
  · obtain ⟨x, hx, rfl⟩ := List.mem_map.mp hf
    rw [setting_overwrite_of_mem hfields hx, setting_overwrite_of_mem hfields' (h.mem_iff.mpr hx)]
  · have hf' : f ∉ ys.map Setting.field := (h.map Setting.field).mem_iff.not.mpr hf
    rw [setting_overwrite_of_notMem hf, setting_overwrite_of_notMem hf']

/-! ### Documents -/

/-- A document that is read to its end overwrites the usual settings, if these can be used then. -/
theorem read_of_reads {text : List Char} (h : Reads .start (Json.lex text) (.done xs)) :
    read text = if (overwrite {} xs).lineHeight = 0 then .error (.invalid .zeroLineHeight)
      else .ok (overwrite {} xs) := by
  have hgiven : givenBy text = .ok xs := by
    rw [givenBy, Reader.run, h]
    rfl
  by_cases hzero : (overwrite {} xs).lineHeight = 0
  · have hinvalid : (overwrite {} xs).validate = .error .zeroLineHeight := if_pos hzero
    simp only [read, hgiven, hinvalid, if_pos hzero]
  · have hvalid : (overwrite {} xs).validate = .ok () := if_neg hzero
    simp only [read, hgiven, hvalid, if_neg hzero]

/-- **Documents overwrite the usual settings,** and nothing else about them makes a difference. Let
some settings be given, no field twice. Every text of an object whose members give these settings, in
whatever order and spelling, with any white space and among members with other names and any values,
is read as the usual settings overwritten by those given, if rows have a height then, and is refused
for that alone otherwise. The same holds of every text of a list with values for these settings, if
their fields are the first ones in order. What is given for a field is what the settings have there,
and a field for which nothing is given keeps the usual value. -/
theorem documents_overwrite_defaults (hfields : (xs.map Setting.field).Nodup) :
    let usable := if (overwrite {} xs).lineHeight = 0 then .error (.invalid .zeroLineHeight)
      else .ok (overwrite {} xs)
    (∀ members given text, Gives members given → given.Perm xs →
      Json.Spells text (Json.objectTokens members) → read text = usable) ∧
    (∀ values text, List.Forall₂ Setting.WrittenAs xs values → xs.map Setting.field <+: Field.all →
      Json.Spells text (Json.listTokens values) → read text = usable) ∧
    (∀ x ∈ xs, (overwrite {} xs).setting x.field = x) ∧
    ∀ f ∉ xs.map Setting.field, (overwrite {} xs).setting f = setting {} f := by
  refine ⟨?_, ?_, ?_, ?_⟩
  · intro members given text hgives hperm hspells
    have hnodup : (given.map Setting.field).Nodup := (hperm.map Setting.field).nodup_iff.mpr hfields
    rw [read_of_reads (hspells.lex_eq ▸ hgives.reads_object hnodup), overwrite_perm hfields hperm]
  · intro values text hvalues hleading hspells
    exact read_of_reads (hspells.lex_eq ▸ reads_list hvalues hleading)
  · intro x hx
    exact setting_overwrite_of_mem hfields hx
  · intro f hf
    exact setting_overwrite_of_notMem hf

/-! ### A document with odd parts -/

/-- The name of a height, with the number of one character in place of that character. -/
def heightName : StringLexeme :=
  ⟨"line".toList.map Json.writtenPiece ++ .unit 0x5f :: "height".toList.map Json.writtenPiece, none⟩

/-- A list of a number that is too large for any reader and an object with half of a character. -/
def oddTree : Tree :=
  .list [.number ⟨false, ['1'], none, some (false, ['9', '9', '9'])⟩,
    .object [([], .string [.unit 0xd800])]]

/-- Members that give a width and then a height. Two others between them have one name. -/
def oddMembers : List (List Token) :=
  [.string (.written Field.viewportWidth.name.toList) :: .colon :: [.number (.ok (.written 20))],
    .string (.written []) :: .colon :: Tree.tokens (.number (.written 0)),
    .string (.written []) :: .colon :: oddTree.tokens,
    .string heightName :: .colon :: [.number (.ok (.written 7))]]

/-- An object with these members. -/
def oddDocument : String :=
  "\x7b\"viewport_width\": 20,\"\":0,\"\":[1e999,\x7b\"\":\"\\ud800\"\x7d],\"line\\u005fheight\":7\x7d"

theorem gives_oddMembers : Gives oddMembers [.viewportWidth 20, .lineHeight 7] := by
  have hwidth : (StringLexeme.written Field.viewportWidth.name.toList).text =
      .ok Field.viewportWidth.name.toList := StringLexeme.text_written _
  have hempty : (StringLexeme.written []).text = .ok [] := StringLexeme.text_written []
  have hother : ∀ f : Field, f.name.toList ≠ [] := by
    intro f
    cases f <;> decide
  exact .setting hwidth (.viewportWidth 20) <| .other hempty hother (.number (.written 0)) <|
    .other hempty hother oddTree <| .setting rfl (.lineHeight 7) .nil

section Spellings

open Json

theorem spells_oddDocument : Spells oddDocument.toList (objectTokens oddMembers) := by
  have hwidth : SpellsToken "\"viewport_width\"".toList
      (.string (.written Field.viewportWidth.name.toList)) :=
    .string (spellsPieces_written "viewport_width".toList)
  have hempty : SpellsToken "\"\"".toList (.string (.written [])) := .string .nil
  have hhuge : SpellsNumber "1e999".toList ⟨false, ['1'], none, some (false, ['9', '9', '9'])⟩ := by
    have hwhole : IsDigits ['1'] := ⟨by decide, List.all_eq_true.mp rfl⟩
    have hpower : IsDigits ['9', '9', '9'] := ⟨by decide, List.all_eq_true.mp rfl⟩
    exact .mk false hwhole (by decide) .none (.some (Or.inl rfl) .none hpower)
  have hhalf : SpellsToken "\"\\ud800\"".toList (.string ⟨[.unit 0xd800], none⟩) :=
    .string (.cons (.unit rfl) .nil)
  have hheight : SpellsToken "\"line\\u005fheight\"".toList (.string heightName) :=
    .string ((spellsPieces_written "line".toList).append
      (.cons (.unit rfl) (spellsPieces_written "height".toList)))
  have hspells : Spells _ (objectTokens oddMembers) :=
    .token .openBrace trivial <| .token hwidth trivial <| .token .colon trivial <|
    .space (c := ' ') rfl <|
    .token (.number (spellsNumber_toDigits 20)) (endsNumber_cons (by decide) _) <|
    .token .comma trivial <| .token hempty trivial <| .token .colon trivial <|
    .token (.number (spellsNumber_toDigits 0)) (endsNumber_cons (by decide) _) <|
    .token .comma trivial <| .token hempty trivial <| .token .colon trivial <|
    .token .openBracket trivial <| .token (.number hhuge) (endsNumber_cons (by decide) _) <|
    .token .comma trivial <| .token .openBrace trivial <| .token hempty trivial <|
    .token .colon trivial <| .token hhalf trivial <| .token .closeBrace trivial <|
    .token .closeBracket trivial <| .token .comma trivial <|
    .token hheight trivial <| .token .colon trivial <|
    .token (.number (spellsNumber_toDigits 7)) (endsNumber_cons (by decide) _) <|
    .token .closeBrace trivial .nil
  convert hspells using 1
  decide +kernel

theorem spells_heightAndWidth : Spells "[7,20]".toList
    (listTokens [[.number (.ok (.written 7))], [.number (.ok (.written 20))]]) :=
  .token .openBracket trivial <|
    .token (.number (spellsNumber_toDigits 7)) (endsNumber_cons (by decide) _) <|
    .token .comma trivial <|
    .token (.number (spellsNumber_toDigits 20)) (endsNumber_cons (by decide) _) <|
    .token .closeBracket trivial .nil

end Spellings

theorem oddDocument_overwrites_defaults :
    let s : Settings := { lineHeight := 7, viewportWidth := 20 }
    read oddDocument.toList = .ok s ∧ read "[7,20]".toList = .ok s ∧
      s.setting .lineHeight = .lineHeight 7 ∧ s.setting .tabWidth = .tabWidth 4 := by
  obtain ⟨hobject, hlist, hgiven, hkept⟩ :=
    @documents_overwrite_defaults [.lineHeight 7, .viewportWidth 20] (by decide)
  refine ⟨?_, ?_, ?_, ?_⟩
  · exact hobject oddMembers _ _ gives_oddMembers (.swap ..) spells_oddDocument
  · exact hlist _ _ (.cons (.lineHeight 7) (.cons (.viewportWidth 20) .nil)) (by decide)
      spells_heightAndWidth
  · exact hgiven (.lineHeight 7) (by decide)
  · exact hkept .tabWidth (by decide)

end Settings

end RowLayout
