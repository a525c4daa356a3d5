import Mathlib.Data.List.Forall2
import RowLayout.Json.Value
import RowLayout.Proofs.SpelledTokens

/-!
# The tokens of a written value

A value that was written is read as the tokens that were meant: the text of each part spells them,
and a token that is kept has the value that was written. Only a number has no mark of its own at its
end, so what follows a text must not go on with one; nothing that is written behind a value does, as
it is a comma or a closing mark.

The texts of lists and objects are put together from those of their parts, and so are their tokens.
What is shown for a part therefore holds for every text that may follow it.

## Main definitions

* `ReadAs` — a text is read as certain tokens, whatever follows it
* `StringLexeme.written`, `NumberLexeme.written` — strings and numbers as they are found again
* `Value.tokens` — the tokens of a value

## Main results

* `spellsPieces_written`, `spellsNumber_toDigits` — what is written for strings and numbers
* `StringLexeme.text_written`, `NumberLexeme.value_written` — what was written is kept
* `Value.readAs_compact` — the text of a value is read as its tokens
-/

namespace RowLayout.Json

/-! ### Strings -/

/-- A character as it is found in a string that was written: by its number if it cannot stand in a
string and there is no letter for it. -/
def writtenPiece (c : Char) : Piece :=
  if c.toNat < 0x20 ∧ c ∉ ['\x08', '\x0c', '\n', '\r', '\t'] then .unit c.toNat else .char c

/-- A string as it is found where it was written. -/
def StringLexeme.written (s : List Char) : StringLexeme := ⟨s.map writtenPiece, none⟩

/-- The four digits of a control character spell its number. -/
theorem spellsPiece_unitDigits {n : Nat} (h : n < 0x20) :
    SpellsPiece ('\\' :: 'u' :: unitDigits n) (.unit n) := by
  have hdigits : ∀ n < 0x20,
      unitDigits n = ['0', '0', (n / 16).digitChar, (n % 16).digitChar] ∧
        hexUnit? '0' '0' (n / 16).digitChar (n % 16).digitChar = some n := by decide
  obtain ⟨heq, hvalue⟩ := hdigits n h
  rw [heq]
  exact .unit hvalue

/-- What is written for a character spells it. -/
theorem spellsPiece_escapedChar (c : Char) : SpellsPiece (escapedChar c) (writtenPiece c) := by
  rw [escapedChar.eq_def]
  split
  case h_8 hquote hbackslash hb hf hn hr ht =>
    have hletter : c ∉ ['\x08', '\x0c', '\n', '\r', '\t'] := by
      simpa using ⟨hb, hf, hn, hr, ht⟩
    split
    · next hcontrol =>
      rw [writtenPiece, if_pos ⟨hcontrol, hletter⟩]
      exact spellsPiece_unitDigits hcontrol
    · next hcontrol =>
      rw [writtenPiece, if_neg fun h => hcontrol h.1]
      exact .char (Nat.le_of_not_lt hcontrol) hquote hbackslash
  all_goals exact .escape rfl

theorem spellsPieces_written (s : List Char) :
    SpellsPieces (s.flatMap escapedChar) (s.map writtenPiece) := by
  induction s with
  | nil => exact .nil
  | cons c s ih => exact .cons (spellsPiece_escapedChar c) ih

namespace StringLexeme

/-- A unit that is no part of a pair stands for a character of its own. -/
theorem textOf_unit_cons {code : Nat} (h : code < 0x20) (fault : Option Fault)
    (pieces : List Piece) :
    textOf fault (.unit code :: pieces) = (Char.ofNat code :: ·) <$> textOf fault pieces := by
  have hleads : leads code = false := by simp only [leads]; grind
  have htrails : trails code = false := by simp only [trails]; grind
  cases pieces with
  | nil => simp [textOf, hleads, htrails]
  | cons p pieces => cases p <;> simp [textOf, hleads, htrails]

/-- **A string that was written is kept.** -/
theorem text_written (s : List Char) : (written s).text = .ok s := by
  show textOf none (s.map writtenPiece) = .ok s
  induction s with
  | nil => rfl
  | cons c s ih =>
    rw [List.map_cons, writtenPiece]
    split
    · next h => rw [textOf_unit_cons h.1, ih, Char.ofNat_toNat]; rfl
    · rw [textOf, ih]; rfl

end StringLexeme

/-! ### Numbers -/

/-- A number as it is found where it was written. -/
def NumberLexeme.written (n : Nat) : NumberLexeme := ⟨false, Nat.toDigits 10 n, none, none⟩

theorem isDigit_of_mem_toDigits {c : Char} {n : Nat} (h : c ∈ Nat.toDigits 10 n) :
    isDigit c = true := by
  have hdigit := Nat.isDigit_of_mem_toDigits (by decide) (by decide) h
  simpa [isDigit, Char.isDigit, Char.le_def] using hdigit

/-- Only zero begins with a zero. -/
theorem head?_toDigits {n : Nat} (h : (Nat.toDigits 10 n).head? = some '0') : n = 0 := by
  induction n using Nat.strongRecOn with
  | ind n ih =>
    rcases Nat.lt_or_ge n 10 with hlt | hge
    · rw [Nat.toDigits_of_lt_base hlt] at h
      have hchar : ∀ n < 10, Nat.digitChar n = '0' → n = 0 := by decide
      exact hchar n hlt (by simpa using h)
    · rw [Nat.toDigits_of_base_le (by decide) hge] at h
      have hhead : (Nat.toDigits 10 (n / 10)).head? = some '0' := by
        rwa [List.head?_append_of_ne_nil _ Nat.toDigits_ne_nil] at h
      have := ih (n / 10) (by omega) hhead
      omega

/-- The digits of a whole number spell it. -/
theorem spellsNumber_toDigits (n : Nat) : SpellsNumber (Nat.toDigits 10 n) (.written n) := by
  have hdigits : IsDigits (Nat.toDigits 10 n) :=
    ⟨Nat.toDigits_ne_nil, fun _ => isDigit_of_mem_toDigits⟩
  have hzero : (Nat.toDigits 10 n).head? = some '0' → (Nat.toDigits 10 n).length = 1 := by
    intro hhead
    rw [head?_toDigits hhead]
    rfl
  have hspells := SpellsNumber.mk false hdigits hzero .none .none
  rwa [if_neg Bool.false_ne_true, List.nil_append, List.append_nil, List.append_nil] at hspells

namespace NumberLexeme

/-- Digits that are read behind a number do not make it smaller. -/
theorem le_foldl_digitValue (n : Nat) (text : List Char) :
    n ≤ text.foldl (fun n c => n * 10 + digitValue c) n := by
  induction text generalizing n with
  | nil => exact Nat.le_refl n
  | cons c text ih =>
    rw [List.foldl_cons]
    exact Nat.le_trans (by omega) (ih (n * 10 + digitValue c))

theorem collect_eq {n : Nat} {text : List Char}
    (h : text.foldl (fun n c => n * 10 + digitValue c) n ≤ maxDigits) :
    collect n text = (text.foldl (fun n c => n * 10 + digitValue c) n, []) := by
  induction text generalizing n with
  | nil => rfl
  | cons c text ih =>
    rw [List.foldl_cons] at h ⊢
    rw [collect, if_pos (Nat.le_trans (le_foldl_digitValue _ text) h), ih h]

theorem digitsValue_toDigits (n : Nat) : digitsValue (Nat.toDigits 10 n) = n := by
  have hfold : digitsValue (Nat.toDigits 10 n) = Nat.ofDigitChars 10 (Nat.toDigits 10 n) 0 := by
    simp only [digitsValue, Nat.ofDigitChars, digitValue, Nat.mul_comm 10]
  rw [hfold, Nat.ofDigitChars_toDigits (by decide) (by decide)]

/-- **A number that was written is kept,** if it fits 64 bits. -/
theorem value_written {n : Nat} (h : n ≤ maxDigits) : (written n).value = .ok (.natural n) := by
  have hcollect : collect 0 (Nat.toDigits 10 n) = (n, []) := by
    have hvalue := digitsValue_toDigits n
    rw [digitsValue] at hvalue
    rw [collect_eq (by rw [hvalue]; exact h), hvalue]
  simp [value, written, hcollect, signedInteger]

end NumberLexeme

/-! ### Tokens, whatever follows them -/

/-- A text is read as the given tokens, whatever follows it, unless that goes on with a number. -/
def ReadAs (text : List Char) (tokens : List Token) : Prop :=
  ∀ rest, EndsNumber rest → lex (text ++ rest) = tokens ++ lex rest

theorem EndsNumber.endsBefore {rest : List Char} (h : EndsNumber rest) (t : Token) :
    t.EndsBefore rest := by
  cases t with
  | number l => exact h
  | _ => trivial

namespace ReadAs

theorem nil : ReadAs [] [] := fun _ _ => rfl

/-- A mark in front of a text. -/
theorem mark {c : Char} {t : Token} {text : List Char} {tokens : List Token}
    (h : ReadAs text tokens) (hspace : isSpace c = false)
    (ht : ∀ text, tokenFrom c text = (t, text)) :
    ReadAs (c :: text) (t :: tokens) := by
  intro rest hrest
  rw [List.cons_append, lex_cons hspace, ht, h rest hrest]
  rfl

/-- Two texts, the second of which does not go on with a number in front of it. -/
theorem append {text text' : List Char} {tokens tokens' : List Token} (h : ReadAs text tokens)
    (h' : ReadAs text' tokens') (hends : ∀ rest, EndsNumber rest → EndsNumber (text' ++ rest)) :
    ReadAs (text ++ text') (tokens ++ tokens') := by
  intro rest hrest
  rw [List.append_assoc, List.append_assoc, h _ (hends rest hrest), h' rest hrest]

/-- A text of one token. -/
theorem token {text : List Char} {t : Token} (h : SpellsToken text t) : ReadAs text [t] :=
  fun _ hrest => h.lex_append (hrest.endsBefore t)

/-- A string that is written. -/
theorem stringText (s : List Char) : ReadAs (stringText s) [.string (.written s)] :=
  token (.string (spellsPieces_written s))

/-- Texts with commas between them. -/
theorem commaSeparated {texts : List (List Char)} {tokens : List (List Token)}
    (h : List.Forall₂ ReadAs texts tokens) :
    ReadAs (commaSeparated texts) ([Token.comma].intercalate tokens) := by
  induction h with
  | nil => exact nil
  | @cons text tokens texts rest hfirst hrest ih =>
    cases hrest with
    | nil => simpa only [Json.commaSeparated, List.intercalate_singleton] using hfirst
    | cons hsecond hmore =>
      rw [Json.commaSeparated, List.intercalate_cons_cons, List.intercalate_cons_cons,
        List.append_assoc, List.append_assoc]
      exact hfirst.append (ih.mark (c := ',') (t := .comma) rfl fun _ => rfl)
        fun rest _ => endsNumber_cons (by decide) _

/-- A text between two marks, the second of which a number ends at. -/
theorem between {first last : Char} {t u : Token} {text : List Char} {tokens : List Token}
    (h : ReadAs text tokens) (hends : isDigit last = false ∧ last ≠ '.' ∧ last ≠ 'e' ∧ last ≠ 'E')
    (hfirst : isSpace first = false) (hlast : isSpace last = false)
    (ht : ∀ text, tokenFrom first text = (t, text)) (hu : ∀ text, tokenFrom last text = (u, text)) :
    ReadAs (first :: text ++ [last]) (t :: tokens ++ [u]) :=
  ((h.append (nil.mark hlast hu)) fun _ _ => endsNumber_cons hends _).mark hfirst ht

end ReadAs

/-! ### Values -/

namespace Value

mutual

/-- The tokens of a value. -/
def tokens : Value → List Token
  | null => [.word (.ok .null)]
  | bool true => [.word (.ok .true)]
  | bool false => [.word (.ok .false)]
  | number n => [.number (.ok (.written n))]
  | string s => [.string (.written s)]
  | list elements =>
    .openBracket :: [Token.comma].intercalate (tokensOfAll elements) ++ [.closeBracket]
  | object members =>
    .openBrace :: [Token.comma].intercalate (tokensOfMembers members) ++ [.closeBrace]

/-- The tokens of several values. -/
def tokensOfAll : List Value → List (List Token)
  | [] => []
  | v :: rest => tokens v :: tokensOfAll rest

/-- The tokens of several members: the name, a colon and the value. -/
def tokensOfMembers : List (List Char × Value) → List (List Token)
  | [] => []
  | (name, v) :: rest => (.string (.written name) :: .colon :: tokens v) :: tokensOfMembers rest

end

mutual

/-- **The text of a value is read as its tokens,** whatever follows it. -/
theorem readAs_compact : ∀ v : Value, ReadAs v.compact v.tokens
  | null => ReadAs.token (.word .null)
  | bool true => ReadAs.token (.word .true)
  | bool false => ReadAs.token (.word .false)
  | number n => ReadAs.token (.number (spellsNumber_toDigits n))
  | string s => ReadAs.stringText s
  | list elements =>
    (ReadAs.commaSeparated (readAs_compactAll elements)).between (by decide) rfl rfl
      (fun _ => rfl) fun _ => rfl
  | object members =>
    (ReadAs.commaSeparated (readAs_compactMembers members)).between (by decide) rfl rfl
      (fun _ => rfl) fun _ => rfl

theorem readAs_compactAll :
    ∀ elements : List Value, List.Forall₂ ReadAs (compactAll elements) (tokensOfAll elements)
  | [] => .nil
  | v :: rest => .cons (readAs_compact v) (readAs_compactAll rest)

theorem readAs_compactMembers : ∀ members : List (List Char × Value),
    List.Forall₂ ReadAs (compactMembers members) (tokensOfMembers members)
  | [] => .nil
  | (name, v) :: rest => by
    rw [compactMembers, tokensOfMembers]
    refine .cons ?_ (readAs_compactMembers rest)
    exact (ReadAs.stringText name).append ((readAs_compact v).mark rfl fun _ => rfl)
      fun _ _ => endsNumber_cons (by decide) _

end

end Value

end RowLayout.Json
