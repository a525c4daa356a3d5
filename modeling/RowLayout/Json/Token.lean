import RowLayout.Json.Number

/-!
# The tokens of a document

A document is read as a list of tokens. White space between tokens is blank, tab, line feed and
carriage return. A token that is wrong in every reading is the last one of the list: whoever reads
the list cannot get past it.

## Main definitions

* `Token` — marks, words, strings and numbers
* `lex` — the tokens of a text
-/

namespace RowLayout.Json

/-- The words of JSON. -/
inductive Word where
  | null
  | true
  | false
deriving DecidableEq, Repr

/-- A token of a document. Strings and numbers are given as they stand. -/
inductive Token where
  | openBrace
  | closeBrace
  | openBracket
  | closeBracket
  | comma
  | colon
  | word (word : Except Fault Word)
  | string (lexeme : StringLexeme)
  | number (lexeme : Except Fault NumberLexeme)
  /-- A character with which no token begins. -/
  | stray (c : Char)
deriving Repr

/-- White space between tokens. -/
def isSpace (c : Char) : Bool := c == ' ' || c == '\t' || c == '\n' || c == '\r'

/-- What is left of a text behind the given characters. -/
def expect : List Char → List Char → Except Fault (List Char)
  | [], text => .ok text
  | _ :: _, [] => .error .truncated
  | c :: cs, d :: text => if c = d then expect cs text else .error .malformed

/-- A word whose first letter has been read and whose other letters are given. -/
def wordToken (word : Word) (letters text : List Char) : Token × List Char :=
  match expect letters text with
  | .ok rest => (.word (.ok word), rest)
  | .error fault => (.word (.error fault), [])

/-- The string that follows an opening quote. -/
def stringToken (text : List Char) : Token × List Char :=
  let (lexeme, rest) := StringLexeme.scan text
  (.string lexeme, rest)

/-- The number at the front of a text. -/
def numberToken (text : List Char) : Token × List Char :=
  match NumberLexeme.scan text with
  | .ok (lexeme, rest) => (.number (.ok lexeme), rest)
  | .error fault => (.number (.error fault), [])

/-- The token that begins with the character `c`, and the text behind it. -/
def tokenFrom (c : Char) (text : List Char) : Token × List Char :=
  match c with
  | '\x7b' => (.openBrace, text)
  | '\x7d' => (.closeBrace, text)
  | '[' => (.openBracket, text)
  | ']' => (.closeBracket, text)
  | ',' => (.comma, text)
  | ':' => (.colon, text)
  | '"' => stringToken text
  | 'n' => wordToken .null ['u', 'l', 'l'] text
  | 't' => wordToken .true ['r', 'u', 'e'] text
  | 'f' => wordToken .false ['a', 'l', 's', 'e'] text
  | c => if c = '-' ∨ isDigit c then numberToken (c :: text) else (.stray c, [])

/-! ### What a token takes up -/

theorem length_expect_le {cs text rest : List Char} (h : expect cs text = .ok rest) :
    rest.length ≤ text.length := by
  induction cs generalizing text with
  | nil => simp only [expect, Except.ok.injEq] at h; exact h ▸ Nat.le_refl _
  | cons c cs ih =>
    cases text with
    | nil => simp [expect] at h
    | cons d text =>
      rw [expect] at h
      split at h
      · have := ih h
        rw [List.length_cons]; omega
      · simp at h

theorem length_wordToken_le (word : Word) (letters text : List Char) :
    (wordToken word letters text).2.length ≤ text.length := by
  rw [wordToken]
  split
  · next h => exact length_expect_le h
  · exact Nat.zero_le _

theorem length_stringToken_le (text : List Char) :
    (stringToken text).2.length ≤ text.length := StringLexeme.length_scan_le text

/-- A number takes up at least the character it begins with. -/
theorem length_numberToken_le (c : Char) (text : List Char) :
    (numberToken (c :: text)).2.length ≤ text.length := by
  rw [numberToken]
  split
  · next h => exact Nat.le_of_lt_succ (NumberLexeme.length_scan_lt h)
  · exact Nat.zero_le _

theorem length_tokenFrom_le (c : Char) (text : List Char) :
    (tokenFrom c text).2.length ≤ text.length := by
  rw [tokenFrom.eq_def]
  split
  all_goals first
    | exact Nat.le_refl _
    | exact length_stringToken_le text
    | exact length_wordToken_le _ _ text
    | skip
  split
  · exact length_numberToken_le c text
  · exact Nat.zero_le _

/-! ### Token lists -/

/-- The tokens of a text. -/
def lex : List Char → List Token
  | [] => []
  | c :: text =>
    if isSpace c then lex text
    else
      have := length_tokenFrom_le c text
      (tokenFrom c text).1 :: lex (tokenFrom c text).2
termination_by text => text.length

end RowLayout.Json
