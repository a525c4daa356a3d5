import RowLayout.Json.Token

/-!
# Tokens as they may be spelled

A token may stand in a text in several ways: a character of a string may be escaped, a power of ten
may have a sign that it does not need, and any white space may come between tokens. What may stand
there is said here without the lexer, by the grammar of the parts, and whatever it is, the lexer
finds the tokens that are meant.

All tokens but numbers end by themselves. A number goes on as long as it can, so what comes behind it
must not begin like more of it; nothing that may follow a value in a document does.

## Main definitions

* `SpellsPieces`, `SpellsNumber` — texts of strings and of numbers
* `SpellsToken` — texts of a token
* `EndsNumber` — a text that does not go on with a number in front of it
* `Spells` — texts of tokens one after the other, with white space

## Main results

* `StringLexeme.scan_of_spells`, `NumberLexeme.scan_of_spells` — a lexeme is cut off at its end
* `Spells.lex_eq` — the lexer finds the tokens that a text spells
-/

namespace RowLayout.Json

/-! ### Strings -/

/-- The texts of one character of a string: the character as it is, if it may stand there, one
behind a backslash that means it, or the four digits of a 16-bit unit. -/
inductive SpellsPiece : List Char → Piece → Prop
  | char {c : Char} (hshown : 0x20 ≤ c.toNat) (hquote : c ≠ '"') (hbackslash : c ≠ '\\') :
    SpellsPiece [c] (.char c)
  | escape {e c : Char} (hescape : escaped? e = some c) : SpellsPiece ['\\', e] (.char c)
  | unit {a b c d : Char} {code : Nat} (hdigits : hexUnit? a b c d = some code) :
    SpellsPiece ['\\', 'u', a, b, c, d] (.unit code)

/-- The texts of the characters of a string. -/
inductive SpellsPieces : List Char → List Piece → Prop
  | nil : SpellsPieces [] []
  | cons {front text : List Char} {p : Piece} {pieces : List Piece} (hfront : SpellsPiece front p)
    (h : SpellsPieces text pieces) : SpellsPieces (front ++ text) (p :: pieces)

theorem SpellsPieces.append {text text' : List Char} {pieces pieces' : List Piece}
    (h : SpellsPieces text pieces) (h' : SpellsPieces text' pieces') :
    SpellsPieces (text ++ text') (pieces ++ pieces') := by
  induction h with
  | nil => exact h'
  | cons hfront h ih =>
    rw [List.append_assoc, List.cons_append]
    exact .cons hfront ih

namespace StringLexeme

/-- What is meant by one character of a string is found. -/
theorem scan_piece {front : List Char} {p : Piece} (h : SpellsPiece front p) (rest : List Char) :
    scan (front ++ rest) = push p (scan rest) := by
  cases h with
  | @char c hshown hquote hbackslash =>
    have hcontrol : ¬ c.toNat < 0x20 := Nat.not_lt.mpr hshown
    rw [List.singleton_append, scan.eq_def]
    split
    · next hnil => cases hnil
    · next hcons => exact absurd (List.cons.inj hcons).1 hquote
    · next hcons => exact absurd (List.cons.inj hcons).1 hbackslash
    · next c' rest' _ _ hcons =>
      obtain ⟨rfl, rfl⟩ := List.cons.inj hcons
      rw [if_neg hcontrol]
  | @escape e c hescape =>
    have hu : e ≠ 'u' := by
      rintro rfl
      cases hescape
    simp [scan, hescape, hu]
  | @unit a b c d code hdigits => simp [scan, hdigits]

/-- **A string is cut off at its closing quote.** -/
theorem scan_of_spells {text : List Char} {pieces : List Piece} (h : SpellsPieces text pieces)
    (rest : List Char) : scan (text ++ '"' :: rest) = (⟨pieces, none⟩, rest) := by
  induction h with
  | nil => rfl
  | cons hfront h ih =>
    rw [List.append_assoc, scan_piece hfront, ih]
    rfl

end StringLexeme

/-! ### Numbers -/

/-- One or more digits. -/
structure IsDigits (text : List Char) : Prop where
  nonempty : text ≠ []
  isDigit : ∀ c ∈ text, isDigit c = true

/-- The texts of a fraction: nothing, or a point and digits. -/
inductive SpellsFraction : List Char → Option (List Char) → Prop
  | none : SpellsFraction [] none
  | some {found : List Char} (hfound : IsDigits found) : SpellsFraction ('.' :: found) (some found)

/-- The texts of a sign that may be left out if it is a plus. -/
inductive SpellsSign : List Char → Bool → Prop
  | none : SpellsSign [] false
  | plus : SpellsSign ['+'] false
  | minus : SpellsSign ['-'] true

/-- The texts of a power of ten: nothing, or its letter, a sign and digits. -/
inductive SpellsPower : List Char → Option (Bool × List Char) → Prop
  | none : SpellsPower [] none
  | some {e : Char} {sign found : List Char} {negative : Bool} (hletter : e = 'e' ∨ e = 'E')
    (hsign : SpellsSign sign negative) (hfound : IsDigits found) :
    SpellsPower (e :: (sign ++ found)) (some (negative, found))

/-- The texts of a number. Only a minus sign may stand in front, and no zero before other digits. -/
inductive SpellsNumber : List Char → NumberLexeme → Prop
  | mk (negative : Bool) {whole fractionText powerText : List Char} {fraction : Option (List Char)}
    {power : Option (Bool × List Char)} (hwhole : IsDigits whole)
    (hzero : whole.head? = some '0' → whole.length = 1)
    (hfraction : SpellsFraction fractionText fraction) (hpower : SpellsPower powerText power) :
    SpellsNumber ((if negative then ['-'] else []) ++ (whole ++ (fractionText ++ powerText)))
      ⟨negative, whole, fraction, power⟩

/-- A text that does not go on with a number in front of it. -/
def EndsNumber (text : List Char) : Prop :=
  ∀ c ∈ text.head?, isDigit c = false ∧ c ≠ '.' ∧ c ≠ 'e' ∧ c ≠ 'E'

theorem endsNumber_nil : EndsNumber [] := by simp [EndsNumber]

theorem endsNumber_cons {c : Char} (h : isDigit c = false ∧ c ≠ '.' ∧ c ≠ 'e' ∧ c ≠ 'E')
    (text : List Char) : EndsNumber (c :: text) := by
  intro d hd
  obtain rfl : c = d := Option.some.inj hd
  exact h

/-- A number begins with a digit or a minus sign. -/
theorem SpellsNumber.exists_cons {text : List Char} {l : NumberLexeme} (h : SpellsNumber text l) :
    ∃ c rest, text = c :: rest ∧ (c = '-' ∨ isDigit c = true) := by
  obtain ⟨negative, hwhole, -, -, -⟩ := h
  cases negative with
  | true => exact ⟨'-', _, rfl, Or.inl rfl⟩
  | false =>
    obtain ⟨c, whole, rfl⟩ := List.exists_cons_of_ne_nil hwhole.nonempty
    exact ⟨c, _, rfl, Or.inr (hwhole.isDigit c List.mem_cons_self)⟩

section Digits

variable {found rest : List Char}

/-- Digits are cut off where something else begins. -/
theorem digits_append (hfound : IsDigits found) (hrest : ∀ c ∈ rest.head?, isDigit c = false) :
    digits (found ++ rest) = .ok (found, rest) := by
  have hnone : rest.takeWhile isDigit = [] ∧ rest.dropWhile isDigit = rest := by
    cases rest with
    | nil => exact ⟨rfl, rfl⟩
    | cons c rest =>
      have hc : ¬ isDigit c = true := by simp [hrest c rfl]
      exact ⟨List.takeWhile_cons_of_neg hc, List.dropWhile_cons_of_neg hc⟩
  rw [digits, List.takeWhile_append_of_pos hfound.isDigit,
    List.dropWhile_append_of_pos hfound.isDigit, hnone.1, hnone.2, List.append_nil]
  obtain ⟨c, found, rfl⟩ := List.exists_cons_of_ne_nil hfound.nonempty
  rfl

theorem wholeDigits_append (hfound : IsDigits found)
    (hzero : found.head? = some '0' → found.length = 1)
    (hrest : ∀ c ∈ rest.head?, isDigit c = false) :
    wholeDigits (found ++ rest) = .ok (found, rest) := by
  have hleading : ¬ (found.head? = some '0' ∧ 1 < found.length) := by
    rintro ⟨hhead, hlength⟩
    exact Nat.lt_irrefl 1 (hzero hhead ▸ hlength)
  simp only [wholeDigits, digits_append hfound hrest, bind, Except.bind, if_neg hleading]
  rfl

theorem fractionDigits_append {fraction : Option (List Char)} (h : SpellsFraction found fraction)
    (hrest : ∀ c ∈ rest.head?, isDigit c = false ∧ c ≠ '.') :
    fractionDigits (found ++ rest) = .ok (fraction, rest) := by
  cases h with
  | none =>
    rw [List.nil_append, fractionDigits.eq_def]
    split
    · exact absurd rfl (hrest '.' rfl).2
    · rfl
  | some hfound =>
    simp only [List.cons_append, fractionDigits,
      digits_append hfound fun c hc => (hrest c hc).1, bind, Except.bind]
    rfl

theorem powerSign_append {sign : List Char} {negative : Bool} (h : SpellsSign sign negative)
    (hfound : IsDigits found) (rest : List Char) :
    powerSign (sign ++ (found ++ rest)) = (negative, found ++ rest) := by
  cases h with
  | none =>
    obtain ⟨c, found, rfl⟩ := List.exists_cons_of_ne_nil hfound.nonempty
    have hc := hfound.isDigit c List.mem_cons_self
    rw [List.nil_append, List.cons_append, powerSign.eq_def]
    split
    · next hcons =>
      obtain ⟨rfl, -⟩ := List.cons.inj hcons
      exact absurd hc (by decide)
    · next hcons =>
      obtain ⟨rfl, -⟩ := List.cons.inj hcons
      exact absurd hc (by decide)
    · rfl
  | plus => rfl
  | minus => rfl

theorem powerDigits_append {power : Option (Bool × List Char)} (h : SpellsPower found power)
    (hrest : EndsNumber rest) : powerDigits (found ++ rest) = .ok (power, rest) := by
  cases h with
  | none =>
    rw [List.nil_append, powerDigits.eq_def]
    split
    · next c text =>
      obtain ⟨-, -, hlower, hupper⟩ := hrest c rfl
      rw [if_neg (by simp [hlower, hupper])]
      rfl
    · rfl
  | some hletter hsign hfound =>
    rw [List.cons_append, List.append_assoc, powerDigits, if_pos hletter,
      powerSign_append hsign hfound]
    simp only [digits_append hfound fun c hc => (hrest c hc).1, bind, Except.bind]
    rfl

theorem minusSign_append {whole : List Char} (hwhole : IsDigits whole) (negative : Bool)
    (rest : List Char) :
    minusSign ((if negative then ['-'] else []) ++ (whole ++ rest)) = (negative, whole ++ rest) := by
  cases negative with
  | true => rfl
  | false =>
    obtain ⟨c, whole, rfl⟩ := List.exists_cons_of_ne_nil hwhole.nonempty
    have hc := hwhole.isDigit c List.mem_cons_self
    rw [if_neg Bool.false_ne_true, List.nil_append, List.cons_append, minusSign.eq_def]
    split
    · next hcons =>
      obtain ⟨rfl, -⟩ := List.cons.inj hcons
      exact absurd hc (by decide)
    · rfl

end Digits

/-! ### What comes behind the parts of a number -/

/-- Behind the digits before the point come a point, the letter of a power, or the end. -/
theorem SpellsPower.head?_append {text rest : List Char} {power : Option (Bool × List Char)}
    (h : SpellsPower text power) (hrest : EndsNumber rest) :
    ∀ c ∈ (text ++ rest).head?, isDigit c = false ∧ c ≠ '.' := by
  intro c hc
  cases h with
  | none => exact ⟨(hrest c hc).1, (hrest c hc).2.1⟩
  | some hletter hsign hfound =>
    obtain rfl := Option.some.inj hc
    rcases hletter with rfl | rfl <;> decide

theorem SpellsFraction.head?_append {text rest : List Char} {fraction : Option (List Char)}
    (h : SpellsFraction text fraction) (hrest : ∀ c ∈ rest.head?, isDigit c = false) :
    ∀ c ∈ (text ++ rest).head?, isDigit c = false := by
  intro c hc
  cases h with
  | none => exact hrest c hc
  | some hfound =>
    obtain rfl := Option.some.inj hc
    rfl

/-- **A number is cut off where something else begins.** -/
theorem NumberLexeme.scan_of_spells {text rest : List Char} {l : NumberLexeme}
    (h : SpellsNumber text l) (hrest : EndsNumber rest) : scan (text ++ rest) = .ok (l, rest) := by
  obtain ⟨negative, hwhole, hzero, hfraction, hpower⟩ := h
  have hbehindFraction := hpower.head?_append hrest
  have hbehindWhole := hfraction.head?_append fun c hc => (hbehindFraction c hc).1
  simp only [scan, List.append_assoc, minusSign_append hwhole,
    wholeDigits_append hwhole hzero hbehindWhole, fractionDigits_append hfraction hbehindFraction,
    powerDigits_append hpower hrest, bind, Except.bind]
  rfl

/-! ### Tokens -/

/-- The letters of a word. -/
def Word.letters : Word → List Char
  | null => ['n', 'u', 'l', 'l']
  | true => ['t', 'r', 'u', 'e']
  | false => ['f', 'a', 'l', 's', 'e']

/-- The texts of a token. -/
inductive SpellsToken : List Char → Token → Prop
  | openBrace : SpellsToken ['\x7b'] .openBrace
  | closeBrace : SpellsToken ['\x7d'] .closeBrace
  | openBracket : SpellsToken ['['] .openBracket
  | closeBracket : SpellsToken [']'] .closeBracket
  | comma : SpellsToken [','] .comma
  | colon : SpellsToken [':'] .colon
  | word (word : Word) : SpellsToken word.letters (.word (.ok word))
  | string {text : List Char} {pieces : List Piece} (h : SpellsPieces text pieces) :
    SpellsToken ('"' :: (text ++ ['"'])) (.string ⟨pieces, none⟩)
  | number {text : List Char} {l : NumberLexeme} (h : SpellsNumber text l) :
    SpellsToken text (.number (.ok l))

/-- What may come behind a token without white space: anything, but for a number. -/
def Token.EndsBefore (rest : List Char) : Token → Prop
  | number _ => EndsNumber rest
  | _ => True

/-- The texts of tokens one after the other, with any white space between them. -/
inductive Spells : List Char → List Token → Prop
  | nil : Spells [] []
  | space {c : Char} {text : List Char} {tokens : List Token} (hc : isSpace c = true)
    (h : Spells text tokens) : Spells (c :: text) tokens
  | token {front text : List Char} {t : Token} {tokens : List Token} (hfront : SpellsToken front t)
    (hends : t.EndsBefore text) (h : Spells text tokens) : Spells (front ++ text) (t :: tokens)

theorem isSpace_of_isDigit {c : Char} (h : isDigit c = true) : isSpace c = false := by
  rw [Bool.eq_false_iff]
  intro hspace
  simp only [isSpace, Bool.or_eq_true, beq_iff_eq] at hspace
  rcases hspace with ((rfl | rfl) | rfl) | rfl
  all_goals exact absurd h (by decide)

theorem lex_space {c : Char} (h : isSpace c = true) (text : List Char) :
    lex (c :: text) = lex text := by
  rw [lex]
  simp [h]

theorem lex_cons {c : Char} (h : isSpace c = false) (text : List Char) :
    lex (c :: text) = (tokenFrom c text).1 :: lex (tokenFrom c text).2 := by
  rw [lex]
  simp [h]

theorem tokenFrom_number {c : Char} (h : c = '-' ∨ isDigit c = true) (text : List Char) :
    tokenFrom c text = numberToken (c :: text) := by
  rw [tokenFrom.eq_def]
  split
  case h_11 => rw [if_pos h]
  all_goals exact absurd h (by decide)

/-- **The lexer finds a token** at the front of a text. -/
theorem SpellsToken.lex_append {front rest : List Char} {t : Token} (h : SpellsToken front t)
    (hends : t.EndsBefore rest) : lex (front ++ rest) = t :: lex rest := by
  cases h with
  | openBrace | closeBrace | openBracket | closeBracket | comma | colon => exact lex_cons rfl rest
  | word word => cases word <;> exact lex_cons rfl _
  | @string text pieces h =>
    have htoken : tokenFrom '"' (text ++ '"' :: rest) = (.string ⟨pieces, none⟩, rest) := by
      show stringToken _ = _
      rw [stringToken, StringLexeme.scan_of_spells h]
    rw [List.cons_append, List.append_assoc, List.singleton_append, lex_cons rfl, htoken]
  | @number _ l h =>
    obtain ⟨c, text, rfl, hc⟩ := h.exists_cons
    have hspace : isSpace c = false := by
      rcases hc with rfl | hc
      · rfl
      · exact isSpace_of_isDigit hc
    have hscan : NumberLexeme.scan (c :: (text ++ rest)) = .ok (l, rest) :=
      NumberLexeme.scan_of_spells h hends
    rw [List.cons_append, lex_cons hspace, tokenFrom_number hc, numberToken, hscan]

/-- **The lexer finds the tokens that a text spells.** -/
theorem Spells.lex_eq {text : List Char} {tokens : List Token} (h : Spells text tokens) :
    lex text = tokens := by
  induction h with
  | nil => rw [lex]
  | space hc h ih => rw [lex_space hc, ih]
  | token hfront hends h ih => rw [hfront.lex_append hends, ih]

end RowLayout.Json
