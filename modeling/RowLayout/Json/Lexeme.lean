/-!
# Strings and numbers as they stand in a document

The two lexemes of JSON that are more than a word or a mark. Both are first cut out of the text as
they stand, and their parts are kept; what is wrong with them is told by a *fault*.

A lexeme can be read in two ways. To be *kept* it must have a value: its surrogates must come in
pairs, its size must be in range. To be *skipped* it must only have the right form.

## Main definitions

* `Fault` — the text ended too early, or had the wrong character
* `StringLexeme.scan`, `StringLexeme.text`, `StringLexeme.skip` — strings
* `NumberLexeme.scan`, `NumberLexeme.value`, `NumberLexeme.skip` — numbers
-/

namespace RowLayout.Json

/-- What can be wrong with the form of a document. -/
inductive Fault where
  /-- The text ends where more is needed. -/
  | truncated
  /-- The text has a character that cannot stand where it stands. -/
  | malformed
deriving DecidableEq, Repr

/-! ### Strings -/

/-- One character of a string as it stands: a character, or a 16-bit unit given by its number. -/
inductive Piece where
  | char (c : Char)
  | unit (code : Nat)
deriving DecidableEq, Repr

/-- A string as it stands, as far as its form is right, and what is wrong then. -/
structure StringLexeme where
  pieces : List Piece
  fault : Option Fault
deriving DecidableEq, Repr

/-- The value of a hexadecimal digit. -/
def hexDigit? (c : Char) : Option Nat :=
  if '0' ≤ c ∧ c ≤ '9' then some (c.toNat - '0'.toNat)
  else if 'a' ≤ c ∧ c ≤ 'f' then some (c.toNat - 'a'.toNat + 10)
  else if 'A' ≤ c ∧ c ≤ 'F' then some (c.toNat - 'A'.toNat + 10)
  else none

/-- The number written by four hexadecimal digits. -/
def hexUnit? (a b c d : Char) : Option Nat := do
  return (((← hexDigit? a) * 16 + (← hexDigit? b)) * 16 + (← hexDigit? c)) * 16 + (← hexDigit? d)

/-- The character meant by one behind a backslash. -/
def escaped? : Char → Option Char
  | '"' => some '"'
  | '\\' => some '\\'
  | '/' => some '/'
  | 'b' => some '\x08'
  | 'f' => some '\x0c'
  | 'n' => some '\n'
  | 'r' => some '\r'
  | 't' => some '\t'
  | _ => none

/-- What is wrong with fewer than four characters where the digits of a 16-bit unit are needed. The
digits take four bytes; a text shorter than that has ended too early. -/
def shortUnitFault (rest : List Char) : Fault :=
  if rest.foldl (fun n c => n + c.utf8Size) 0 < 4 then .truncated else .malformed

namespace StringLexeme

/-- Put a piece in front. -/
def push (p : Piece) (s : StringLexeme × List Char) : StringLexeme × List Char :=
  (⟨p :: s.1.pieces, s.1.fault⟩, s.2)

/-- A string that ends here with a fault. -/
def faulty (fault : Fault) : StringLexeme × List Char := (⟨[], some fault⟩, [])

/-- Cut a string out of a text that begins behind the opening quote. The result has the string
and the text behind the closing quote. -/
def scan : List Char → StringLexeme × List Char
  | [] => faulty .truncated
  | '"' :: rest => (⟨[], none⟩, rest)
  | '\\' :: rest =>
    match rest with
    | [] => faulty .truncated
    | 'u' :: a :: b :: c :: d :: rest =>
      match hexUnit? a b c d with
      | some code => push (.unit code) (scan rest)
      | none => faulty .malformed
    | 'u' :: rest => faulty (shortUnitFault rest)
    | e :: rest =>
      match escaped? e with
      | some c => push (.char c) (scan rest)
      | none => faulty .malformed
  | c :: rest => if c.toNat < 0x20 then faulty .malformed else push (.char c) (scan rest)

/-- A string takes up nothing behind the text it was cut out of. -/
theorem length_scan_le (text : List Char) : (scan text).2.length ≤ text.length := by
  fun_induction scan text <;> simp_all [push, faulty] <;> omega

/-- Whether a 16-bit unit is the first of a pair. -/
def leads (code : Nat) : Bool := 0xD800 ≤ code && code < 0xDC00

/-- Whether a 16-bit unit is the second of a pair. -/
def trails (code : Nat) : Bool := 0xDC00 ≤ code && code < 0xE000

/-- The character written by a pair of 16-bit units. -/
def pairChar (lead trail : Nat) : Char :=
  Char.ofNat (0x10000 + (lead - 0xD800) * 0x400 + (trail - 0xDC00))

/-- The characters of a string, if its 16-bit units come in pairs where they have to. Where both a
unit and the form of the string are wrong, what stands first counts. -/
def textOf (fault : Option Fault) : List Piece → Except Fault (List Char)
  | [] =>
    match fault with
    | none => .ok []
    | some fault => .error fault
  | .char c :: rest => (c :: ·) <$> textOf fault rest
  | [.unit code] =>
    if trails code then .error .malformed
    else if leads code then .error (fault.getD .malformed)
    else (Char.ofNat code :: ·) <$> textOf fault []
  | .unit code :: .char c :: rest =>
    if trails code || leads code then .error .malformed
    else (Char.ofNat code :: ·) <$> textOf fault (.char c :: rest)
  | .unit code :: .unit next :: rest =>
    if trails code then .error .malformed
    else if leads code then
      if trails next then (pairChar code next :: ·) <$> textOf fault rest else .error .malformed
    else (Char.ofNat code :: ·) <$> textOf fault (.unit next :: rest)

/-- The characters of a string that is kept. -/
def text (s : StringLexeme) : Except Fault (List Char) := textOf s.fault s.pieces

/-- Whether a string can be skipped. -/
def skip (s : StringLexeme) : Except Fault Unit :=
  match s.fault with
  | none => .ok ()
  | some fault => .error fault

end StringLexeme

/-! ### Numbers -/

/-- A number as it stands: its sign and its digits before and behind the point, and its power of
ten with a sign of its own. -/
structure NumberLexeme where
  negative : Bool
  whole : List Char
  fraction : Option (List Char)
  power : Option (Bool × List Char)
deriving DecidableEq, Repr

/-- Whether a character is a digit. -/
def isDigit (c : Char) : Bool := '0' ≤ c && c ≤ '9'

/-- The value of a digit. -/
def digitValue (c : Char) : Nat := c.toNat - '0'.toNat

/-- What is wrong where a digit is needed but the given text follows. -/
def missingDigit (rest : List Char) : Fault :=
  if rest.isEmpty then .truncated else .malformed

/-- One or more digits at the front of a text, and the text behind them. -/
def digits (text : List Char) : Except Fault (List Char × List Char) :=
  let rest := text.dropWhile isDigit
  match text.takeWhile isDigit with
  | [] => .error (missingDigit rest)
  | found => .ok (found, rest)

/-- A whole number: a zero does not stand before other digits. -/
def wholeDigits (text : List Char) : Except Fault (List Char × List Char) := do
  let (found, rest) ← digits text
  if found.head? = some '0' ∧ 1 < found.length then .error .malformed else return (found, rest)

/-- The digits behind a point, if there is a point. -/
def fractionDigits : List Char → Except Fault (Option (List Char) × List Char)
  | '.' :: text => do
    let (found, rest) ← digits text
    return (some found, rest)
  | text => return (none, text)

/-- A sign, if there is one; whether it is a minus sign, and the text behind it. -/
def powerSign : List Char → Bool × List Char
  | '+' :: text => (false, text)
  | '-' :: text => (true, text)
  | text => (false, text)

/-- The power of ten, if there is one. -/
def powerDigits : List Char → Except Fault (Option (Bool × List Char) × List Char)
  | c :: text =>
    if c = 'e' ∨ c = 'E' then do
      let (negative, text) := powerSign text
      let (found, rest) ← digits text
      return (some (negative, found), rest)
    else return (none, c :: text)
  | [] => return (none, [])

/-- A minus sign, if there is one, and the text behind it. -/
def minusSign : List Char → Bool × List Char
  | '-' :: text => (true, text)
  | text => (false, text)

/-- Cut a number out of a text that begins with its first character. -/
def NumberLexeme.scan (text : List Char) : Except Fault (NumberLexeme × List Char) := do
  let sign := minusSign text
  let whole ← wholeDigits sign.2
  let fraction ← fractionDigits whole.2
  let power ← powerDigits fraction.2
  return (⟨sign.1, whole.1, fraction.1, power.1⟩, power.2)

/-! ### What a number takes up -/

theorem length_digits_lt {text found rest : List Char} (h : digits text = .ok (found, rest)) :
    rest.length < text.length := by
  rw [digits] at h
  split at h
  · simp at h
  · next hne =>
    simp only [Except.ok.injEq, Prod.mk.injEq] at h
    have happ := congrArg List.length (@List.takeWhile_append_dropWhile _ isDigit text)
    rw [List.length_append, h.2] at happ
    have : 0 < (text.takeWhile isDigit).length := List.length_pos_iff.mpr (by simpa using hne)
    omega

theorem length_wholeDigits_lt {text found rest : List Char}
    (h : wholeDigits text = .ok (found, rest)) : rest.length < text.length := by
  rw [wholeDigits] at h
  cases hd : digits text with
  | error fault => simp [hd, bind, Except.bind] at h
  | ok p =>
    obtain ⟨part, tail⟩ := p
    have := length_digits_lt hd
    simp only [hd, bind, Except.bind, pure, Except.pure] at h
    split at h
    · simp at h
    · simp only [Except.ok.injEq, Prod.mk.injEq] at h
      rw [← h.2]; exact this

theorem length_fractionDigits_le {text rest : List Char} {found : Option (List Char)}
    (h : fractionDigits text = .ok (found, rest)) : rest.length ≤ text.length := by
  rw [fractionDigits.eq_def] at h
  split at h
  · next text =>
    cases hd : digits text with
    | error fault => simp [hd, bind, Except.bind] at h
    | ok p =>
      obtain ⟨part, tail⟩ := p
      have := length_digits_lt hd
      simp only [hd, bind, Except.bind, pure, Except.pure, Except.ok.injEq, Prod.mk.injEq] at h
      rw [← h.2, List.length_cons]; omega
  · simp only [pure, Except.pure, Except.ok.injEq, Prod.mk.injEq] at h
    exact h.2 ▸ Nat.le_refl _

theorem length_powerSign_le (text : List Char) : (powerSign text).2.length ≤ text.length := by
  rw [powerSign.eq_def]
  split <;> simp

theorem length_powerDigits_le {text rest : List Char} {found : Option (Bool × List Char)}
    (h : powerDigits text = .ok (found, rest)) : rest.length ≤ text.length := by
  rw [powerDigits.eq_def] at h
  split at h
  · next c text =>
    split at h
    · have hs := length_powerSign_le text
      cases hd : digits (powerSign text).2 with
      | error fault => simp [hd, bind, Except.bind] at h
      | ok p =>
        obtain ⟨part, tail⟩ := p
        have := length_digits_lt hd
        simp only [hd, bind, Except.bind, pure, Except.pure, Except.ok.injEq,
          Prod.mk.injEq] at h
        rw [← h.2, List.length_cons]; omega
    · simp only [pure, Except.pure, Except.ok.injEq, Prod.mk.injEq] at h
      exact h.2 ▸ Nat.le_refl _
  · simp only [pure, Except.pure, Except.ok.injEq, Prod.mk.injEq] at h
    exact h.2 ▸ Nat.le_refl _

theorem length_minusSign_le (text : List Char) : (minusSign text).2.length ≤ text.length := by
  rw [minusSign.eq_def]
  split <;> simp

/-- A number takes up at least one character. -/
theorem NumberLexeme.length_scan_lt {text rest : List Char} {l : NumberLexeme}
    (h : scan text = .ok (l, rest)) : rest.length < text.length := by
  rw [scan] at h
  have hsign := length_minusSign_le text
  cases hw : wholeDigits (minusSign text).2 with
  | error fault => simp [hw, bind, Except.bind] at h
  | ok whole =>
    have hwhole := length_wholeDigits_lt hw
    cases hf : fractionDigits whole.2 with
    | error fault => simp [hw, hf, bind, Except.bind] at h
    | ok fraction =>
      have hfraction := length_fractionDigits_le hf
      cases hp : powerDigits fraction.2 with
      | error fault => simp [hw, hf, hp, bind, Except.bind] at h
      | ok power =>
        have hpower := length_powerDigits_le hp
        simp only [hw, hf, hp, bind, Except.bind, pure, Except.pure, Except.ok.injEq,
          Prod.mk.injEq] at h
        rw [← h.2]; omega

end RowLayout.Json
