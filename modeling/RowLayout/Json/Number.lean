import RowLayout.Decimal.Shortest
import RowLayout.Json.Lexeme

/-!
# Numbers of a document

A number without point and power of ten is an integer if it fits 64 bits, with or without a sign.
Every other number is a float. Its digits are first taken as one whole number of at most 64 bits,
dropping those that do not fit, and that number is then moved by a power of ten; both steps round.

## Main definitions

* `Number` — an integer or a float
* `NumberLexeme.value` — the value of a number that is kept
* `Number.text` — the text of a number in a message
-/

namespace RowLayout.Json

/-- The value of a number. -/
inductive Number where
  | natural (n : Nat)
  /-- The number `-n`, where `n` is not zero. -/
  | minus (n : Nat)
  /-- A float, given by its sign and its magnitude. -/
  | float (negative : Bool) (magnitude : Float)

/-- The largest whole number the digits of a number are collected in. -/
def maxDigits : Nat := 0xFFFFFFFFFFFFFFFF

/-- Digits collected in a whole number, and those from the first one on that does not fit. -/
def collect : Nat → List Char → Nat × List Char
  | n, [] => (n, [])
  | n, c :: rest =>
    let m := n * 10 + digitValue c
    if m ≤ maxDigits then collect m rest else (n, c :: rest)

/-- The value of a list of digits. -/
def digitsValue (digits : List Char) : Nat := digits.foldl (fun n c => n * 10 + digitValue c) 0

/-! ### Powers of ten -/

/-- The largest power of ten that is a float. -/
def maxPower : Nat := 308

/-- A power of ten as a float, up to the largest. -/
def powerOfTen (k : Nat) : Float := Float.ofScientific 1 false k

/-- A float divided by a power of ten, in steps that are floats themselves. -/
def divideByPower (x : Float) (k : Nat) : Float :=
  if k ≤ maxPower then x / powerOfTen k
  else if x == 0 then x
  else divideByPower (x / powerOfTen maxPower) (k - maxPower)
termination_by k
decreasing_by simp_all only [maxPower]; omega

/-- A float multiplied by a power of ten, if the product is finite. -/
def multiplyByPower? (x : Float) (k : Nat) : Option Float :=
  if k ≤ maxPower then
    let product := x * powerOfTen k
    if product.isInf then none else some product
  else if x == 0 then some x
  else none

/-- The float nearest to `significand · 10 ^ exponent` as far as two roundings find it, if it is
finite. -/
def floatOf? (significand : Nat) (exponent : Int) : Option Float :=
  let x := significand.toUInt64.toFloat
  if 0 ≤ exponent then multiplyByPower? x exponent.toNat
  else some (divideByPower x (-exponent).toNat)

/-! ### Values -/

/-- The largest magnitude of a negative integer: one more than that of a positive one that has a
sign bit. -/
def maxNegated : Nat := 0x8000000000000000

/-- The integer given by a sign and a magnitude. The negative numbers of 64 bits are one more than
the positive ones, and zero has a sign only as a float. -/
def signedInteger (negative : Bool) (n : Nat) : Number :=
  if !negative then .natural n
  else if 0 < n ∧ n ≤ maxNegated then .minus n
  else .float true n.toUInt64.toFloat

/-- The value of a number that is kept. A float that is not finite is malformed. -/
def NumberLexeme.value (l : NumberLexeme) : Except Fault Number :=
  let (wholePart, dropped) := collect 0 l.whole
  if l.fraction.isNone ∧ l.power.isNone ∧ dropped.isEmpty then
    .ok (signedInteger l.negative wholePart)
  else
    let fraction := l.fraction.getD []
    let (significand, unused) := collect wholePart fraction
    let moved : Int := dropped.length - (fraction.length - unused.length : Nat)
    let power : Int :=
      match l.power with
      | none => 0
      | some (true, found) => -(digitsValue found : Int)
      | some (false, found) => digitsValue found
    match floatOf? significand (moved + power) with
    | some x => .ok (.float l.negative x)
    | none => .error .malformed

/-! ### Text -/

/-- How floats are written: in full from a hundred-thousandth up to sixteen digits before the
point. -/
def floatStyle : Decimal.Style := ⟨16, 5, "e+", "e-"⟩

/-- The text of a float that is not negative. Zero, which has no shortest decimal, has a point like
every other float. -/
def floatText (x : Float) : String :=
  match Decimal.shortest? x.toBits.toNat with
  | some d => d.text floatStyle
  | none => "0.0"

/-- The text of a number. -/
def Number.text : Number → String
  | natural n => toString n
  | minus n => s!"-{n}"
  | float negative x => (if negative then "-" else "") ++ floatText x

end RowLayout.Json
