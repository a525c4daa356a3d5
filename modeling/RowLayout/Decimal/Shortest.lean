/-!
# The shortest decimal of a binary number

A binary floating point number stands for every real number that is rounded to it. Of the decimals
in that interval the shortest is the one on the coarsest grid of powers of ten; of two neighbours
on that grid the nearer to the number itself is taken, and of two equally near the one with even
digits.

All comparisons are made exactly, between natural numbers.

## Main definitions

* `Decimal` — digits and a power of ten
* `RoundingInterval` — the numbers that round to a given one
* `Decimal.shortest?` — the shortest decimal of a float
* `Decimal.Style`, `Decimal.text` — how a decimal is written
-/

namespace RowLayout

/-- The number `digits · 10 ^ exponent`. -/
structure Decimal where
  digits : Nat
  exponent : Int
deriving DecidableEq, Repr

/-! ### Rounding intervals -/

/-- The numbers that round to `centre / scale`: those from `low / scale` to `high / scale`. -/
structure RoundingInterval where
  low : Nat
  centre : Nat
  high : Nat
  scale : Nat
  /-- Whether the ends round to the centre as well. -/
  closed : Bool
deriving DecidableEq, Repr

namespace RoundingInterval

/-- The bit in front of the 52 bits of a fraction. -/
def hiddenBit : Nat := 0x10000000000000

/-- The interval of a positive finite float, given by its bits. A half step reaches to either
neighbour, and below a power of two the neighbour is only half as far. The ends go to the number
whose last bit is zero. -/
def ofBits (bits : Nat) : RoundingInterval :=
  let biased := bits / hiddenBit % 0x800
  let fraction := bits % hiddenBit
  let mantissa := if biased = 0 then fraction else hiddenBit + fraction
  let below := if fraction = 0 ∧ 1 < biased then 1 else 2
  -- the weight of a quarter of the last bit is `2 ^ (place - 1076)`
  let place := max biased 1 - 1
  let weight := Nat.pow 2 (place - 1076)
  { low := (4 * mantissa - below) * weight
    centre := 4 * mantissa * weight
    high := (4 * mantissa + 2) * weight
    scale := Nat.pow 2 (1076 - place)
    closed := mantissa % 2 = 0 }

/-- Whether a fraction rounds to the centre. -/
def holds (i : RoundingInterval) (num den : Nat) : Bool :=
  let x := num * i.scale
  if i.closed then i.low * den ≤ x && x ≤ i.high * den
  else i.low * den < x && x < i.high * den

end RoundingInterval

/-! ### Search -/

namespace Decimal

/-- The decimal on the grid of multiples of `10 ^ exponent` that rounds to the centre of an
interval and lies nearest to it, if there is one. A centre in the middle between two goes to the
even one. -/
def onGrid? (i : RoundingInterval) (exponent : Int) : Option Decimal :=
  let num := Nat.pow 10 exponent.toNat
  let den := Nat.pow 10 (-exponent).toNat
  let below := i.centre * den / (i.scale * num)
  let gapBelow := i.centre * den - below * (i.scale * num)
  let gapAbove := (below + 1) * (i.scale * num) - i.centre * den
  let lower := i.holds (below * num) den
  let upper := i.holds ((below + 1) * num) den
  let lowerIsNearer := gapBelow < gapAbove || gapBelow == gapAbove && below % 2 == 0
  if lower && (!upper || lowerIsNearer) then some ⟨below, exponent⟩
  else if upper then some ⟨below + 1, exponent⟩
  else none

/-- The shortest decimal of a positive finite float, given by its bits; zero has none. Its exponent
lies between 309 and −344. -/
def shortest? (bits : Nat) : Option Decimal :=
  if bits = 0 then none
  else (List.range 654).findSome? fun (step : Nat) => onGrid? (.ofBits bits) (309 - step)

/-! ### Text -/

/-- How decimals are written: in full while the decimal point falls into a certain range, and
otherwise with one digit before the point and a power of ten. -/
structure Style where
  /-- The point may follow at most this many digits. -/
  lastPoint : Int
  /-- Between the point and the first digit there are fewer zeros than this. -/
  zeros : Int
  /-- What stands before a power of ten that is not negative. -/
  positiveMark : String
  /-- What stands before a negative power of ten. -/
  negativeMark : String

/-- The text of a positive decimal. In full it always has a decimal point. -/
def text (style : Style) (d : Decimal) : String :=
  let digits := Nat.toDigits 10 d.digits
  let point := digits.length + d.exponent
  let written (whole fraction : List Char) : String :=
    String.ofList (whole ++ '.' :: fraction)
  if 0 < point ∧ point ≤ style.lastPoint then
    let padded := digits ++ List.replicate d.exponent.toNat '0'
    let fraction := padded.drop point.toNat
    written (padded.take point.toNat) (if fraction.isEmpty then ['0'] else fraction)
  else if -style.zeros < point ∧ point ≤ 0 then
    written ['0'] (List.replicate (-point).toNat '0' ++ digits)
  else
    let mark := if 0 < point then style.positiveMark else style.negativeMark
    let mantissa :=
      match digits with
      | first :: second :: rest => written [first] (second :: rest)
      | short => String.ofList short
    mantissa ++ mark ++ toString (point - 1).natAbs

end Decimal

end RowLayout
