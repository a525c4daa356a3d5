/-!
# Sums in a limited number of bits

Vertical positions are 32-bit pixels and horizontal ones 64-bit cells. A position that would pass
the largest value stays at it, so a layout that is taller or wider than its unit can express is cut
off at the edge instead of starting again from zero.

Not every sum has such a ceiling. The width that a row would have with one more character, and the
number of the next row, are sums of 64 bits whose carry is lost.

## Main definitions

* `cappedAdd` — addition that stops at a ceiling
* `addPixels`, `addCells` — the two ceilings in use
* `low64` — what 64 bits keep of a sum without a ceiling

## Main results

* `cappedAdd_cappedAdd` — adding in two steps is adding the sum, whatever the ceiling
* `cappedAdd_of_le` — below the ceiling nothing is lost
* `low64_add_low64` — nor does it matter when the carry of a sum is dropped
* `low64_of_le` — where there is no carry nothing is lost
-/

namespace RowLayout

/-- The sum of `a` and `b`, or `ceiling` where the sum is larger. -/
def cappedAdd (ceiling a b : Nat) : Nat := min (a + b) ceiling

theorem cappedAdd_le (ceiling a b : Nat) : cappedAdd ceiling a b ≤ ceiling := by
  simp only [cappedAdd]; omega

theorem cappedAdd_of_le {ceiling a b : Nat} (h : a + b ≤ ceiling) :
    cappedAdd ceiling a b = a + b := by
  simp only [cappedAdd]; omega

/-- A ceiling does not see in how many steps it was reached. -/
theorem cappedAdd_cappedAdd (ceiling a b c : Nat) :
    cappedAdd ceiling (cappedAdd ceiling a b) c = cappedAdd ceiling a (b + c) := by
  simp only [cappedAdd]; omega

/-! ### The two units -/

/-- The largest vertical position: the largest whole number of 32 bits. -/
def maxPixels : Nat := 0xFFFFFFFF

/-- The largest horizontal position: the largest whole number of 64 bits. -/
def maxCells : Nat := 0xFFFFFFFFFFFFFFFF

/-- Addition of heights and vertical positions. -/
def addPixels (a b : Nat) : Nat := cappedAdd maxPixels a b

/-- Addition of widths and horizontal positions. -/
def addCells (a b : Nat) : Nat := cappedAdd maxCells a b

theorem addPixels_le (a b : Nat) : addPixels a b ≤ maxPixels := cappedAdd_le ..

theorem addPixels_addPixels (a b c : Nat) :
    addPixels (addPixels a b) c = addPixels a (b + c) := cappedAdd_cappedAdd ..

theorem addCells_le (a b : Nat) : addCells a b ≤ maxCells := cappedAdd_le ..

theorem addCells_of_le {a b : Nat} (h : a + b ≤ maxCells) : addCells a b = a + b :=
  cappedAdd_of_le h

/-! ### Sums without a ceiling -/

/-- The largest whole number of 64 bits. -/
def max64 : Nat := 0xFFFFFFFFFFFFFFFF

/-- The lowest 64 bits of a number. -/
def low64 (n : Nat) : Nat := n % (max64 + 1)

theorem low64_le (n : Nat) : low64 n ≤ max64 := Nat.le_of_lt_succ (Nat.mod_lt n (by decide))

theorem low64_of_le {n : Nat} (h : n ≤ max64) : low64 n = n :=
  Nat.mod_eq_of_lt (Nat.lt_succ_of_le h)

theorem low64_of_le_maxCells {n : Nat} (h : n ≤ maxCells) : low64 n = n := low64_of_le h

/-- The carry of a sum can be dropped on the way or at the end. -/
theorem low64_add_low64 (m n : Nat) : low64 (low64 m + n) = low64 (m + n) :=
  Nat.mod_add_mod m _ n

end RowLayout
