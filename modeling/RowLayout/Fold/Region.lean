/-!
# Fold regions

A fold region is a range of offsets, both ends included. While it is collapsed, lines that start
inside it get no row of their own; the line on which it starts stays visible.

## Main definitions

* `FoldRegion` — a range, whether it is collapsed, and what is shown in its place
* `FoldRegion.Contains`, `Hides` — the offsets in a region, and those it would hide
* `FoldRegion.Encloses`, `Crosses` — how two ranges lie to each other

Regions are ordered by their start, and of two that start together the longer one comes first
(`FoldRegion.Precedes`), so that in an ordered list a region comes after those that enclose it.
-/

namespace RowLayout

/-- A range of text that can be collapsed to one row. -/
structure FoldRegion where
  start : Nat
  stop : Nat
  collapsed : Bool
  placeholder : String
deriving DecidableEq, Repr, Inhabited

namespace FoldRegion

/-- What stands for a collapsed region unless something else is asked for. -/
def defaultPlaceholder : String := "[...]"

/-- A region with the usual placeholder. -/
def plain (start stop : Nat) (collapsed : Bool) : FoldRegion :=
  ⟨start, stop, collapsed, defaultPlaceholder⟩

/-! ### Opening and closing -/

/-- Hide what the region covers. -/
def collapse (r : FoldRegion) : FoldRegion := { r with collapsed := true }

/-- Show what the region covers. -/
def expand (r : FoldRegion) : FoldRegion := { r with collapsed := false }

/-- Change between the two. -/
def toggle (r : FoldRegion) : FoldRegion := { r with collapsed := !r.collapsed }

@[simp]
theorem toggle_toggle (r : FoldRegion) : r.toggle.toggle = r := by simp [toggle]

/-! ### Offsets and ranges -/

/-- The offset lies in the region. -/
def Contains (r : FoldRegion) (offset : Nat) : Prop := r.start ≤ offset ∧ offset ≤ r.stop

/-- A line that starts at the offset has no row of its own while the region is collapsed. -/
def Hides (r : FoldRegion) (offset : Nat) : Prop := r.start < offset ∧ offset ≤ r.stop

/-- The region covers all of the other one. -/
def Encloses (r other : FoldRegion) : Prop := r.start ≤ other.start ∧ other.stop ≤ r.stop

/-- The regions have the same range. -/
def SameRange (r other : FoldRegion) : Prop := r.start = other.start ∧ r.stop = other.stop

/-- One region starts strictly inside the other and stops strictly outside. -/
def Crosses (r other : FoldRegion) : Prop :=
  (other.start < r.start ∧ r.start < other.stop ∧ other.stop < r.stop) ∨
    (r.start < other.start ∧ other.start < r.stop ∧ r.stop < other.stop)

/-- The order of regions in a list: by start, the longer one first. -/
def Precedes (r other : FoldRegion) : Prop :=
  r.start < other.start ∨ (r.start = other.start ∧ other.stop < r.stop)

instance (r : FoldRegion) (offset : Nat) : Decidable (r.Contains offset) :=
  inferInstanceAs (Decidable (_ ∧ _))

instance (r : FoldRegion) (offset : Nat) : Decidable (r.Hides offset) :=
  inferInstanceAs (Decidable (_ ∧ _))

instance (r other : FoldRegion) : Decidable (r.Encloses other) :=
  inferInstanceAs (Decidable (_ ∧ _))

instance (r other : FoldRegion) : Decidable (r.SameRange other) :=
  inferInstanceAs (Decidable (_ ∧ _))

instance (r other : FoldRegion) : Decidable (r.Crosses other) :=
  inferInstanceAs (Decidable (_ ∨ _))

instance (r other : FoldRegion) : Decidable (r.Precedes other) :=
  inferInstanceAs (Decidable (_ ∨ _))

theorem crosses_comm {r other : FoldRegion} : r.Crosses other ↔ other.Crosses r := by
  simp only [Crosses]; omega

theorem Encloses.trans {a b c : FoldRegion} (hab : a.Encloses b) (hbc : b.Encloses c) :
    a.Encloses c := by
  simp only [Encloses] at *; omega

/-- Of two regions that do not cross, one encloses the other or they have no inner offset in
common. -/
theorem nested_or_apart {a b : FoldRegion} (h : ¬ a.Crosses b) :
    a.Encloses b ∨ b.Encloses a ∨ a.stop ≤ b.start ∨ b.stop ≤ a.start := by
  simp only [Crosses, Encloses] at *; omega

end FoldRegion

end RowLayout
