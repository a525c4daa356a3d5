import Mathlib.Algebra.GroupWithZero.Nat
import Mathlib.Algebra.Order.BigOperators.Group.List
import Mathlib.Algebra.Order.Group.Nat
import RowLayout.Text.Document
import RowLayout.Wrap.Points

/-!
# The rows of a wrapped line

The points at which a line is cut divide it into rows. A row reaches as far as its characters take
it, each measured where it stands in the uncut line, and behind the first row as far again as the
rows of the line are indented.

Cells are counted up to a ceiling, so the end of a text is the sum of the widths of its characters,
or the ceiling. Where the whole line stays below it, cells are plain sums throughout, and the cells
of a stretch are the difference of the cells at which it ends and begins.

## Main definitions

* `cellWidths`, `cellAt` — how wide the characters of a line are, and where they begin
* `Span.cells`, `Span.reach` — the cells of a row of a line, without and with its indentation
* `Span.Fits` — a row ends within the viewport, unless it is a single character
* `wrapRows` — the rows of a line
* `AfterBlank`, `Unbroken` — places behind a blank, and stretches without blanks

## Main results

* `textEnd_eq` — the end of a text is a sum with a ceiling
* `cellAt_add_cells` — the cells of a row lead from its start to its stop
-/

namespace RowLayout

/-! ### The characters of a line -/

/-- The cells that each character of a text takes which begins at cell `cell`. -/
def cellWidths (tab : Nat) : Nat → List Char → List Nat
  | _, [] => []
  | cell, c :: rest =>
    let w := cellWidth tab cell c
    w :: cellWidths tab (addCells cell w) rest

/-- The cell at which the character at an index of a line begins. -/
def cellAt (tab : Nat) (text : List Char) (i : Nat) : Nat := textWidth tab (text.take i)

variable {tab cell i j : Nat} {text : List Char}

/-- **The end of a text is the sum of its widths,** up to the ceiling. -/
theorem textEnd_eq (h : cell ≤ maxCells) :
    textEnd tab cell text = addCells cell (cellWidths tab cell text).sum := by
  induction text generalizing cell with
  | nil => rw [textEnd_nil, cellWidths, List.sum_nil, addCells_of_le h, Nat.add_zero]
  | cons c rest ih =>
    rw [textEnd_cons, ih (addCells_le ..), cellWidths, List.sum_cons]
    exact cappedAdd_cappedAdd ..

theorem textWidth_le (tab : Nat) (text : List Char) : textWidth tab text ≤ maxCells := by
  rw [textWidth, textEnd_eq (Nat.zero_le _)]
  exact addCells_le ..

theorem take_cellWidths (tab cell : Nat) (text : List Char) (i : Nat) :
    (cellWidths tab cell text).take i = cellWidths tab cell (text.take i) := by
  induction text generalizing cell i with
  | nil => simp [cellWidths]
  | cons c rest ih =>
    cases i with
    | zero => rfl
    | succ i => simp only [cellWidths, List.take_succ_cons, ih]

theorem getElem?_cellWidths (tab cell : Nat) (text : List Char) (i : Nat) :
    (cellWidths tab cell text)[i]? =
      text[i]?.map (cellWidth tab (textEnd tab cell (text.take i))) := by
  induction text generalizing cell i with
  | nil => rfl
  | cons c rest ih =>
    cases i with
    | zero => rfl
    | succ i => exact ih (addCells cell (cellWidth tab cell c)) i

theorem sum_take_le (xs : List Nat) (i : Nat) : (xs.take i).sum ≤ xs.sum :=
  (List.take_sublist i xs).sum_le_sum fun _ _ => Nat.zero_le _

/-- Where the widths of a line add up below the ceiling, a character begins where the widths of
those in front of it end. -/
theorem cellAt_eq_sum (hsum : (cellWidths tab 0 text).sum ≤ maxCells) (i : Nat) :
    cellAt tab text i = ((cellWidths tab 0 text).take i).sum := by
  have hle := sum_take_le (cellWidths tab 0 text) i
  rw [cellAt, textWidth, textEnd_eq (Nat.zero_le _), ← take_cellWidths]
  simp only [addCells, cappedAdd]
  omega

/-- The widths of a line that stays below the ceiling do. -/
theorem sum_cellWidths_le (hbelow : textWidth tab text < maxCells) :
    (cellWidths tab 0 text).sum ≤ maxCells := by
  rw [textWidth, textEnd_eq (Nat.zero_le _)] at hbelow
  simp only [addCells, cappedAdd] at hbelow
  omega

@[simp]
theorem cellAt_zero (tab : Nat) (text : List Char) : cellAt tab text 0 = 0 := rfl

theorem cellAt_of_length_le (h : text.length ≤ i) : cellAt tab text i = textWidth tab text := by
  rw [cellAt, List.take_of_length_le h]

/-- A character begins one width behind the one in front of it. -/
theorem cellAt_succ {c : Char} (hc : text[i]? = some c) :
    cellAt tab text (i + 1) =
      addCells (cellAt tab text i) (cellWidth tab (cellAt tab text i) c) := by
  rw [cellAt, List.take_add_one, hc, textWidth, textEnd_append]
  rfl

theorem cellAt_mono (hbelow : textWidth tab text < maxCells) (hij : i ≤ j) :
    cellAt tab text i ≤ cellAt tab text j := by
  have hle := sum_take_le ((cellWidths tab 0 text).take j) i
  rw [List.take_take, Nat.min_eq_left hij] at hle
  have hsum := sum_cellWidths_le hbelow
  rwa [cellAt_eq_sum hsum, cellAt_eq_sum hsum]

/-- Below the ceiling the cells between two characters are the width of the first one. -/
theorem cellAt_succ_of_lt (hbelow : textWidth tab text < maxCells) {c : Char}
    (hc : text[i]? = some c) :
    cellAt tab text (i + 1) = cellAt tab text i + cellWidth tab (cellAt tab text i) c := by
  have hlt : cellAt tab text (i + 1) < maxCells := by
    have hmono : cellAt tab text (i + 1) ≤ cellAt tab text text.length :=
      cellAt_mono hbelow (List.getElem?_eq_some_iff.mp hc).1
    rw [cellAt_of_length_le (Nat.le_refl _)] at hmono
    omega
  rw [cellAt_succ hc] at hlt ⊢
  simp only [addCells, cappedAdd] at hlt ⊢
  omega

/-! ### Rows -/

namespace Span

/-- The cells that the characters of a row take. -/
def cells (tab : Nat) (text : List Char) (row : Span) : Nat :=
  (((cellWidths tab 0 text).take row.stop).drop row.start).sum

/-- The indentation of a row: the first row of a line has none. -/
def indented (indent : Nat) (row : Span) : Nat := if row.start = 0 then 0 else indent

/-- The cell of the viewport at which a row ends. -/
def reach (indent tab : Nat) (text : List Char) (row : Span) : Nat :=
  row.indented indent + row.cells tab text

/-- A row ends within the viewport, unless it is a single character, which is too wide by itself
in that case. -/
def Fits (width indent tab : Nat) (text : List Char) (row : Span) : Prop :=
  row.reach indent tab text ≤ width ∨ row.stop = row.start + 1

instance (width indent tab : Nat) (text : List Char) (row : Span) :
    Decidable (row.Fits width indent tab text) :=
  inferInstanceAs (Decidable (_ ∨ _))

end Span

/-- Two rows, one behind the other, have the cells of both together. -/
theorem Span.cells_append {r : Nat} (tab : Nat) (text : List Char) (hri : r ≤ i) (hij : i ≤ j) :
    (Span.mk r i).cells tab text + (Span.mk i j).cells tab text = (Span.mk r j).cells tab text := by
  have hsplit := congrArg List.sum
    (List.take_append_drop (i - r) (((cellWidths tab 0 text).take j).drop r))
  rwa [List.sum_append, List.take_drop, List.drop_drop, Nat.add_sub_cancel' hri, List.take_take,
    Nat.min_eq_left hij] at hsplit

/-- A character begins where the cells of those in front of it end. -/
theorem cellAt_eq_cells (hsum : (cellWidths tab 0 text).sum ≤ maxCells) (i : Nat) :
    cellAt tab text i = (Span.mk 0 i).cells tab text :=
  cellAt_eq_sum hsum i

/-- **The cells of a row lead from its start to its stop.** -/
theorem cellAt_add_cells (hbelow : textWidth tab text < maxCells) (hij : i ≤ j) :
    cellAt tab text i + (Span.mk i j).cells tab text = cellAt tab text j := by
  have hsum := sum_cellWidths_le hbelow
  rw [cellAt_eq_cells hsum, cellAt_eq_cells hsum]
  exact Span.cells_append tab text (Nat.zero_le i) hij

namespace Span

variable {width indent r : Nat} {c : Char}

theorem indented_le (indent : Nat) (row : Span) : row.indented indent ≤ indent := by
  rw [indented]
  split
  · exact Nat.zero_le indent
  · exact Nat.le_refl indent

theorem reach_first (indent tab : Nat) (text : List Char) (i : Nat) :
    (Span.mk 0 i).reach indent tab text = (Span.mk 0 i).cells tab text := by
  simp [reach, indented]

@[simp]
theorem reach_self (indent tab : Nat) (text : List Char) (r : Nat) :
    (Span.mk r r).reach indent tab text = if r = 0 then 0 else indent := by
  simp [reach, indented, cells]

theorem reach_self_le (indent tab : Nat) (text : List Char) (r : Nat) :
    (Span.mk r r).reach indent tab text ≤ indent := by
  rw [reach_self]
  exact indented_le indent ⟨r, r⟩

/-- A row that begins later, and ends no later, has no more cells. -/
theorem cells_mono {r' : Nat} (tab : Nat) (text : List Char) (hr : r' ≤ r) (hij : i ≤ j) :
    (Span.mk r i).cells tab text ≤ (Span.mk r' j).cells tab text := by
  have hstop : (((cellWidths tab 0 text).take i).drop r).Sublist
      (((cellWidths tab 0 text).take j).drop r) := (List.take_sublist_take_left hij).drop r
  exact (hstop.trans (List.drop_sublist_drop_left _ hr)).sum_le_sum fun _ _ => Nat.zero_le _

/-- A row has more cells by those of a character that is put on it. -/
theorem cells_add_width (hri : r ≤ i) (hc : text[i]? = some c) :
    (Span.mk r i).cells tab text + cellWidth tab (cellAt tab text i) c =
      (Span.mk r (i + 1)).cells tab text := by
  have hwidth : (cellWidths tab 0 text)[i]? = some (cellWidth tab (cellAt tab text i) c) := by
    rw [getElem?_cellWidths, hc]
    rfl
  have hlength : r ≤ ((cellWidths tab 0 text).take i).length := by
    have hlt := (List.getElem?_eq_some_iff.mp hwidth).1
    rw [List.length_take]
    omega
  simp only [cells]
  rw [List.take_add_one, hwidth, Option.toList_some, List.drop_append_of_le_length hlength,
    List.sum_append, List.sum_singleton]

/-- A row reaches from its indentation as far as it has cells. -/
theorem reach_add_cellAt (hbelow : textWidth tab text < maxCells) (hri : r ≤ i) (indent : Nat) :
    (Span.mk r i).reach indent tab text + cellAt tab text r =
      (if r = 0 then 0 else indent) + cellAt tab text i := by
  rw [reach, Nat.add_assoc, Nat.add_comm (cells ..), cellAt_add_cells hbelow hri]
  rfl

theorem reach_zero (hbelow : textWidth tab text < maxCells) (i indent : Nat) :
    (Span.mk 0 i).reach indent tab text = cellAt tab text i := by
  simpa using reach_add_cellAt hbelow (Nat.zero_le i) indent

theorem reach_mono (tab : Nat) (text : List Char) (hij : i ≤ j) (indent : Nat) :
    (Span.mk r i).reach indent tab text ≤ (Span.mk r j).reach indent tab text :=
  Nat.add_le_add_left (cells_mono tab text (Nat.le_refl r) hij) _

/-- A row reaches further by a character that is put on it. -/
theorem reach_add_width (hri : r ≤ i) (hc : text[i]? = some c) (indent : Nat) :
    (Span.mk r i).reach indent tab text + cellWidth tab (cellAt tab text i) c =
      (Span.mk r (i + 1)).reach indent tab text := by
  rw [reach, Nat.add_assoc, cells_add_width hri hc]
  rfl

/-- A part of a row that fits, from its start, fits as well. -/
theorem Fits.shorter (hrow : (Span.mk r j).Fits width indent tab text) (hri : r < i)
    (hij : i ≤ j) : (Span.mk r i).Fits width indent tab text := by
  rcases hrow with hreach | hsingle
  · exact .inl (Nat.le_trans (reach_mono tab text hij indent) hreach)
  · simp only at hsingle
    refine .inr ?_
    simp only
    omega

end Span

/-- No character ends behind the end of its line. -/
theorem cellAt_add_width_le {c : Char} (hsum : (cellWidths tab 0 text).sum ≤ maxCells)
    (hc : text[i]? = some c) :
    cellAt tab text i + cellWidth tab (cellAt tab text i) c ≤ textWidth tab text := by
  have hi : i + 1 ≤ text.length := (List.getElem?_eq_some_iff.mp hc).1
  calc cellAt tab text i + cellWidth tab (cellAt tab text i) c
      = (Span.mk 0 i).cells tab text + cellWidth tab (cellAt tab text i) c :=
        by rw [← cellAt_eq_cells hsum i]
    _ = (Span.mk 0 (i + 1)).cells tab text := Span.cells_add_width (Nat.zero_le i) hc
    _ ≤ (Span.mk 0 text.length).cells tab text :=
        Span.cells_mono tab text (Nat.le_refl 0) hi
    _ = cellAt tab text text.length := (cellAt_eq_cells hsum _).symm
    _ = textWidth tab text := cellAt_of_length_le (Nat.le_refl _)

/-- The stretches between points, from `start` up to `stop`. -/
def rowSpans (start : Nat) (points : List Nat) (stop : Nat) : List Span :=
  List.zipWith Span.mk (start :: points) (points ++ [stop])

@[simp]
theorem rowSpans_nil (start stop : Nat) : rowSpans start [] stop = [⟨start, stop⟩] := rfl

@[simp]
theorem rowSpans_cons (start p : Nat) (points : List Nat) (stop : Nat) :
    rowSpans start (p :: points) stop = ⟨start, p⟩ :: rowSpans p points stop := rfl

/-- The rows of a line in a viewport of `width` cells. -/
def wrapRows (mode : WrapMode) (indent : WrapIndent) (width tab : Nat) (text : List Char) :
    List Span :=
  rowSpans 0 (wrapPoints mode indent width tab text) text.length

/-! ### Blanks -/

/-- The character in front of an index is blank. -/
def AfterBlank (text : List Char) (i : Nat) : Prop :=
  ∃ j c, i = j + 1 ∧ text[j]? = some c ∧ isBlank c = true

/-- No character from one index up to another is blank. -/
def Unbroken (text : List Char) (i j : Nat) : Prop :=
  ∀ k c, i ≤ k → k < j → text[k]? = some c → isBlank c = false

theorem AfterBlank.pos (h : AfterBlank text i) : 0 < i := by
  obtain ⟨j, _, rfl, -⟩ := h
  exact Nat.succ_pos j

theorem Unbroken.refl (text : List Char) (i : Nat) : Unbroken text i i :=
  fun _ _ hik hki => absurd hki (Nat.not_lt.mpr hik)

theorem Unbroken.succ {c : Char} (h : Unbroken text i j) (hc : text[j]? = some c)
    (hblank : isBlank c = false) : Unbroken text i (j + 1) := by
  intro k d hik hkj hd
  rcases Nat.lt_succ_iff_lt_or_eq.mp hkj with hlt | rfl
  · exact h k d hik hlt hd
  · obtain rfl : c = d := Option.some.inj (hc.symm.trans hd)
    exact hblank

/-- A stretch without blanks has no place behind a blank inside it. -/
theorem AfterBlank.le_of_unbroken {b : Nat} (hb : AfterBlank text b) (h : Unbroken text i j)
    (hbj : b ≤ j) : b ≤ i := by
  obtain ⟨k, c, rfl, hc, hblank⟩ := hb
  refine Nat.le_of_not_lt fun hik => ?_
  have hnot := h k c (Nat.le_of_lt_succ hik) hbj hc
  exact Bool.false_ne_true (hnot.symm.trans hblank)

end RowLayout
