import RowLayout.Proofs.ViewRuns

/-!
# Resuming a walk

A cursor can begin at any row whose start and top are known, and tells from there on what a walk
from the first row tells after it has passed the rows in front. Nothing is asked of the layout but
order: soft wraps at the front of the text or in a fold, folds that nest, cross or reach past the
text, and rows that begin after many hidden lines make no difference.

## Main definitions

* `Measures.TakenFrom` — measures that tell what a row table tells about its rows

## Main results

* `Cursor.rest_atRow` — resuming at a row by measures taken from the table of the layout
* `View.Sound.rows_eq` — the rows of a sound view are those of a walk over its layout
* `Cursor.resuming_equals_walking` — both, for every row of every layout and every view
-/

namespace RowLayout

/-- The measures tell how many rows a table has, and where each of its rows starts. What they tell
about other rows does not matter. -/
structure Measures.TakenFrom (measures : Measures) (t : RowTable) : Prop where
  rowCount_eq : measures.rowCount = t.rowCount
  startOf_eq : ∀ n origin, t.origin? n = some origin → measures.startOf n = origin.offset
  yOf_eq : ∀ n origin, t.origin? n = some origin → measures.yOf n = origin.y

theorem RowTable.takenFrom_measures (t : RowTable) (textLength : Nat) :
    (t.measures textLength).TakenFrom t where
  rowCount_eq := rfl
  startOf_eq n origin horigin := by simp [measures, horigin]
  yOf_eq n origin horigin := by simp [measures, horigin]

section Layouts

variable {lay : Layout} {measures : Measures} {n : Nat}

theorem RowTable.rowCount_ofLayout (lay : Layout) :
    (ofLayout lay).rowCount = ((Location.first lay).rows lay).length := by
  simp [ofLayout, rowCount]

theorem RowTable.origin?_ofLayout (lay : Layout) (n : Nat) :
    (ofLayout lay).origin? n = ((Location.first lay).rows lay)[n]?.map Row.origin := by
  simp [ofLayout, origin?]

namespace Cursor

theorem rest_atFirstRow (lay : Layout) :
    (atFirstRow lay).rest.1 = (Location.first lay).rows lay := rest_eq_rows _ rfl

/-- A cursor past the last row tells nothing. -/
theorem rest_atRow_of_le (h : measures.rowCount ≤ n) : (atRow lay measures n).rest.1 = [] := by
  rw [rest_eq_rows _ rfl]
  refine Location.rows_of_start_eq_none ?_
  simp [atRow, Location.atRow, h, Location.nowhere]

/-- A cursor made from measures tells the rows of a walk from its row on. -/
theorem rest_atRow (hlay : lay.Ordered) (h : measures.TakenFrom (.ofLayout lay)) (n : Nat) :
    (atRow lay measures n).rest.1 = ((Location.first lay).rows lay).drop n := by
  have hcount := h.rowCount_eq.trans (RowTable.rowCount_ofLayout lay)
  rcases Nat.lt_or_ge n measures.rowCount with hn | hn
  · cases n with
    | zero =>
      rw [rest_eq_rows _ rfl, List.drop_zero]
      simp [atRow, Location.atRow, Nat.not_le_of_lt hn]
    | succ n =>
      obtain ⟨row, hrow⟩ : ∃ row, ((Location.first lay).rows lay)[n + 1]? = some row :=
        ⟨_, List.getElem?_eq_getElem (hcount ▸ hn)⟩
      have horigin : (RowTable.ofLayout lay).origin? (n + 1) = some row.origin := by
        rw [RowTable.origin?_ofLayout, hrow, Option.map_some]
      have hlocation : (atRow lay measures (n + 1)).location =
          Location.placed lay (low64 (n + 1)) row.start row.y := by
        show Location.atRow lay measures (n + 1) = _
        rw [Location.atRow, if_neg (Nat.not_le_of_lt hn), if_neg (Nat.succ_ne_zero n),
          h.startOf_eq _ _ horigin, h.yOf_eq _ _ horigin]
        rfl
      have hindex : (Location.first lay).index + (n + 1) = n + 1 := Nat.zero_add _
      rw [Location.drop_rows hlay (Location.settled_first lay) hrow, hindex, rest_eq_rows _ rfl,
        hlocation]
      rfl
  · rw [rest_atRow_of_le hn, List.drop_of_length_le (by omega)]

end Cursor

end Layouts

namespace View

variable {v : View}

theorem Sound.rowsFrom_eq (h : v.Sound) (n : Nat) :
    v.rowsFrom n = ((Location.first v.layout).rows v.layout).drop n := by
  refine Cursor.rest_atRow h.regular.toOrdered ?_ n
  rw [← h.table_eq]
  exact v.table.takenFrom_measures _

/-- The rows of a sound view are those of a walk over its layout. -/
theorem Sound.rows_eq (h : v.Sound) : v.rows = (Location.first v.layout).rows v.layout :=
  (h.rowsFrom_eq 0).trans List.drop_zero

theorem Sound.rowCount_eq (h : v.Sound) : v.rowCount = v.rows.length := by
  rw [h.rows_eq, rowCount, h.table_eq, RowTable.rowCount_ofLayout]

end View

/-! ### The main statement -/

/-- **Resuming a walk at a row is the walk without the rows in front of it.** Measures may be
whatever tells of each row what the table of the layout tells; nothing is left to tell past the
last row, and only there. In the same way a view tells its rows from any row on. -/
theorem Cursor.resuming_equals_walking :
    (∀ (lay : Layout) (measures : Measures), lay.Ordered → measures.TakenFrom (.ofLayout lay) →
      ∀ n, (atRow lay measures n).rest.1 = (atFirstRow lay).rest.1.drop n ∧
        ((atRow lay measures n).rest.1 = [] ↔ (RowTable.ofLayout lay).rowCount ≤ n)) ∧
      ∀ v : View, v.Reachable → ∀ n, v.rowsFrom n = v.rows.drop n := by
  refine ⟨fun lay measures hlay h n => ⟨?_, ?_⟩, fun v hv n => ?_⟩
  · rw [rest_atRow hlay h, rest_atFirstRow]
  · rw [rest_atRow hlay h, List.drop_eq_nil_iff, RowTable.rowCount_ofLayout]
  · rw [hv.sound.rowsFrom_eq, hv.sound.rows_eq]

/-- Three lines, the second of which a fold hides, with soft wraps at the front of the text and in
the fold. -/
def Layout.wrappedInFront : Layout where
  document := .ofText ['a', 'b', '\n', 'c', 'd', '\n', 'e', 'f']
  folds := [.plain 1 5 true]
  wraps := [⟨0, 0⟩, ⟨4, 0⟩]
  inlays := [⟨0, 4, 7, .block⟩]
  lineHeight := 10

theorem Layout.ordered_wrappedInFront : Layout.wrappedInFront.Ordered where
  folds := by decide
  wraps := by decide
  inlays := by decide

theorem Cursor.resuming_wrappedInFront :
    (atRow .wrappedInFront ((RowTable.ofLayout .wrappedInFront).measures 8) 2).rest.1 =
        (atFirstRow .wrappedInFront).rest.1.drop 2 ∧
      (atFirstRow .wrappedInFront).rest.1.map Row.start = [0, 0, 4, 6] ∧
      View.threeLines.rowsFrom 1 = View.threeLines.rows.drop 1 := by
  refine ⟨?_, by decide +kernel, resuming_equals_walking.2 _ (View.reachable_threeLines []) 1⟩
  exact (resuming_equals_walking.1 _ _ Layout.ordered_wrappedInFront
    (RowTable.takenFrom_measures _ 8) 2).1

end RowLayout
