import RowLayout.Proofs.RowStarts

/-!
# The rows of a layout, computed the obvious way

Everything that is known of a row can be read off the layout directly: where it starts from the
set of row starts, how far the lists have been passed by counting what comes before its start, and
how far down it lies from the inlays between its start and the next one. A walk finds all of this
in one pass.

## Main definitions

* `Layout.inlaysBetween` — the inlays anchored at or after one offset and before another
* `totalBlockHeight`, `tallestInline` — the space they take, whatever the line height

## Main results

* `Layout.rows_agree_with_naive_layout` — the rows of a walk are those of the naive layout
-/

namespace RowLayout

/-! ### The space taken by inlays -/

/-- The heights of all block inlays together. -/
def totalBlockHeight (inlays : List Inlay) : Nat :=
  ((inlays.filter (·.kind = .block)).map Inlay.height).foldr (· + ·) 0

/-- The height of the tallest inline inlay, or zero if there is none. -/
def tallestInline (inlays : List Inlay) : Nat :=
  ((inlays.filter (·.kind = .inline)).map Inlay.height).foldr max 0

theorem blockHeight_eq_total (inlays : List Inlay) :
    blockHeight inlays = totalBlockHeight inlays := by
  rw [blockHeight, ← List.sum_eq_foldl_nat, totalBlockHeight, heightsOf]
  rfl

theorem rowHeight_eq_max (lineHeight : Nat) (inlays : List Inlay) :
    rowHeight lineHeight inlays = max lineHeight (tallestInline inlays) := by
  induction inlays generalizing lineHeight with
  | nil => simp [rowHeight, heightsOf, tallestInline]
  | cons i rest ih =>
    cases h : i.kind with
    | block =>
      rw [rowHeight_cons_block h, ih]
      simp [tallestInline, h]
    | inline =>
      rw [rowHeight_cons_inline h, ih, Nat.max_assoc]
      simp [tallestInline, h]

/-- The band of a row is a line of text, its block inlays, and what the tallest inline inlay
stands out above the text. -/
theorem bandHeight_eq (lineHeight : Nat) (inlays : List Inlay) :
    bandHeight lineHeight inlays =
      lineHeight + totalBlockHeight inlays + (tallestInline inlays - lineHeight) := by
  rw [bandHeight, rowHeight_eq_max, blockHeight_eq_total]
  omega

/-- The inlays anchored at or after `start` and before `stop`. -/
def Layout.inlaysBetween (lay : Layout) (start stop : Nat) : List Inlay :=
  lay.inlays.filter fun i => start ≤ i.offset ∧ i.offset < stop

namespace Location

variable {lay : Layout} {o o' index y n : Nat} {row : Row}

/-! ### What a placed row tells -/

/-- The marks of a placed row count what comes before it. -/
theorem row_placed (hlay : lay.Ordered) (index o y : Nat) :
    ((placed lay index o y).row lay o).index = index ∧
      ((placed lay index o y).row lay o).line = lay.document.lineOf o ∧
      ((placed lay index o y).row lay o).foldIndex = lay.folds.countP (·.start < o) ∧
      ((placed lay index o y).row lay o).inlayIndex = lay.inlays.countP (·.offset < o) := by
  refine ⟨rfl, rfl, ?_, ?_⟩
  · rw [← countWhile_eq_countP (pairwise_before hlay.folds o)]
    exact Nat.zero_add _
  · rw [← countWhile_eq_countP (pairwise_before hlay.inlays o)]
    exact Nat.zero_add _

/-- The soft wrap of a placed row is the last one up to its start. -/
theorem wrapIndex_placed (hlay : lay.Ordered) (index o y k : Nat) :
    ((placed lay index o y).row lay o).wrapIndex = some k ↔
      IsGreatest {j | ∃ w, lay.wraps[j]? = some w ∧ w.offset ≤ o} k := by
  have hlast : ((placed lay index o y).row lay o).wrapIndex =
      lastWhile? (·.offset ≤ o) lay.wraps := Mark.last?_passWhile_atFront _ _
  rw [hlast, lastWhile?_eq_some_iff_last (pairwise_upTo hlay.sorted.wraps o)]
  simp only [decide_eq_true_eq]
  constructor
  · rintro ⟨hk, hmax⟩
    refine ⟨hk, ?_⟩
    rintro j ⟨w, hw, hle⟩
    exact hmax j w hw hle
  · rintro ⟨hk, hmax⟩
    exact ⟨hk, fun j w hw hle => hmax ⟨w, hw, hle⟩⟩

/-- The row below a placed row lies below the band of the inlays between the two. -/
theorem top_next_placed (hlay : lay.Ordered)
    (hnext : ((placed lay index o y).next lay).start = some o') :
    ((placed lay index o y).next lay).y =
      addPixels y (bandHeight lay.lineHeight (lay.inlaysBetween o o')) := by
  have hbetween : (placed lay index o y).inlays.ahead.takeWhile (·.offset < o') =
      lay.inlaysBetween o o' := takeWhile_dropWhile_before hlay.inlays o o'
  rw [next_eq_placed hlay (settled_placed hlay.sorted ..) hnext, hbetween]
  exact topBelow_eq ..

theorem y_next_placed (hlay : lay.Ordered)
    (hnext : ((placed lay index o y).next lay).start = some o') :
    ((placed lay index o y).next lay).y =
      min (2 ^ 32 - 1) (y + lay.lineHeight + totalBlockHeight (lay.inlaysBetween o o') +
        (tallestInline (lay.inlaysBetween o o') - lay.lineHeight)) := by
  rw [top_next_placed hlay hnext, bandHeight_eq, addPixels, cappedAdd, Nat.min_comm, maxPixels]
  congr 1
  omega

/-! ### The rows of a walk -/

/-- Every row of a regular layout is placed by its start, and the walk goes on from there. -/
theorem getElem?_rows_first (hlay : lay.Regular) (hrow : ((first lay).rows lay)[n]? = some row) :
    ((first lay).rows lay).drop n = (placed lay (low64 n) row.start row.y).rows lay ∧
      row = (placed lay (low64 n) row.start row.y).row lay row.start := by
  have hdrop : ((first lay).rows lay).drop n =
      (placed lay (low64 n) row.start row.y).rows lay := by
    cases n with
    | zero =>
      obtain ⟨hstart, hrow⟩ := start_of_getElem?_zero hrow
      have hy : row.y = 0 := by rw [hrow, row_y]; rfl
      rw [hy, ← Option.some.inj hstart, low64_of_le (by decide), ← first_eq_placed hlay]
      rfl
    | succ n =>
      have := drop_rows hlay.toOrdered (settled_first lay) hrow
      rwa [show (first lay).index + (n + 1) = n + 1 from Nat.zero_add _] at this
  refine ⟨hdrop, ?_⟩
  have hhead : ((placed lay (low64 n) row.start row.y).rows lay)[0]? = some row := by
    rw [← hdrop, List.getElem?_drop]
    exact hrow
  exact (start_of_getElem?_zero hhead).2

/-- The next row of a regular layout is the one to which its place leads. -/
theorem start_next_of_getElem?_rows (hlay : lay.Regular) {row' : Row}
    (hrow : ((first lay).rows lay)[n]? = some row)
    (hrow' : ((first lay).rows lay)[n + 1]? = some row') :
    ((placed lay (low64 n) row.start row.y).next lay).start = some row'.start ∧
      ((placed lay (low64 n) row.start row.y).next lay).y = row'.y := by
  have hdrop := (getElem?_rows_first hlay hrow).1
  have hplaced : (placed lay (low64 n) row.start row.y).start = some row.start := rfl
  rw [rows_of_start hplaced] at hdrop
  have hhead : (((placed lay (low64 n) row.start row.y).next lay).rows lay)[0]? = some row' := by
    rw [← hrow', ← List.getElem?_drop, hdrop, List.getElem?_cons_succ]
  obtain ⟨hstart, hrow'⟩ := start_of_getElem?_zero hhead
  exact ⟨hstart, by rw [hrow', row_y]⟩

end Location

/-! ### The main statement -/

/-- **A walk finds the rows of the naive layout.** The rows begin at the row starts, in order.
Each row tells how many rows come before it, as far as 64 bits can tell, on which line it begins,
how many folds and inlays begin before it, and which soft wrap is the last one up to its start. The
first row is at the top; below a row come a line of text, the block inlays anchored before the next
row, and what the tallest inline inlay there stands out above the text, as far as 32 bits reach. -/
theorem Layout.rows_agree_with_naive_layout {lay : Layout} (hlay : lay.Regular) :
    (Cursor.atFirstRow lay).rest.1.map Row.start = lay.rowStarts.sort ∧
      ∀ (n : Nat) (row : Row), (Cursor.atFirstRow lay).rest.1[n]? = some row →
        row.index = low64 n ∧
        row.line = lay.document.lineOf row.start ∧
        row.foldIndex = lay.folds.countP (·.start < row.start) ∧
        (∀ k : Nat, row.wrapIndex = some k ↔
          IsGreatest {j : Nat | ∃ w, lay.wraps[j]? = some w ∧ w.offset ≤ row.start} k) ∧
        row.inlayIndex = lay.inlays.countP (·.offset < row.start) ∧
        (n = 0 → row.y = 0) ∧
        ∀ row' : Row, (Cursor.atFirstRow lay).rest.1[n + 1]? = some row' →
          row'.y = min (2 ^ 32 - 1) (row.y + lay.lineHeight +
            totalBlockHeight (lay.inlaysBetween row.start row'.start) +
            (tallestInline (lay.inlaysBetween row.start row'.start) - lay.lineHeight)) := by
  have hrest : (Cursor.atFirstRow lay).rest.1 = (Location.first lay).rows lay :=
    Cursor.rest_eq_rows _ rfl
  rw [hrest]
  refine ⟨Location.map_start_rows hlay, fun n row hrow => ?_⟩
  have hplaced := (Location.getElem?_rows_first hlay hrow).2
  obtain ⟨hindex, hline, hfolds, hinlays⟩ :=
    Location.row_placed hlay.toOrdered (low64 n) row.start row.y
  have hwraps := Location.wrapIndex_placed hlay.toOrdered (low64 n) row.start row.y
  rw [← hplaced] at hindex hline hfolds hinlays hwraps
  refine ⟨hindex, hline, hfolds, hwraps, hinlays, fun hn => ?_, fun row' hrow' => ?_⟩
  · subst hn
    rw [(Location.start_of_getElem?_zero hrow).2, Location.row_y]
    rfl
  · obtain ⟨hstart, hy⟩ := Location.start_next_of_getElem?_rows hlay hrow hrow'
    rw [← hy, Location.y_next_placed hlay.toOrdered hstart]

/-- Four lines. One fold hides the third and holds another fold, a third fold reaches past the
text; one soft wrap stands on a line start and one past the text. -/
def Layout.tangled : Layout where
  document := .ofText
    ['a', 'b', 'c', 'd', 'e', 'f', 'g', 'h', '\n', 'i', 'j', '\n', 'k', 'l', '\n', 'm', 'n']
  folds := [.plain 9 14 true, .plain 10 12 true, .plain 16 30 true]
  wraps := [⟨4, 0⟩, ⟨9, 0⟩, ⟨40, 0⟩]
  inlays := [⟨0, 1, 7, .block⟩, ⟨1, 5, 30, .inline⟩, ⟨2, 5, 20, .inline⟩]
  lineHeight := 10

theorem Layout.regular_tangled : Layout.tangled.Regular where
  folds := by decide
  wraps := by decide
  inlays := by decide
  wraps_pos := by decide
  wraps_shown := by decide

theorem Layout.naive_rows_of_tangled :
    Layout.tangled.Regular ∧ Layout.tangled.rowStarts = {0, 4, 9, 15, 40} ∧
      (Cursor.atFirstRow .tangled).rest.1.map Row.start = Layout.tangled.rowStarts.sort :=
  ⟨regular_tangled, by decide, (rows_agree_with_naive_layout regular_tangled).1⟩

end RowLayout
