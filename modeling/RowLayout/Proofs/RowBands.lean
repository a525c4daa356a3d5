import RowLayout.Proofs.RowSpans

/-!
# The bands of rows

From the top of a row to the top of the row below it, or to the bottom of everything, is the band
of the row. It makes room for all inlays anchored at or after the start of the row and before the
start of the row below. The height of a row counts fewer inlays: only those that it bears, anchored
at its start or among its characters. What is anchored behind the last character of a row but in
front of the row below, at the end of a line or in a line break, makes the band taller and not the
row. So a row and its block inlays fill the band unless such an inlay is taller than the row.

## Main definitions

* `Row.Bears` — an inlay stands on a row
* `View.rowBottom` — where the band of a row stops
* `View.rowInlays` — the inlays in the band of a row

## Main results

* `View.Sound.rowBottom_eq` — a band has room for its inlays, as far as 32 bits reach
* `View.Sound.height_eq` — the height of a row is that of the text and of what it bears
* `View.Sound.y_le`, `rowBottom_le_y`, `rowBottom_le_totalHeight` — bands lie one below the other
* `View.row_fills_band_iff` — which rows are as tall as their bands, block inlays apart
-/

namespace RowLayout

/-! ### The tallest inlay -/

theorem tallestInline_le_iff {inlays : List Inlay} {height : Nat} :
    tallestInline inlays ≤ height ↔ ∀ i ∈ inlays, i.kind = .inline → i.height ≤ height := by
  induction inlays with
  | nil => simp [tallestInline]
  | cons i rest ih =>
    have hrest : tallestInline (i :: rest) =
        if i.kind = .inline then max i.height (tallestInline rest) else tallestInline rest := by
      by_cases hkind : i.kind = .inline <;> simp [tallestInline, hkind]
    rw [hrest, List.forall_mem_cons, ← ih]
    by_cases hkind : i.kind = .inline
    · simp [hkind]
    · simp [hkind]

/-- A band has room for a line of text at least. -/
theorem le_bandHeight (lineHeight : Nat) (inlays : List Inlay) :
    lineHeight ≤ bandHeight lineHeight inlays :=
  (le_rowHeight lineHeight inlays).trans (Nat.le_add_right ..)

/-! ### Rows and the inlays on them -/

/-- An inlay stands on a row if it is anchored at the start of the row or at a character on it. -/
def Row.Bears (row : Row) (i : Inlay) : Prop := i.offset = row.start ∨ row.Holds i.offset

instance (row : Row) (i : Inlay) : Decidable (row.Bears i) :=
  inferInstanceAs (Decidable (i.offset = row.start ∨ row.Holds i.offset))

namespace Location

variable {lay : Layout} {n : Nat} {row : Row}

/-- Below the last row of a regular layout lies everything that is anchored on or after it. -/
theorem bottomAsLast_eq (hlay : lay.Regular) (hrow : ((first lay).rows lay)[n]? = some row) :
    row.bottomAsLast lay =
      addPixels row.y (bandHeight lay.lineHeight (lay.inlays.filter (row.start ≤ ·.offset))) := by
  have hindex : row.inlayIndex = countWhile (·.offset < row.start) lay.inlays := by
    rw [(getElem?_rows_first hlay hrow).2]
    exact Nat.zero_add _
  rw [Row.bottomAsLast, bottomBelow_eq, hindex, drop_countWhile,
    dropWhile_before hlay.inlays row.start]

/-- The height of a row counts the inlays from its start on, up to its stop if it has no
characters. -/
theorem height_eq (hlay : lay.Regular) (hrow : ((first lay).rows lay)[n]? = some row) :
    row.height = rowHeight lay.lineHeight (lay.inlays.filter fun i =>
      row.start ≤ i.offset ∧
        (i.offset < row.stop ∨ i.offset = row.stop ∧ row.stop ≤ row.start)) := by
  have hordered := hlay.inlays
  have hheight : row.height = rowHeight lay.lineHeight
      ((placed lay (low64 n) row.start row.y).inlaysUpTo row.start row.stop) := by
    rw [stop_eq_stopBefore hlay hrow]
    exact congrArg Row.height (getElem?_rows_first hlay hrow).2
  have hahead : (placed lay (low64 n) row.start row.y).inlays.ahead =
      lay.inlays.filter (row.start ≤ ·.offset) := dropWhile_before hordered row.start
  rw [hheight, inlaysUpTo, hahead, takeWhile_eq_filter, List.filter_filter]
  · congr 1
    refine List.filter_congr fun i _ => ?_
    simp [Bool.and_comm]
  · refine (hordered.filter _).imp fun {i j} hij hj => ?_
    simp only [Bool.or_eq_true, Bool.and_eq_true, decide_eq_true_eq] at hj ⊢
    omega

end Location

/-! ### The rows of a view -/

namespace View

variable {v : View} {n m : Nat} {row row' : Row}

/-- The bottom of the band of a row: the top of the row below, or the bottom of everything. -/
def rowBottom (v : View) (n : Nat) : Nat := (v.rows[n + 1]?.map Row.y).getD v.totalHeight

/-- The inlays in the band of a row: those anchored at or after its start and before the start of
the row below, if there is one. -/
def rowInlays (v : View) (n : Nat) (row : Row) : List Inlay :=
  v.inlays.inlays.filter fun i =>
    row.start ≤ i.offset && v.rows[n + 1]?.all fun next => i.offset < next.start

theorem rowBottom_of_some (h : v.rows[n + 1]? = some row) : v.rowBottom n = row.y := by
  simp [rowBottom, h]

theorem rowBottom_of_none (h : v.rows[n + 1]? = none) : v.rowBottom n = v.totalHeight := by
  simp [rowBottom, h]

theorem Sound.lineHeight_pos (h : v.Sound) : 0 < v.settings.lineHeight.toNat := by
  have hvalid := h.settings
  rw [Settings.validate] at hvalid
  split at hvalid
  · cases hvalid
  · next hzero => exact Nat.pos_of_ne_zero fun heq => hzero (UInt32.toNat_inj.mp heq)

theorem Sound.y_zero (h : v.Sound) (hrow : v.rows[0]? = some row) : row.y = 0 := by
  rw [h.rows_eq] at hrow
  rw [(Location.start_of_getElem?_zero hrow).2, Location.row_y]
  rfl

theorem Sound.totalHeight_eq (h : v.Sound) (hrow : v.rows[n]? = some row)
    (hlast : v.rows[n + 1]? = none) : v.totalHeight = row.bottomAsLast v.layout := by
  have hlength : v.rows.length - 1 = n := by
    have := (List.getElem?_eq_some_iff.mp hrow).1
    have := List.getElem?_eq_none_iff.mp hlast
    omega
  have hget : v.rows.getLast? = some row := by rw [List.getLast?_eq_getElem?, hlength, hrow]
  rw [h.rows_eq] at hget
  rw [totalHeight, h.table_eq, RowTable.ofLayout]
  simp [hget]

/-- **A band has room for its inlays:** a line of text or the tallest inline inlay, and all block
inlays, as far as 32 bits reach. -/
theorem Sound.rowBottom_eq (h : v.Sound) (hrow : v.rows[n]? = some row) :
    v.rowBottom n =
      addPixels row.y (bandHeight v.settings.lineHeight.toNat (v.rowInlays n row)) := by
  cases hnext : v.rows[n + 1]? with
  | none =>
    have hinlays : v.rowInlays n row = v.layout.inlays.filter (row.start ≤ ·.offset) := by
      simp [rowInlays, hnext, layout]
    rw [rowBottom_of_none hnext, h.totalHeight_eq hrow hnext, hinlays]
    rw [h.rows_eq] at hrow
    exact Location.bottomAsLast_eq h.regular hrow
  | some next =>
    have hinlays : v.rowInlays n row = v.layout.inlaysBetween row.start next.start := by
      simp [rowInlays, hnext, layout, Layout.inlaysBetween]
    rw [rowBottom_of_some hnext, hinlays]
    rw [h.rows_eq] at hrow hnext
    obtain ⟨hstart, hy⟩ := Location.start_next_of_getElem?_rows h.regular hrow hnext
    rw [← hy]
    exact Location.top_next_placed h.regular.toOrdered hstart

/-- **The height of a row** is that of a line of text, or of the tallest inline inlay that the row
bears. -/
theorem Sound.height_eq (h : v.Sound) (hrow : v.rows[n]? = some row) :
    row.height = max v.settings.lineHeight.toNat
      (tallestInline (v.inlays.inlays.filter fun i => row.Bears i)) := by
  have hle := h.start_le_stop hrow
  rw [h.rows_eq] at hrow
  rw [Location.height_eq h.regular hrow, rowHeight_eq_max]
  show max _ (tallestInline (v.inlays.inlays.filter _)) = _
  congr 2
  refine List.filter_congr fun i _ => decide_eq_decide.mpr ?_
  rw [Row.Bears, Row.Holds]
  omega

/-! ### Bands one below the other -/

theorem Sound.rowBottom_le_maxPixels (h : v.Sound) (hrow : v.rows[n]? = some row) :
    v.rowBottom n ≤ maxPixels := h.rowBottom_eq hrow ▸ addPixels_le ..

theorem Sound.y_le_maxPixels (h : v.Sound) (hrow : v.rows[n]? = some row) :
    row.y ≤ maxPixels := by
  cases n with
  | zero => exact h.y_zero hrow ▸ Nat.zero_le _
  | succ n =>
    obtain ⟨above, habove⟩ := exists_getElem?_of_le (Nat.le_succ n) hrow
    exact rowBottom_of_some hrow ▸ h.rowBottom_le_maxPixels habove

/-- A band is not empty unless it begins where 32 bits end. -/
theorem Sound.y_lt_rowBottom (h : v.Sound) (hrow : v.rows[n]? = some row)
    (hy : row.y < maxPixels) : row.y < v.rowBottom n := by
  have hpos := h.lineHeight_pos
  have hband := le_bandHeight v.settings.lineHeight.toNat (v.rowInlays n row)
  rw [h.rowBottom_eq hrow, addPixels, cappedAdd]
  omega

theorem Sound.y_le_rowBottom (h : v.Sound) (hrow : v.rows[n]? = some row) :
    row.y ≤ v.rowBottom n := by
  have hle := h.y_le_maxPixels hrow
  rw [h.rowBottom_eq hrow, addPixels, cappedAdd]
  omega

/-- Later rows are not higher up. -/
theorem Sound.y_le (h : v.Sound) (hnm : n ≤ m) (hrow : v.rows[n]? = some row)
    (hrow' : v.rows[m]? = some row') : row.y ≤ row'.y := by
  induction m, hnm using Nat.le_induction generalizing row' with
  | base =>
    obtain rfl : row = row' := Option.some.inj (hrow.symm.trans hrow')
    exact Nat.le_refl _
  | succ m hnm ih =>
    obtain ⟨above, habove⟩ := exists_getElem?_of_le (Nat.le_succ m) hrow'
    calc row.y ≤ above.y := ih habove
      _ ≤ v.rowBottom m := h.y_le_rowBottom habove
      _ = row'.y := rowBottom_of_some hrow'

/-- Bands do not overlap. -/
theorem Sound.rowBottom_le_y (h : v.Sound) (hnm : n < m) (hrow' : v.rows[m]? = some row') :
    v.rowBottom n ≤ row'.y := by
  obtain ⟨next, hnext⟩ := exists_getElem?_of_le (Nat.succ_le_of_lt hnm) hrow'
  rw [rowBottom_of_some hnext]
  exact h.y_le hnm hnext hrow'

theorem Sound.rowBottom_le_totalHeight (h : v.Sound) (n : Nat) :
    v.rowBottom n ≤ v.totalHeight := by
  cases hnext : v.rows[n + 1]? with
  | none => exact (rowBottom_of_none hnext).le
  | some next =>
    obtain ⟨k, last, hlast, hnone, -⟩ := h.exists_last
    have hnk : n < k := le_of_getElem?_succ_eq_none hnext hnone
    calc v.rowBottom n ≤ last.y := h.rowBottom_le_y hnk hlast
      _ ≤ v.rowBottom k := h.y_le_rowBottom hlast
      _ = v.totalHeight := rowBottom_of_none hnone

theorem Sound.totalHeight_le_maxPixels (h : v.Sound) : v.totalHeight ≤ maxPixels := by
  obtain ⟨k, last, hlast, hnone, -⟩ := h.exists_last
  exact rowBottom_of_none hnone ▸ h.rowBottom_le_maxPixels hlast

/-! ### Rows in their bands -/

theorem Sound.mem_rowInlays_of_bears (h : v.Sound) (hrow : v.rows[n]? = some row) {i : Inlay}
    (hi : i ∈ v.inlays.inlays) (hbears : row.Bears i) : i ∈ v.rowInlays n row := by
  have hstop := h.start_le_stop hrow
  rw [rowInlays, List.mem_filter, Bool.and_eq_true, decide_eq_true_eq]
  refine ⟨hi, ?_, ?_⟩
  · rcases hbears with heq | ⟨hle, -⟩
    · exact heq.ge
    · exact hle
  · cases hnext : v.rows[n + 1]? with
    | none => rfl
    | some next =>
      have hstart := h.start_lt (Nat.lt_succ_self n) hrow hnext
      have hapart := h.stop_le_start (Nat.lt_succ_self n) hrow hnext
      rw [Option.all_some, decide_eq_true_eq]
      rcases hbears with heq | ⟨-, hlt⟩
      · exact heq ▸ hstart
      · exact hlt.trans_le hapart

/-- A row is not taller than the text and the inlays of its band make it. -/
theorem Sound.height_le (h : v.Sound) (hrow : v.rows[n]? = some row) :
    row.height ≤ max v.settings.lineHeight.toNat (tallestInline (v.rowInlays n row)) := by
  rw [h.height_eq hrow]
  refine max_le_max (Nat.le_refl _) (tallestInline_le_iff.mpr fun i hi hkind => ?_)
  obtain ⟨hi, hbears⟩ := List.mem_filter.mp hi
  exact tallestInline_le_iff.mp (Nat.le_refl _) i
    (h.mem_rowInlays_of_bears hrow hi (of_decide_eq_true hbears)) hkind

theorem Sound.lineHeight_le_height (h : v.Sound) (hrow : v.rows[n]? = some row) :
    v.settings.lineHeight.toNat ≤ row.height := h.height_eq hrow ▸ Nat.le_max_left ..

theorem Sound.height_le_of_bears (h : v.Sound) (hrow : v.rows[n]? = some row) {i : Inlay}
    (hi : i ∈ v.inlays.inlays) (hkind : i.kind = .inline) (hbears : row.Bears i) :
    i.height ≤ row.height := by
  rw [h.height_eq hrow]
  exact (tallestInline_le_iff.mp (Nat.le_refl _) i
    (List.mem_filter.mpr ⟨hi, decide_eq_true hbears⟩) hkind).trans (Nat.le_max_right ..)

/-- As long as 32 bits reach, a band has room for its block inlays and, above them, for the row or
the tallest inline inlay of the band. -/
theorem Sound.rowBottom_eq_of_lt (h : v.Sound) (htotal : v.totalHeight < maxPixels)
    (hrow : v.rows[n]? = some row) :
    v.rowBottom n = row.y + max row.height (tallestInline (v.rowInlays n row)) +
      totalBlockHeight (v.rowInlays n row) := by
  have hlt := (h.rowBottom_le_totalHeight n).trans_lt htotal
  have hle := h.height_le hrow
  have hline := h.lineHeight_le_height hrow
  rw [h.rowBottom_eq hrow, bandHeight_eq, addPixels, cappedAdd] at hlt ⊢
  omega

/-! ### The main statement -/

/-- **Which rows fill their bands.** As long as the rows together stay below the largest position
that 32 bits can express, a row and the block inlays of its band fill the band if and only if no
inline inlay that is anchored behind the characters of the row, and in front of the row below, is
taller than the row. Otherwise the tallest of these inlays makes the band taller. -/
theorem row_fills_band_iff (h : v.Reachable) (htotal : v.totalHeight < 2 ^ 32 - 1)
    (hrow : v.rows[n]? = some row) :
    v.rowBottom n = row.y + max row.height (tallestInline (v.rowInlays n row)) +
        totalBlockHeight (v.rowInlays n row) ∧
      (v.rowBottom n = row.y + row.height + totalBlockHeight (v.rowInlays n row) ↔
        ∀ i ∈ v.rowInlays n row, i.kind = .inline → ¬ row.Bears i → i.height ≤ row.height) := by
  have hsound := h.sound
  have hbottom := hsound.rowBottom_eq_of_lt htotal hrow
  have htallest : (∀ i ∈ v.rowInlays n row, i.kind = .inline → ¬ row.Bears i →
      i.height ≤ row.height) ↔ tallestInline (v.rowInlays n row) ≤ row.height := by
    rw [tallestInline_le_iff]
    constructor
    · intro hall i hi hkind
      by_cases hbears : row.Bears i
      · exact hsound.height_le_of_bears hrow (List.mem_of_mem_filter hi) hkind hbears
      · exact hall i hi hkind hbears
    · exact fun hall i hi hkind _ => hall i hi hkind
  refine ⟨hbottom, ?_⟩
  rw [htallest, hbottom]
  omega

/-- Three lines, with an inline inlay in the first and a block inlay at its end. -/
def inlaidLines : View := threeLines.afterAll [.addInlay 1 30 .inline, .addInlay 2 7 .block]

theorem band_of_inlaidLines :
    inlaidLines.totalHeight = 57 ∧ inlaidLines.rowBottom 0 = 0 + 30 + 7 := by
  have hreachable : inlaidLines.Reachable := reachable_threeLines _
  have htotal : inlaidLines.totalHeight = 57 := by decide +kernel
  have hrow : inlaidLines.rows[0]? = some ⟨0, 0, 2, 0, 0, none, 0, 0, 30⟩ := by decide +kernel
  have hfills := (row_fills_band_iff hreachable (by omega) hrow).2.mpr (by decide +kernel)
  refine ⟨htotal, hfills.trans ?_⟩
  decide +kernel

/-- Two lines that are not wrapped, with a tall inline inlay at the end of the first. -/
def tallLineEnd : View :=
  threeLines.afterAll [.setText ['a', 'b', '\n', 'c', 'd'], .setWidth 0, .addInlay 2 30 .inline]

/-- The inlay at the end of the first line is counted on no row, although it makes the band of the
first row taller. -/
theorem band_of_tallLineEnd :
    tallLineEnd.Reachable ∧ tallLineEnd.totalHeight = 40 ∧
      tallLineEnd.rows =
        [⟨0, 0, 2, 0, 0, none, 0, 0, 10⟩, ⟨1, 3, 5, 1, 0, none, 1, 30, 10⟩] ∧
      ¬ ∀ row, tallLineEnd.rows[0]? = some row →
        tallLineEnd.rowBottom 0 =
          row.y + row.height + totalBlockHeight (tallLineEnd.rowInlays 0 row) := by
  have hrows : tallLineEnd.rows =
      [⟨0, 0, 2, 0, 0, none, 0, 0, 10⟩, ⟨1, 3, 5, 1, 0, none, 1, 30, 10⟩] := by decide +kernel
  refine ⟨reachable_threeLines _, by decide +kernel, hrows, fun hall => ?_⟩
  have hfills := hall ⟨0, 0, 2, 0, 0, none, 0, 0, 10⟩ (by rw [hrows]; rfl)
  revert hfills
  decide +kernel

end View

end RowLayout
