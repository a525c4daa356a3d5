import RowLayout.Proofs.RowBands

/-!
# Finding rows

A row is found by an offset or by a vertical position, and either way the table of row starts is
searched for the last row that begins at or before it. The search gives back what it was given: the
row that starts at an offset is found by that offset, as no two rows start together, and the row
whose top is at a position is found by that position, as bands are not empty. The one exception is
the largest position that 32 bits can express, at which any number of rows may begin; there the
last of them is found. Since the first row begins at the front of the text and at the very top, no
search comes back with nothing.

## Main results

* `View.Sound.rowOfOffset?_eq_some_iff` — an offset is looked up to the row that covers it
* `View.Sound.exists_rowAtY?` — a vertical position is looked up to the last row that begins there
  or above
* `View.row_lookups_invert_layout` — both look-ups, for every view that can be reached
-/

namespace RowLayout

namespace View

variable {v : View} {n m o y : Nat} {row : Row}

/-! ### What is known of a row without walking to it -/

theorem Sound.origin?_eq (h : v.Sound) (hrow : v.rows[n]? = some row) :
    v.table.origin? n = some row.origin := by
  rw [h.rows_eq] at hrow
  rw [h.table_eq, RowTable.origin?_ofLayout, hrow, Option.map_some]

/-- The measures of a view tell where its rows begin. -/
theorem Sound.rowStart_eq (h : v.Sound) (hrow : v.rows[n]? = some row) :
    v.rowStart n = row.start ∧ v.rowY n = row.y := by
  have hmeasures := v.table.takenFrom_measures v.document.length
  have horigin := h.origin?_eq hrow
  exact ⟨hmeasures.startOf_eq n _ horigin, hmeasures.yOf_eq n _ horigin⟩

/-! ### Offsets -/

/-- An offset is covered by one row only. -/
theorem Sound.eq_of_covers (h : v.Sound) (hn : v.Covers n o) (hm : v.Covers m o) : m = n := by
  rw [h.covers_iff] at hn hm
  exact Option.some.inj (hm.symm.trans hn)

/-- A row covers its own start. -/
theorem Sound.covers_start (h : v.Sound) (hrow : v.rows[n]? = some row) :
    v.Covers n row.start :=
  ⟨row, hrow, Nat.le_refl _, fun _ hnext => h.start_lt (Nat.lt_succ_self n) hrow hnext⟩

/-- **An offset is looked up to the row that covers it;** offsets past the text count as its
end. -/
theorem Sound.rowOfOffset?_eq_some_iff (h : v.Sound) :
    v.rowOfOffset? o = some n ↔ v.Covers n (min o v.document.length) := by
  rw [h.covers_iff, rowOfOffset?, RowTable.rowOfOffset?, h.table_eq, h.rows_eq,
    RowTable.ofLayout, lastWhile?_map]
  rfl

theorem Sound.start_le_length (h : v.Sound) (hrow : v.rows[n]? = some row) :
    row.start ≤ v.document.length := by
  obtain ⟨l, hcontent⟩ := h.inContent hrow
  exact hcontent.le_length

/-! ### Vertical positions -/

theorem Sound.pairwise_y (h : v.Sound) : v.rows.Pairwise (Row.y · ≤ Row.y ·) :=
  pairwise_iff_getElem?.mpr fun _ _ _ _ hij hi hj => h.y_le hij.le hi hj

theorem Sound.rowAtY?_eq (h : v.Sound) (y : Nat) :
    v.rowAtY? y = lastWhile? (Row.y · ≤ y) v.rows := by
  rw [rowAtY?, RowTable.rowAtY?, h.table_eq, h.rows_eq, RowTable.ofLayout, lastWhile?_map]
  rfl

/-- **A vertical position is looked up to the last row that begins there or above.** -/
theorem Sound.exists_rowAtY? (h : v.Sound) (y : Nat) :
    ∃ n row, v.rowAtY? y = some n ∧ v.rows[n]? = some row ∧ row.y ≤ y ∧
      ∀ (m : Nat) (row' : Row), v.rows[m]? = some row' → row'.y ≤ y → m ≤ n := by
  obtain ⟨first, hfirst, -⟩ := h.exists_head
  have htop : first.y ≤ y := (h.y_zero hfirst).trans_le (Nat.zero_le y)
  obtain ⟨n, row, hlast, hrow, hle, hmax⟩ := exists_lastWhile?_upTo h.pairwise_y hfirst htop
  exact ⟨n, row, (h.rowAtY?_eq y).trans hlast, hrow, hle, hmax⟩

theorem Sound.rowAtY?_eq_some_iff (h : v.Sound) :
    v.rowAtY? y = some n ↔
      ∃ row, v.rows[n]? = some row ∧ row.y ≤ y ∧
        ∀ next, v.rows[n + 1]? = some next → y < next.y := by
  rw [h.rowAtY?_eq, lastWhile?_upTo_eq_some_iff h.pairwise_y]

/-- A position above the bottom of everything lies above the bottom of the row it is looked up
to. -/
theorem Sound.lt_rowBottom_of_rowAtY? (h : v.Sound) (hn : v.rowAtY? y = some n)
    (hy : y < v.totalHeight) : y < v.rowBottom n := by
  obtain ⟨row, hrow, hle, hpast⟩ := h.rowAtY?_eq_some_iff.mp hn
  cases hnext : v.rows[n + 1]? with
  | none => exact rowBottom_of_none hnext ▸ hy
  | some next => exact rowBottom_of_some hnext ▸ hpast next hnext

/-- The top of a row is looked up to the row, unless it is where 32 bits end. -/
theorem Sound.rowAtY?_y (h : v.Sound) (hrow : v.rows[n]? = some row) (hy : row.y < maxPixels) :
    v.rowAtY? row.y = some n := by
  refine h.rowAtY?_eq_some_iff.mpr ⟨row, hrow, Nat.le_refl _, ?_⟩
  intro next hnext
  calc row.y < v.rowBottom n := h.y_lt_rowBottom hrow hy
    _ = next.y := rowBottom_of_some hnext

/-! ### The main statement -/

/-- **Row look-ups invert the layout.** Every row is found by the offset at which it starts and,
as long as 32 bits can tell its top from those of other rows, by its top. An offset, or the end of
the text for offsets past it, is looked up to the one row that covers it, and a vertical position
to the last row that begins there or above; unless the position lies below everything, that row
reaches below it. Neither look-up ever comes back with nothing. -/
theorem row_lookups_invert_layout (h : v.Reachable) :
    (∀ n < v.rowCount, ∃ row, v.rows[n]? = some row ∧
        v.rowStart n = row.start ∧ v.rowY n = row.y ∧
        v.rowOfOffset? row.start = some n ∧
        (row.y < 2 ^ 32 - 1 → v.rowAtY? row.y = some n)) ∧
      (∀ o : Nat, ∃ n, v.rowOfOffset? o = some n ∧
        ∀ m, v.Covers m (min o v.document.length) ↔ m = n) ∧
      ∀ y : Nat, ∃ n row, v.rowAtY? y = some n ∧ v.rows[n]? = some row ∧ row.y ≤ y ∧
        (∀ (m : Nat) (row' : Row), v.rows[m]? = some row' → row'.y ≤ y → m ≤ n) ∧
        (y < v.totalHeight → y < v.rowBottom n) := by
  have hsound := h.sound
  refine ⟨?_, ?_, ?_⟩
  · intro n hn
    rw [hsound.rowCount_eq] at hn
    obtain ⟨row, hrow⟩ : ∃ row, v.rows[n]? = some row := ⟨_, List.getElem?_eq_getElem hn⟩
    obtain ⟨hstart, hy⟩ := hsound.rowStart_eq hrow
    refine ⟨row, hrow, hstart, hy, ?_, hsound.rowAtY?_y hrow⟩
    rw [hsound.rowOfOffset?_eq_some_iff, Nat.min_eq_left (hsound.start_le_length hrow)]
    exact hsound.covers_start hrow
  · intro o
    obtain ⟨n, hn⟩ := hsound.exists_covers (min o v.document.length)
    refine ⟨n, hsound.rowOfOffset?_eq_some_iff.mpr hn, ?_⟩
    intro m
    constructor
    · exact hsound.eq_of_covers hn
    · rintro rfl
      exact hn
  · intro y
    obtain ⟨n, row, hlast, hrow, hle, hmax⟩ := hsound.exists_rowAtY? y
    exact ⟨n, row, hlast, hrow, hle, hmax, hsound.lt_rowBottom_of_rowAtY? hlast⟩

/-- Rows of one cell. A fold hides the second line, and a block inlay below the second row pushes
the rows under it out of what 32 bits can express. -/
def cutOff : View :=
  threeLines.afterAll [.setWidth 1, .addFold 1 4 true, .addInlay 1 4294967290 .block]

theorem lookups_in_cutOff :
    cutOff.rows.map Row.origin = [⟨0, 0⟩, ⟨1, 10⟩, ⟨6, 4294967295⟩, ⟨7, 4294967295⟩] ∧
      cutOff.rowOfOffset? 1 = some 1 ∧ cutOff.rowAtY? 10 = some 1 ∧
      cutOff.rowOfOffset? 4 = some 1 ∧ cutOff.rowAtY? 4294967295 = some 3 := by
  have hreachable : cutOff.Reachable := reachable_threeLines _
  have hrows : cutOff.rows =
      [⟨0, 0, 1, 0, 0, none, 0, 0, 10⟩, ⟨1, 1, 5, 0, 0, some 0, 0, 10, 10⟩,
        ⟨2, 6, 7, 2, 1, some 0, 1, 4294967295, 10⟩,
        ⟨3, 7, 8, 2, 1, some 1, 1, 4294967295, 10⟩] := by decide +kernel
  have hcount : cutOff.rowCount = 4 := by decide +kernel
  obtain ⟨hinvert, hoffsets, -⟩ := row_lookups_invert_layout hreachable
  obtain ⟨row, hrow, -, -, hstart, hy⟩ := hinvert 1 (by omega)
  obtain rfl : ⟨1, 1, 5, 0, 0, some 0, 0, 10, 10⟩ = row := by
    rw [hrows] at hrow
    exact Option.some.inj hrow
  refine ⟨by rw [hrows]; rfl, hstart, hy (by decide), ?_, by decide +kernel⟩
  -- the fold hides the start of the second line, so the row above covers it
  obtain ⟨n, hn, hcovers⟩ := hoffsets 4
  have hlength : min 4 cutOff.document.length = 4 := by decide +kernel
  have hone : cutOff.Covers 1 4 := by decide +kernel
  rw [hlength] at hcovers
  exact (hcovers 1).mp hone ▸ hn

end View

end RowLayout
