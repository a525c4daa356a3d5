import RowLayout.Proofs.RowLookup

/-!
# The rows in a window

A window is a range of vertical positions. Which rows it shows follows from their bands: those rows
that have a position of the window in their band, whether it is taken by the row or by a block
inlay below it. They are found by looking up the row at the top of the window and walking on while
rows begin above its bottom. The bottom may lie past what 32 bits can express, and so may rows, all
of which then begin at the largest position; such rows have nothing in their bands and are not
shown.

All this is so for a window that has some height. A window without height has no positions, yet the
walk begins as it does for any window, and it goes on while rows begin above the top of the window.
So the row around the top is shown, unless it begins right there.

## Main definitions

* `View.InWindow` — some position of a window lies in the band of a row

## Main results

* `View.Sound.viewport_eq` — a viewport is a walk from the row at the top of the window
* `View.viewport_exact` — a viewport holds the rows in its window, and no others
* `View.emptyWindow_shows_row_around` — what a viewport without height holds
-/

namespace RowLayout

namespace View

variable {v : View} {n m top height y : Nat} {row row' : Row}

/-- Some position of the window lies in the band of the row. -/
def InWindow (v : View) (top height n : Nat) (row : Row) : Prop :=
  ∃ p, top ≤ p ∧ p < top + height ∧ row.y ≤ p ∧ p < v.rowBottom n

/-- A window and a band meet if each of them begins above the bottom of the other. -/
theorem inWindow_iff (hheight : 1 ≤ height) :
    v.InWindow top height n row ↔
      top < v.rowBottom n ∧ row.y < top + height ∧ row.y < v.rowBottom n := by
  constructor
  · rintro ⟨p, htop, hbottom, hy, hband⟩
    exact ⟨by omega, by omega, by omega⟩
  · rintro ⟨htop, hbottom, hband⟩
    exact ⟨max top row.y, by omega, by omega, by omega, by omega⟩

/-- **A viewport is a walk** from the last row that begins at or above the top of the window. -/
theorem Sound.viewport_eq (h : v.Sound) (htop : top < v.totalHeight) (height : Nat) :
    ∃ n row, v.rows[n]? = some row ∧ row.y ≤ top ∧
      (∀ (m : Nat) (row' : Row), v.rows[m]? = some row' → row'.y ≤ top → m ≤ n) ∧
      v.viewport top height =
        (v.rows.drop n).takeWhile (Row.y · < addPixels top height) := by
  obtain ⟨n, row, hlast, hrow, hle, hmax⟩ := h.exists_rowAtY? top
  refine ⟨n, row, hrow, hle, hmax, ?_⟩
  rw [viewport, if_neg (Nat.not_le_of_lt htop), hlast, h.rows_eq]
  exact congrArg _ (h.rowsFrom_eq n)

/-- From the row at the top of the window on, the rows in the window are those that begin above its
bottom. -/
theorem Sound.inWindow_iff_of_le (h : v.Sound) (hheight : 1 ≤ height) (htop : top < v.totalHeight)
    (hmax : ∀ (m : Nat) (row' : Row), v.rows[m]? = some row' → row'.y ≤ top → m ≤ n) (hnm : n ≤ m)
    (hrow : v.rows[m]? = some row) :
    v.InWindow top height m row ↔ row.y < addPixels top height := by
  have htotal := h.totalHeight_le_maxPixels
  have hbottom := h.rowBottom_le_totalHeight m
  have hband := h.y_lt_rowBottom hrow
  -- the band reaches below the top of the window, as the next row begins below it
  have hreach : top < v.rowBottom m := by
    cases hnext : v.rows[m + 1]? with
    | none => exact rowBottom_of_none hnext ▸ htop
    | some next =>
      rw [rowBottom_of_some hnext]
      by_contra hle
      have := hmax (m + 1) next hnext (Nat.le_of_not_lt hle)
      omega
  rw [inWindow_iff hheight, addPixels, cappedAdd]
  omega

/-- A row is not in a window that begins below its band. -/
theorem not_inWindow_of_rowBottom_le (hle : v.rowBottom n ≤ top) :
    ¬ v.InWindow top height n row := by
  rintro ⟨p, htop, -, -, hband⟩
  omega

/-! ### The main statement -/

/-- **A viewport is exact.** It is a stretch of the rows, and a row belongs to it if and only if
some position of the window lies in the band of the row, from its top to the top of the row below
or, for the last row, to the bottom of everything. The window may reach past the largest position
that 32 bits can express, and so may the rows. -/
theorem viewport_exact (h : v.Reachable) (hheight : 1 ≤ height) :
    ∃ first count, v.viewport top height = (v.rows.drop first).take count ∧
      ∀ (n : Nat) (row : Row), v.rows[n]? = some row →
        (first ≤ n ∧ n < first + count ↔ v.InWindow top height n row) := by
  have hsound := h.sound
  rcases Nat.lt_or_ge top v.totalHeight with htop | htop
  · obtain ⟨first, firstRow, hfirst, hle, hmax, hviewport⟩ := hsound.viewport_eq htop height
    have hordered := pairwise_before
      (hsound.pairwise_y.sublist (List.drop_sublist first v.rows)) (addPixels top height)
    refine ⟨first, countWhile (Row.y · < addPixels top height) (v.rows.drop first), ?_, ?_⟩
    · rw [hviewport]
      exact List.prefix_iff_eq_take.mp (List.takeWhile_prefix _)
    · intro n row hrow
      rcases Nat.lt_or_ge n first with hlt | hge
      · have hnot : ¬ v.InWindow top height n row :=
          not_inWindow_of_rowBottom_le ((hsound.rowBottom_le_y hlt hfirst).trans hle)
        simp only [hnot, iff_false]
        omega
      · obtain ⟨k, rfl⟩ := Nat.exists_eq_add_of_le hge
        have hcount : k < countWhile (Row.y · < addPixels top height) (v.rows.drop first) ↔
            row.y < addPixels top height := by
          rw [lt_countWhile_iff hordered, List.getElem?_drop, hrow]
          simp
        rw [hsound.inWindow_iff_of_le hheight htop hmax hge hrow, ← hcount]
        omega
  · refine ⟨0, 0, by simp [viewport, htop], fun n row hrow => ?_⟩
    have hnot : ¬ v.InWindow top height n row :=
      not_inWindow_of_rowBottom_le ((hsound.rowBottom_le_totalHeight n).trans htop)
    simp only [hnot, iff_false]
    omega

/-- Three lines, with a block inlay below the first that pushes the others out of what 32 bits can
express. -/
def tallBlock : View := threeLines.afterAll [.addInlay 1 4294967295 .block]

theorem window_of_tallBlock :
    tallBlock.rows.map Row.y = [0, 4294967295, 4294967295] ∧
      (tallBlock.viewport 4294967294 10).map Row.index = [0] ∧
      ∃ first count, tallBlock.viewport 4294967294 10 = (tallBlock.rows.drop first).take count ∧
        ∀ (n : Nat) (row : Row), tallBlock.rows[n]? = some row →
          (first ≤ n ∧ n < first + count ↔ tallBlock.InWindow 4294967294 10 n row) := by
  have hreachable : tallBlock.Reachable := reachable_threeLines _
  refine ⟨by decide +kernel, by decide +kernel, viewport_exact hreachable ?_⟩
  decide

/-! ### Windows without height -/

/-- A window without height has no positions. -/
theorem not_inWindow_zero : ¬ v.InWindow top 0 n row := by
  rintro ⟨p, htop, hbottom, -⟩
  omega

/-- Above the bottom of everything, a window without height ends where it begins. -/
theorem Sound.addPixels_zero (h : v.Sound) (htop : top < v.totalHeight) :
    addPixels top 0 = top := by
  have htotal := h.totalHeight_le_maxPixels
  rw [addPixels, cappedAdd]
  omega

/-- A window without height at the top of a row shows nothing: the walk begins with a row at that
position, which is not above the bottom of the window. -/
theorem Sound.viewport_zero_of_y_eq (h : v.Sound) (hrow : v.rows[n]? = some row)
    (hy : row.y = top) : v.viewport top 0 = [] := by
  rcases Nat.lt_or_ge top v.totalHeight with htop | htop
  · obtain ⟨first, firstRow, hfirst, hle, hmax, hviewport⟩ := h.viewport_eq htop 0
    have hfirstY : firstRow.y = top := by
      have hbelow := h.y_le (hmax n row hrow (Nat.le_of_eq hy)) hrow hfirst
      omega
    rw [hviewport, h.addPixels_zero htop, List.drop_eq_getElem?_toList_append, hfirst]
    exact List.takeWhile_cons_of_neg (by simp [hfirstY])
  · rw [viewport, if_pos htop]

/-- A window without height between the top and the bottom of a band shows the row of the band: the
walk begins with it, and it is above the bottom of the window. -/
theorem Sound.viewport_zero_of_lt (h : v.Sound) (hrow : v.rows[n]? = some row)
    (hy : row.y < top) (hband : top < v.rowBottom n) : v.viewport top 0 = [row] := by
  have htop : top < v.totalHeight := Nat.lt_of_lt_of_le hband (h.rowBottom_le_totalHeight n)
  obtain ⟨first, firstRow, hget, hle, hmax, hviewport⟩ := h.viewport_eq htop 0
  obtain rfl : n = first := by
    refine Nat.le_antisymm (hmax n row hrow (Nat.le_of_lt hy)) (Nat.le_of_not_lt fun hlt => ?_)
    have hbelow := h.rowBottom_le_y hlt hget
    omega
  have hrest : (v.rows.drop (n + 1)).takeWhile (Row.y · < top) = [] := by
    cases hnext : v.rows[n + 1]? with
    | none => rw [List.drop_of_length_le (List.getElem?_eq_none_iff.mp hnext), List.takeWhile_nil]
    | some next =>
      rw [rowBottom_of_some hnext] at hband
      rw [List.drop_eq_getElem?_toList_append, hnext]
      exact List.takeWhile_cons_of_neg (by simpa using Nat.le_of_lt hband)
  have hfirst : (v.rows.drop n).takeWhile (Row.y · < top) =
      row :: (v.rows.drop (n + 1)).takeWhile (Row.y · < top) := by
    rw [List.drop_eq_getElem?_toList_append, hrow]
    exact List.takeWhile_cons_of_pos (by simpa using hy)
  rw [hviewport, h.addPixels_zero htop, hfirst, hrest]

/-- **Where a window without height shows a row.** No position is in such a window, and it shows
nothing where a row begins and below all rows. Everywhere else it shows one row: the one in whose
band it begins, whether inside the row or in a block inlay below it. -/
theorem emptyWindow_shows_row_around (h : v.Reachable) (top : Nat) :
    (∀ (n : Nat) (row : Row), ¬ v.InWindow top 0 n row) ∧
      (v.viewport top 0 = [] ↔ v.totalHeight ≤ top ∨ ∃ row ∈ v.rows, row.y = top) ∧
      ∀ (n : Nat) (row : Row), v.rows[n]? = some row → row.y < top → top < v.rowBottom n →
        v.viewport top 0 = [row] := by
  have hsound := h.sound
  refine ⟨fun n row => not_inWindow_zero, ⟨fun hnil => ?_, ?_⟩,
    fun n row => hsound.viewport_zero_of_lt⟩
  · by_contra hcut
    obtain ⟨habove, hbetween⟩ := not_or.mp hcut
    obtain ⟨n, row, hlast, hrow, hle, -⟩ := hsound.exists_rowAtY? top
    have hy : row.y ≠ top := fun heq => hbetween ⟨row, List.mem_of_getElem? hrow, heq⟩
    have hband := hsound.lt_rowBottom_of_rowAtY? hlast (Nat.lt_of_not_le habove)
    rw [hsound.viewport_zero_of_lt hrow (Nat.lt_of_le_of_ne hle hy) hband] at hnil
    cases hnil
  · rintro (hbelow | ⟨row, hrow, hy⟩)
    · rw [viewport, if_pos hbelow]
    · obtain ⟨n, hn⟩ := List.getElem?_of_mem hrow
      exact hsound.viewport_zero_of_y_eq hn hy

/-- Three lines, with a block inlay below the first. -/
def spacedLines : View := threeLines.afterAll [.addInlay 1 25 .block]

/-- The windows begin in the block inlay, at the top of the second row and inside it. -/
theorem emptyWindows_in_spacedLines :
    spacedLines.rows.map Row.y = [0, 35, 45] ∧
      (spacedLines.viewport 20 0).map Row.index = [0] ∧
      spacedLines.viewport 35 0 = [] ∧
      (spacedLines.viewport 40 0).map Row.index = [1] := by
  have hreachable : spacedLines.Reachable := reachable_threeLines _
  have hrows : spacedLines.rows =
      [⟨0, 0, 2, 0, 0, none, 0, 0, 10⟩, ⟨1, 3, 5, 1, 0, none, 1, 35, 10⟩,
        ⟨2, 6, 8, 2, 0, none, 1, 45, 10⟩] := by decide +kernel
  refine ⟨by rw [hrows]; rfl, ?_, ?_, ?_⟩
  · have hshown := (emptyWindow_shows_row_around hreachable 20).2.2 0 _
      (by rw [hrows]; rfl) (by decide) (by decide +kernel)
    rw [hshown]
    rfl
  · refine (emptyWindow_shows_row_around hreachable 35).2.1.mpr (.inr ?_)
    rw [hrows]
    decide
  · have hshown := (emptyWindow_shows_row_around hreachable 40).2.2 1 _
      (by rw [hrows]; rfl) (by decide) (by decide +kernel)
    rw [hshown]
    rfl

/-- It is not so that a window without height shows nothing: it shows the first row of three lines
if it begins inside that row. -/
theorem emptyWindow_in_firstRow :
    ¬ ∀ (v : View) (top : Nat), v.Reachable → v.viewport top 0 = [] := by
  intro hclaim
  have hnil := hclaim threeLines 5 (reachable_threeLines [])
  exact absurd hnil (by decide +kernel)

end View

end RowLayout
