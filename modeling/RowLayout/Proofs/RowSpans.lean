import RowLayout.Proofs.NaiveLayout
import RowLayout.Proofs.ShownWraps
import RowLayout.Proofs.ViewRows

/-!
# Rows tile the text

Where a row stops is not kept anywhere. It is read off the row below: at its start if that is a
soft wrap, and otherwise at the stop of the line before it, which after hidden lines is not the
line of the row itself. Taken together the rows leave nothing of the text out but the line breaks
right in front of those rows at which a line starts, and they never overlap.

## Main definitions

* `Row.Holds` — a character stands on a row
* `View.Covers` — an offset lies between the start of a row and that of the row below
* `View.InBreakAbove` — a character belongs to the line break in front of some row

## Main results

* `Location.stop_of_wrap`, `stop_of_line`, `stop_of_last` — where a row of a regular layout stops
* `View.Sound.stop_cases` — a row of a view and the row below it
* `View.rows_tile_text` — every character stands on one row, but for those line breaks
-/

namespace RowLayout

/-! ### Where the rows of a layout stop -/

namespace Location

variable {lay : Layout} {loc : Location} {index o o' y n : Nat} {row row' : Row}

theorem stopBefore_of_pending (hnext : (loc.next lay).start = some o')
    (h : loc.pending = some o') : loc.stopBefore lay (loc.next lay) = o' := by
  simp [stopBefore, hnext, wraps_behind_of_pending hnext h]

theorem stopBefore_of_not_pending (hnext : (loc.next lay).start = some o')
    (h : loc.pending ≠ some o') :
    loc.stopBefore lay (loc.next lay) = lay.document.lineStop ((loc.next lay).line - 1) := by
  have hfound : loc.scanNext.start = some o' := start_next lay loc ▸ hnext
  have hwraps : (loc.next lay).wraps = loc.wraps := by simp only [next, hfound, if_neg h]
  simp [stopBefore, hnext, hwraps]

/-- A step goes to the pending soft wrap exactly if it goes to a soft wrap at all. -/
theorem pending_eq_some_iff (hlay : lay.Ordered)
    (hnext : ((placed lay index o y).next lay).start = some o') (hoo' : o < o') :
    (placed lay index o y).pending = some o' ↔ ∃ w ∈ lay.wraps, w.offset = o' := by
  have hleast : LeastOf {x | ∃ w ∈ (placed lay index o y).wraps.ahead, w.offset = x}
      (placed lay index o y).pending :=
    leastOf_pending (hlay.wraps.sublist (List.dropWhile_sublist _))
  have hle := start_next_le_pending hnext
  constructor
  · intro h
    rw [h] at hleast
    obtain ⟨w, hw, hoffset⟩ := hleast.1
    exact ⟨w, ((mem_wrapsAhead_placed hlay).mp hw).1, hoffset⟩
  · rintro ⟨w, hw, rfl⟩
    have hahead : w ∈ (placed lay index o y).wraps.ahead :=
      (mem_wrapsAhead_placed hlay).mpr ⟨hw, hoo'⟩
    cases hpending : (placed lay index o y).pending with
    | none =>
      rw [hpending] at hleast
      exact absurd ⟨w, hahead, rfl⟩ (Set.eq_empty_iff_forall_notMem.mp hleast w.offset)
    | some p =>
      rw [hpending] at hleast
      have hp : p ≤ w.offset := hleast.2 ⟨w, hahead, rfl⟩
      have := hle p hpending
      congr 1
      omega

/-- The rows of a regular layout begin at ever later places. -/
theorem start_lt_of_getElem?_rows (hlay : lay.Regular) {m : Nat} (hnm : n < m)
    (hrow : ((first lay).rows lay)[n]? = some row)
    (hrow' : ((first lay).rows lay)[m]? = some row') : row.start < row'.start := by
  have hpair : (((first lay).rows lay).map Row.start).Pairwise (· < ·) := by
    rw [map_start_rows hlay]
    exact lay.rowStarts.sortedLT_sort.pairwise
  rw [List.pairwise_map] at hpair
  exact pairwise_iff_getElem?.mp hpair n m row row' hnm hrow hrow'

theorem line_of_getElem?_rows (hlay : lay.Regular) (hrow : ((first lay).rows lay)[n]? = some row) :
    row.line = lay.document.lineOf row.start :=
  congrArg Row.line (getElem?_rows_first hlay hrow).2

/-- Where a row stops is told by the step to the row below. -/
theorem stop_eq_stopBefore (hlay : lay.Regular) (hrow : ((first lay).rows lay)[n]? = some row) :
    row.stop = (placed lay (low64 n) row.start row.y).stopBefore lay
      ((placed lay (low64 n) row.start row.y).next lay) :=
  congrArg Row.stop (getElem?_rows_first hlay hrow).2

theorem stop_of_wrap (hlay : lay.Regular) (hrow : ((first lay).rows lay)[n]? = some row)
    (hrow' : ((first lay).rows lay)[n + 1]? = some row')
    (hw : ∃ w ∈ lay.wraps, w.offset = row'.start) : row.stop = row'.start := by
  have hnext := (start_next_of_getElem?_rows hlay hrow hrow').1
  have hlt := start_lt_of_getElem?_rows hlay (Nat.lt_succ_self n) hrow hrow'
  rw [stop_eq_stopBefore hlay hrow]
  exact stopBefore_of_pending hnext ((pending_eq_some_iff hlay.toOrdered hnext hlt).mpr hw)

theorem stop_of_line (hlay : lay.Regular) (hrow : ((first lay).rows lay)[n]? = some row)
    (hrow' : ((first lay).rows lay)[n + 1]? = some row')
    (hw : ¬ ∃ w ∈ lay.wraps, w.offset = row'.start) :
    row.stop = lay.document.lineStop (row'.line - 1) := by
  have hnext := (start_next_of_getElem?_rows hlay hrow hrow').1
  have hlt := start_lt_of_getElem?_rows hlay (Nat.lt_succ_self n) hrow hrow'
  have hline : ((placed lay (low64 n) row.start row.y).next lay).line = row'.line := by
    rw [next_eq_placed hlay.toOrdered (settled_placed hlay.sorted ..) hnext,
      (getElem?_rows_first hlay hrow').2]
    rfl
  rw [stop_eq_stopBefore hlay hrow, ← hline]
  exact stopBefore_of_not_pending hnext fun h =>
    hw ((pending_eq_some_iff hlay.toOrdered hnext hlt).mp h)

theorem stop_of_last (hlay : lay.Regular) (hrow : ((first lay).rows lay)[n]? = some row)
    (hlast : ((first lay).rows lay)[n + 1]? = none) : row.stop = lay.document.length := by
  have hdrop := (getElem?_rows_first hlay hrow).1
  have hplaced : (placed lay (low64 n) row.start row.y).start = some row.start := rfl
  rw [rows_of_start hplaced] at hdrop
  have hnext : ((placed lay (low64 n) row.start row.y).next lay).start = none := by
    cases hstart : ((placed lay (low64 n) row.start row.y).next lay).start with
    | none => rfl
    | some o' =>
      rw [rows_of_start hstart] at hdrop
      have hget : ((first lay).rows lay)[n + 1]? = (((first lay).rows lay).drop n)[1]? := by
        rw [List.getElem?_drop]
      rw [hlast, hdrop] at hget
      simp at hget
  rw [stop_eq_stopBefore hlay hrow, stopBefore, hnext, TextLines.length_document]

end Location

/-! ### The rows of a view -/

/-- The character at an offset stands on the row. -/
def Row.Holds (row : Row) (o : Nat) : Prop := row.start ≤ o ∧ o < row.stop

instance (row : Row) (o : Nat) : Decidable (row.Holds o) :=
  inferInstanceAs (Decidable (row.start ≤ o ∧ o < row.stop))

namespace View

variable {v : View} {n m o : Nat} {row row' : Row}

/-- The offset lies in the line break right in front of a row at which a line starts. -/
def InBreakAbove (v : View) (o : Nat) : Prop :=
  ∃ row ∈ v.rows, ∃ l, row.line = l + 1 ∧ row.start = v.document.lineStart (l + 1) ∧
    v.document.lineStop l ≤ o ∧ o < row.start

/-- The offset lies at or after the start of a row, and before the start of the row below if there
is one. -/
def Covers (v : View) (n o : Nat) : Prop :=
  ∃ row, v.rows[n]? = some row ∧ row.start ≤ o ∧
    ∀ next, v.rows[n + 1]? = some next → o < next.start

instance (v : View) (n o : Nat) : Decidable (v.Covers n o) :=
  inferInstanceAs (Decidable (∃ row ∈ v.rows[n]?, row.start ≤ o ∧
    ∀ next ∈ v.rows[n + 1]?, o < next.start))

theorem Sound.start_lt (h : v.Sound) (hnm : n < m) (hrow : v.rows[n]? = some row)
    (hrow' : v.rows[m]? = some row') : row.start < row'.start := by
  rw [h.rows_eq] at hrow hrow'
  exact Location.start_lt_of_getElem?_rows h.regular hnm hrow hrow'

theorem Sound.pairwise_start (h : v.Sound) : v.rows.Pairwise (Row.start · ≤ Row.start ·) :=
  pairwise_iff_getElem?.mpr fun _ _ _ _ hij hi hj => (h.start_lt hij hi hj).le

/-- Of two rows the one that starts first comes first. -/
theorem Sound.lt_of_start_lt (h : v.Sound) (hrow : v.rows[n]? = some row)
    (hrow' : v.rows[m]? = some row') (hlt : row.start < row'.start) : n < m := by
  by_contra hmn
  rcases Nat.eq_or_lt_of_le (Nat.le_of_not_lt hmn) with rfl | hmn
  · obtain rfl : row' = row := Option.some.inj (hrow'.symm.trans hrow)
    exact Nat.lt_irrefl _ hlt
  · exact Nat.lt_asymm hlt (h.start_lt hmn hrow' hrow)

theorem Sound.exists_head (h : v.Sound) : ∃ row, v.rows[0]? = some row ∧ row.start = 0 := by
  rw [h.rows_eq, Location.rows_of_start (o := 0) rfl]
  exact ⟨_, rfl, rfl⟩

/-- There is a last row. -/
theorem Sound.exists_last (h : v.Sound) :
    ∃ (n : Nat) (row : Row), v.rows[n]? = some row ∧ v.rows[n + 1]? = none ∧
      v.rows.getLast? = some row := by
  obtain ⟨first, hfirst, -⟩ := h.exists_head
  have hpos := (List.getElem?_eq_some_iff.mp hfirst).1
  obtain ⟨last, hlast⟩ : ∃ last, v.rows[v.rows.length - 1]? = some last :=
    ⟨_, List.getElem?_eq_getElem (by omega)⟩
  refine ⟨v.rows.length - 1, last, hlast, List.getElem?_eq_none (by omega), ?_⟩
  rw [List.getLast?_eq_getElem?, hlast]

theorem Sound.line_eq (h : v.Sound) (hrow : v.rows[n]? = some row) :
    row.line = v.document.lineOf row.start := by
  rw [h.rows_eq] at hrow
  exact Location.line_of_getElem?_rows h.regular hrow

theorem Sound.stop_of_last (h : v.Sound) (hrow : v.rows[n]? = some row)
    (hlast : v.rows[n + 1]? = none) : row.stop = v.document.length := by
  rw [h.rows_eq] at hrow hlast
  exact Location.stop_of_last h.regular hrow hlast

/-- A row of a sound view begins at a soft wrap or at the start of a line. -/
theorem Sound.start_cases (h : v.Sound) (hrow : v.rows[n]? = some row) :
    (∃ w ∈ v.wraps, w.offset = row.start) ∨
      ∃ l < v.document.lineCount, row.line = l ∧ row.start = v.document.lineStart l := by
  have hmem : row.start ∈ v.layout.rowStarts := by
    have hstart := List.mem_map_of_mem (f := Row.start) (List.mem_of_getElem? hrow)
    rwa [h.rows_eq, Location.map_start_rows h.regular, Finset.mem_sort] at hstart
  rcases Layout.mem_rowStarts.mp hmem with ⟨hstart, -⟩ | hwrap
  · obtain ⟨l, hl, hstart⟩ := Document.mem_starts.mp hstart
    refine Or.inr ⟨l, hl, ?_, hstart⟩
    rw [h.line_eq hrow, hstart]
    exact Document.lineOf_lineStart hl
  · exact Or.inl hwrap

/-- **A row stops where the row below it begins, or where the line before that one stops.** -/
theorem Sound.stop_cases (h : v.Sound) (hrow : v.rows[n]? = some row)
    (hrow' : v.rows[n + 1]? = some row') :
    (∃ w ∈ v.wraps, w.offset = row'.start) ∧ row.stop = row'.start ∨
      ∃ l, l + 1 < v.document.lineCount ∧ row'.line = l + 1 ∧
        row'.start = v.document.lineStart (l + 1) ∧ row.stop = v.document.lineStop l := by
  have hpos := h.start_lt (Nat.lt_succ_self n) hrow hrow'
  have hcases := h.start_cases hrow'
  rw [h.rows_eq] at hrow hrow'
  by_cases hw : ∃ w ∈ v.wraps, w.offset = row'.start
  · exact Or.inl ⟨hw, Location.stop_of_wrap h.regular hrow hrow' hw⟩
  · obtain ⟨l, hl, hline, hstart⟩ := hcases.resolve_left hw
    have hstop : row.stop = v.document.lineStop (row'.line - 1) :=
      Location.stop_of_line h.regular hrow hrow' hw
    cases l with
    | zero =>
      rw [hstart, Document.lineStart_zero] at hpos
      omega
    | succ l =>
      rw [hline] at hstop
      exact Or.inr ⟨l, hl, hline, hstart, hstop⟩

/-! ### Rows in the text -/

theorem Sound.wrap_inside_line (h : v.Sound) {w : SoftWrap} (hw : w ∈ v.wraps) :
    ∃ l < v.document.lineCount,
      v.document.lineStart l < w.offset ∧ w.offset < v.document.lineStop l :=
  SoftWrap.inside_line (h.wraps_eq ▸ hw)

/-- No soft wrap stands where a line starts. -/
theorem Sound.not_wrap_of_lineStart (h : v.Sound) {l : Nat} (hl : l < v.document.lineCount) :
    ¬ ∃ w ∈ v.wraps, w.offset = v.document.lineStart l := by
  rintro ⟨w, hw, hoffset⟩
  obtain ⟨m, hm, hstart, hstop⟩ := h.wrap_inside_line hw
  have hcontent : v.document.InContent m w.offset := ⟨hm, hstart.le, hstop.le⟩
  have hline : v.document.lineOf w.offset = m := Document.lineOf_eq hcontent.onLine
  rw [hoffset, Document.lineOf_lineStart hl] at hline
  rw [hoffset, hline] at hstart
  exact Nat.lt_irrefl _ hstart

/-- A row never begins in a line break. -/
theorem Sound.inContent (h : v.Sound) (hrow : v.rows[n]? = some row) :
    ∃ l, v.document.InContent l row.start := by
  rcases h.start_cases hrow with ⟨w, hw, hstart⟩ | ⟨l, hl, -, hstart⟩
  · obtain ⟨l, hl, hbefore, hbehind⟩ := h.wrap_inside_line hw
    exact ⟨l, hl, hstart ▸ hbefore.le, hstart ▸ hbehind.le⟩
  · exact ⟨l, hstart ▸ Document.inContent_lineStart hl⟩

/-- A row may be empty, but it does not stop in front of its start. -/
theorem Sound.start_le_stop (h : v.Sound) (hrow : v.rows[n]? = some row) :
    row.start ≤ row.stop := by
  obtain ⟨m, hcontent⟩ := h.inContent hrow
  cases hnext : v.rows[n + 1]? with
  | none =>
    rw [h.stop_of_last hrow hnext]
    exact hcontent.le_length
  | some next =>
    have hlt := h.start_lt (Nat.lt_succ_self n) hrow hnext
    rcases h.stop_cases hrow hnext with ⟨-, hstop⟩ | ⟨l, hl, -, hstart, hstop⟩
    · rw [hstop]
      exact hlt.le
    · rw [hstop]
      exact hcontent.le_lineStop hl (hstart ▸ hlt)

/-- The row above one that begins with a line stops where the line before stops. -/
theorem Sound.stop_of_line_below (h : v.Sound) (hrow : v.rows[n]? = some row)
    (hrow' : v.rows[n + 1]? = some row') {l : Nat} (hline : row'.line = l + 1)
    (hstart : row'.start = v.document.lineStart (l + 1)) : row.stop = v.document.lineStop l := by
  have hl : l + 1 < v.document.lineCount := by
    rw [← hline, h.line_eq hrow']
    exact (v.document.onLine_lineOf row'.start).line_lt
  rcases h.stop_cases hrow hrow' with ⟨hwrap, -⟩ | ⟨l', -, hline', -, hstop⟩
  · exact absurd (hstart ▸ hwrap) (h.not_wrap_of_lineStart hl)
  · obtain rfl : l' = l := by omega
    exact hstop

theorem Sound.stop_le_start_succ (h : v.Sound) (hrow : v.rows[n]? = some row)
    (hrow' : v.rows[n + 1]? = some row') : row.stop ≤ row'.start := by
  rcases h.stop_cases hrow hrow' with ⟨-, hstop⟩ | ⟨l, hl, -, hstart, hstop⟩
  · exact hstop.le
  · rw [hstop, hstart]
    exact (Document.isLineEnding_between hl).1.le

/-- Rows do not overlap. -/
theorem Sound.stop_le_start (h : v.Sound) (hnm : n < m) (hrow : v.rows[n]? = some row)
    (hrow' : v.rows[m]? = some row') : row.stop ≤ row'.start := by
  obtain ⟨next, hnext⟩ := exists_getElem?_of_le (Nat.succ_le_of_lt hnm) hrow'
  have hstop := h.stop_le_start_succ hrow hnext
  rcases Nat.eq_or_lt_of_le (Nat.succ_le_of_lt hnm) with rfl | hlt
  · obtain rfl : next = row' := Option.some.inj (hnext.symm.trans hrow')
    exact hstop
  · exact hstop.trans (h.start_lt hlt hnext hrow').le

/-- Later rows do not stop earlier. -/
theorem Sound.stop_le_stop (h : v.Sound) (hnm : n ≤ m) (hrow : v.rows[n]? = some row)
    (hrow' : v.rows[m]? = some row') : row.stop ≤ row'.stop := by
  rcases Nat.eq_or_lt_of_le hnm with rfl | hlt
  · obtain rfl : row = row' := Option.some.inj (hrow.symm.trans hrow')
    exact Nat.le_refl _
  · exact (h.stop_le_start hlt hrow hrow').trans (h.start_le_stop hrow')

theorem Sound.covers_iff (h : v.Sound) :
    v.Covers n o ↔ lastWhile? (Row.start · ≤ o) v.rows = some n :=
  (lastWhile?_upTo_eq_some_iff h.pairwise_start).symm

/-- Which row covers an offset follows from where the rows begin. -/
theorem Sound.covers_iff_starts (h : v.Sound) :
    v.Covers n o ↔ lastWhile? (fun start => start ≤ o) (v.rows.map Row.start) = some n := by
  rw [h.covers_iff, lastWhile?_map]
  rfl

/-- Every offset is covered by a row. -/
theorem Sound.exists_covers (h : v.Sound) (o : Nat) : ∃ n, v.Covers n o := by
  obtain ⟨first, hfirst, hzero⟩ := h.exists_head
  obtain ⟨n, -, hlast, -⟩ :=
    exists_lastWhile?_upTo h.pairwise_start hfirst (hzero.trans_le (Nat.zero_le o))
  exact ⟨n, h.covers_iff.mpr hlast⟩

/-- No row holds a character of a line break in front of a row. -/
theorem Sound.not_holds_of_inBreakAbove (h : v.Sound) (ho : v.InBreakAbove o)
    (hrow : v.rows[n]? = some row) : ¬ row.Holds o := by
  rintro ⟨hstart, hstop⟩
  obtain ⟨below, hmem, l, hline, hbelow, hle, hlt⟩ := ho
  obtain ⟨k, hk⟩ := List.mem_iff_getElem?.mp hmem
  have hnk : n < k := h.lt_of_start_lt hrow hk (hstart.trans_lt hlt)
  obtain ⟨k, rfl⟩ : ∃ j, k = j + 1 := Nat.exists_eq_add_one.mpr (by omega)
  obtain ⟨above, habove⟩ := exists_getElem?_of_le (Nat.le_succ k) hk
  -- the row right above the line break stops where the line break begins
  have hbreak := h.stop_of_line_below habove hk hline hbelow
  have := h.stop_le_stop (Nat.le_of_lt_succ hnk) hrow habove
  omega

/-- A character that stands on no row belongs to the line break in front of a row. -/
theorem Sound.exists_holds (h : v.Sound) (ho : o < v.document.length)
    (hbreak : ¬ v.InBreakAbove o) :
    ∃ (n : Nat) (row : Row), v.rows[n]? = some row ∧ row.Holds o := by
  obtain ⟨n, row, hrow, hstart, hbelow⟩ := h.exists_covers o
  refine ⟨n, row, hrow, hstart, ?_⟩
  cases hnext : v.rows[n + 1]? with
  | none => exact h.stop_of_last hrow hnext ▸ ho
  | some next =>
    have hlt : o < next.start := hbelow next hnext
    rcases h.stop_cases hrow hnext with ⟨-, hstop⟩ | ⟨l, -, hline, hnextStart, hstop⟩
    · exact hstop ▸ hlt
    · by_contra hge
      refine hbreak ⟨next, List.mem_of_getElem? hnext, l, hline, hnextStart, ?_, hlt⟩
      exact hstop ▸ Nat.le_of_not_lt hge

/-- No character stands on two rows. -/
theorem Sound.le_of_holds (h : v.Sound) (hrow : v.rows[n]? = some row)
    (hrow' : v.rows[m]? = some row') (ho : row.Holds o) (ho' : row'.Holds o) : m ≤ n := by
  by_contra hnm
  have hapart := h.stop_le_start (Nat.lt_of_not_le hnm) hrow hrow'
  have hbefore : o < row.stop := ho.2
  have hbehind : row'.start ≤ o := ho'.1
  omega

/-! ### The main statement -/

/-- **The rows tile the text.** The first row starts at the front of the text, the last row stops
at its end, and in between a row stops where the row below it starts, if that is at a soft wrap,
or else where the line before the line of that row stops, with one line break between the two. So
the characters of these line breaks stand on no row, and every other character on exactly one. -/
theorem rows_tile_text (h : v.Reachable) :
    (∃ first, v.rows.head? = some first ∧ first.start = 0) ∧
      (∃ last, v.rows.getLast? = some last ∧ last.stop = v.document.length) ∧
      (∀ row ∈ v.rows, row.start ≤ row.stop) ∧
      (∀ (n : Nat) (row next : Row), v.rows[n]? = some row → v.rows[n + 1]? = some next →
        (∃ w ∈ v.wraps, w.offset = next.start) ∧ row.stop = next.start ∨
          ∃ l, next.line = l + 1 ∧ next.start = v.document.lineStart (l + 1) ∧
            row.stop = v.document.lineStop l ∧
            IsLineEnding (v.document.between row.stop next.start)) ∧
      ∀ o < v.document.length,
        (v.InBreakAbove o → ∀ row ∈ v.rows, ¬ row.Holds o) ∧
          (¬ v.InBreakAbove o → ∃! n : Nat, ∃ row : Row, v.rows[n]? = some row ∧ row.Holds o) := by
  have hsound := h.sound
  obtain ⟨first, hfirst, hzero⟩ := hsound.exists_head
  obtain ⟨k, last, hlast, hnone, hgetLast⟩ := hsound.exists_last
  refine ⟨⟨first, List.head?_eq_getElem? .. ▸ hfirst, hzero⟩,
    ⟨last, hgetLast, hsound.stop_of_last hlast hnone⟩, fun row hrow => ?_,
    fun n row next hrow hnext => ?_, fun o ho => ⟨fun hbreak row hrow => ?_, fun hbreak => ?_⟩⟩
  · obtain ⟨n, hn⟩ := List.mem_iff_getElem?.mp hrow
    exact hsound.start_le_stop hn
  · rcases hsound.stop_cases hrow hnext with hwrap | ⟨l, hl, hline, hstart, hstop⟩
    · exact Or.inl hwrap
    · refine Or.inr ⟨l, hline, hstart, hstop, ?_⟩
      rw [hstart, hstop]
      exact (Document.isLineEnding_between hl).2
  · obtain ⟨n, hn⟩ := List.mem_iff_getElem?.mp hrow
    exact hsound.not_holds_of_inBreakAbove hbreak hn
  · obtain ⟨n, row, hrow, hholds⟩ := hsound.exists_holds ho hbreak
    refine ⟨n, ⟨row, hrow, hholds⟩, ?_⟩
    rintro m ⟨row', hrow', hholds'⟩
    exact Nat.le_antisymm (hsound.le_of_holds hrow hrow' hholds hholds')
      (hsound.le_of_holds hrow' hrow hholds' hholds)

/-- Three lines in rows of two cells. A fold hides the first line break, so that the first row
shows two lines; the last line is cut. -/
def joinedLines : View :=
  threeLines.afterAll [.setText ['a', 'b', '\r', '\n', 'c', 'd', '\n', 'e', 'f', 'g'],
    .addFold 1 4 true]

theorem tiles_of_joinedLines :
    joinedLines.Reachable ∧
      joinedLines.rows.map (fun row => (row.start, row.stop)) = [(0, 6), (7, 9), (9, 10)] ∧
      (∀ row ∈ joinedLines.rows, ¬ row.Holds 6) ∧
      ∃! n : Nat, ∃ row : Row, joinedLines.rows[n]? = some row ∧ row.Holds 3 := by
  have hreachable : joinedLines.Reachable := reachable_threeLines _
  have hrows : joinedLines.rows =
      [⟨0, 0, 6, 0, 0, none, 0, 0, 10⟩, ⟨1, 7, 9, 2, 1, none, 0, 10, 10⟩,
        ⟨2, 9, 10, 2, 1, some 0, 0, 20, 10⟩] := by decide +kernel
  have hsecond : joinedLines.document.lineStop 1 = 6 := by decide +kernel
  have hthird : joinedLines.document.lineStart 2 = 7 := by decide +kernel
  have hlength : joinedLines.document.length = 10 := by decide +kernel
  obtain ⟨-, -, -, -, hholds⟩ := rows_tile_text hreachable
  refine ⟨hreachable, by rw [hrows]; rfl, (hholds 6 (by omega)).1 ?_, (hholds 3 (by omega)).2 ?_⟩
  · refine ⟨⟨1, 7, 9, 2, 1, none, 0, 10, 10⟩, by rw [hrows]; decide, 1, rfl, hthird.symm, ?_⟩
    exact ⟨hsecond.le, by decide⟩
  · rintro ⟨row, hrow, l, hline, hrowStart, hle, hlt⟩
    simp only [hrows, List.mem_cons, List.not_mem_nil, or_false] at hrow
    rcases hrow with rfl | rfl | rfl
    · exact Nat.not_lt_zero 3 hlt
    · obtain rfl : 1 = l := Nat.succ.inj hline
      omega
    · obtain rfl : 1 = l := Nat.succ.inj hline
      omega

end View

end RowLayout
