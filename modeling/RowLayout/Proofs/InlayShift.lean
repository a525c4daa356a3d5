import RowLayout.Proofs.RowLookup

/-!
# What one more inlay moves

Two views that differ by one inlay are compared row by row. Where rows begin and stop in the text
is decided without the inlays, so both views have the same rows at the same places. Only the band
that the inlay is in becomes taller: by the whole inlay if it is a block, and otherwise by what it
stands out above the text and all inline inlays there, in whatever order these are met. The rows
above and the row itself stay where they are, and all that lies below moves down by the same
distance, the bottom of everything included.

This is so as long as 32 bits can express where everything stops. Past that, rows below are cut off
at the largest position and move by less or not at all.

## Main definitions

* `Layout.withInlays` — a layout with other inlays
* `Row.SamePlace` — two rows show the same part of the text
* `bandGrowth` — by how much one more inlay makes a band taller
* `View.Gains` — a view is laid out with one more inlay than another one

## Main results

* `Location.samePlace_withInlays` — inlays do not decide where rows begin and stop
* `View.Gains.bandHeight_eq` — one band grows, and no other
* `View.Gains.y_eq`, `Gains.totalHeight_eq` — what lies below that band moves down by its growth
* `View.added_inlay_shifts_rows_below` — adding an inlay to a view that can be reached
-/

namespace RowLayout

/-! ### Rows at the same place -/

/-- The layout with other inlays. -/
def Layout.withInlays (lay : Layout) (inlays : List Inlay) : Layout := { lay with inlays := inlays }

/-- The rows show the same part of the text. They may differ in how far down they lie, in their
height, and in how many inlays come before them. -/
structure Row.SamePlace (row row' : Row) : Prop where
  index_eq : row'.index = row.index
  start_eq : row'.start = row.start
  stop_eq : row'.stop = row.stop
  line_eq : row'.line = row.line
  foldIndex_eq : row'.foldIndex = row.foldIndex
  wrapIndex_eq : row'.wrapIndex = row.wrapIndex

namespace Location

variable {lay : Layout} {inlays : List Inlay} {n : Nat} {row row' : Row}

section WithInlays

variable (hlay : lay.Regular) (hlay' : (lay.withInlays inlays).Regular)
include hlay hlay'

/-- Rows begin where they would with other inlays. -/
theorem map_start_rows_withInlays :
    ((first (lay.withInlays inlays)).rows (lay.withInlays inlays)).map Row.start =
      ((first lay).rows lay).map Row.start := by
  rw [map_start_rows hlay, map_start_rows hlay']
  rfl

variable (hrow : ((first lay).rows lay)[n]? = some row)
  (hrow' : ((first (lay.withInlays inlays)).rows (lay.withInlays inlays))[n]? = some row')
include hrow hrow'

theorem start_withInlays : row'.start = row.start := by
  have hstart := getElem?_map_congr (map_start_rows_withInlays hlay hlay') n
  rw [hrow, hrow'] at hstart
  exact Option.some.inj hstart

/-- Rows stop where they would with other inlays, as the rows below them begin where they would. -/
theorem stop_withInlays : row'.stop = row.stop := by
  have hbelow := getElem?_map_congr (map_start_rows_withInlays hlay hlay') (n + 1)
  cases hnext : ((first lay).rows lay)[n + 1]? with
  | none =>
    rw [hnext, Option.map_none, Option.map_eq_none_iff] at hbelow
    rw [stop_of_last hlay hrow hnext, stop_of_last hlay' hrow' hbelow]
    rfl
  | some next =>
    rw [hnext, Option.map_some, Option.map_eq_some_iff] at hbelow
    obtain ⟨next', hnext', hstart⟩ := hbelow
    by_cases hwrap : ∃ w ∈ lay.wraps, w.offset = next.start
    · rw [stop_of_wrap hlay hrow hnext hwrap, ← hstart]
      exact stop_of_wrap hlay' hrow' hnext' (hstart ▸ hwrap)
    · have hline : next'.line = next.line := by
        rw [line_of_getElem?_rows hlay hnext, line_of_getElem?_rows hlay' hnext', hstart]
        rfl
      have hstop' := stop_of_line hlay' hrow' hnext' (hstart ▸ hwrap)
      rw [stop_of_line hlay hrow hnext hwrap, ← hline]
      exact hstop'

/-- **Inlays do not decide where rows begin and stop.** -/
theorem samePlace_withInlays : row.SamePlace row' := by
  have hstart := start_withInlays hlay hlay' hrow hrow'
  have hplaced := (getElem?_rows_first hlay hrow).2
  have hplaced' := (getElem?_rows_first hlay' hrow').2
  rw [hstart] at hplaced'
  exact {
    index_eq := (congrArg Row.index hplaced').trans (congrArg Row.index hplaced).symm
    start_eq := hstart
    stop_eq := stop_withInlays hlay hlay' hrow hrow'
    line_eq := (congrArg Row.line hplaced').trans (congrArg Row.line hplaced).symm
    foldIndex_eq := (congrArg Row.foldIndex hplaced').trans (congrArg Row.foldIndex hplaced).symm
    wrapIndex_eq := (congrArg Row.wrapIndex hplaced').trans (congrArg Row.wrapIndex hplaced).symm }

end WithInlays

end Location

/-! ### A band with one more inlay -/

/-- By how much one more inlay of the given height makes a band taller whose text and inline inlays
are `tallest` pixels high. -/
def bandGrowth (tallest height : Nat) : InlayKind → Nat
  | .inline => max tallest height - tallest
  | .block => height

theorem bandHeight_cons (lineHeight : Nat) (i : Inlay) (inlays : List Inlay) :
    bandHeight lineHeight (i :: inlays) =
      bandHeight lineHeight inlays +
        bandGrowth (max lineHeight (tallestInline inlays)) i.height i.kind := by
  rw [bandHeight, bandHeight]
  cases hkind : i.kind with
  | block =>
    rw [rowHeight_cons_block hkind, blockHeight_cons_block hkind, bandGrowth]
    omega
  | inline =>
    rw [rowHeight_cons_inline hkind, blockHeight_cons_inline hkind, rowHeight_eq_max,
      rowHeight_eq_max, bandGrowth]
    omega

/-- The height of a band does not depend on the order in which its inlays are met. -/
theorem bandHeight_perm {inlays inlays' : List Inlay} (h : inlays.Perm inlays')
    (lineHeight : Nat) : bandHeight lineHeight inlays = bandHeight lineHeight inlays' := by
  have hheights (kind : InlayKind) : (heightsOf kind inlays).Perm (heightsOf kind inlays') :=
    (h.filter _).map _
  rw [bandHeight, bandHeight, rowHeight, rowHeight, blockHeight, blockHeight,
    (hheights .inline).foldl_eq, (hheights .block).foldl_eq]

/-! ### Views with one more inlay -/

namespace View

variable {v v' : View} {i : Inlay} {n m o : Nat} {row row' : Row}

/-- The second view is laid out with one inlay more than the first, and otherwise from the same. -/
structure Gains (v v' : View) (i : Inlay) : Prop where
  sound : v.Sound
  sound' : v'.Sound
  layout_eq : v'.layout = v.layout.withInlays v'.inlays.inlays
  inlays_perm : v'.inlays.inlays.Perm (i :: v.inlays.inlays)

/-- A view that is given other inlays has the same layout but for these: laying it out anew finds
the soft wraps that it has. -/
theorem Sound.layout_useInlays (h : v.Sound) (inlays : InlaySet) :
    (v.useInlays inlays).layout = v.layout.withInlays inlays.inlays := by
  show Layout.mk v.document v.folds.outermost (SoftWrap.ofDocument v.document v.folds v.settings)
    inlays.inlays v.settings.lineHeight.toNat = _
  rw [← h.wraps_eq]
  rfl

theorem Sound.gains_addInlay {height : Nat} {kind : InlayKind} (h : v.Sound)
    (hadd : v.addInlay o height kind = .ok v') :
    v.Gains v' ⟨v.inlays.nextId, o, height, kind⟩ := by
  have hsound := h.addInlay hadd
  rw [View.addInlay] at hadd
  split at hadd
  · cases hadd
  · cases hadd
    exact ⟨h, hsound, h.layout_useInlays _, insertAfter_perm ..⟩

namespace Gains

theorem lineHeight_eq (h : v.Gains v' i) :
    v'.settings.lineHeight.toNat = v.settings.lineHeight.toNat :=
  congrArg Layout.lineHeight h.layout_eq

/-! ### The same rows -/

theorem regular_withInlays (h : v.Gains v' i) :
    (v.layout.withInlays v'.inlays.inlays).Regular := h.layout_eq ▸ h.sound'.regular

theorem map_start_rows_eq (h : v.Gains v' i) :
    v'.rows.map Row.start = v.rows.map Row.start := by
  rw [h.sound'.rows_eq, h.sound.rows_eq, h.layout_eq]
  exact Location.map_start_rows_withInlays h.sound.regular h.regular_withInlays

theorem length_rows_eq (h : v.Gains v' i) : v'.rows.length = v.rows.length := by
  simpa only [List.length_map] using congrArg List.length h.map_start_rows_eq

theorem rowCount_eq (h : v.Gains v' i) : v'.rowCount = v.rowCount := by
  rw [h.sound'.rowCount_eq, h.sound.rowCount_eq, h.length_rows_eq]

theorem samePlace (h : v.Gains v' i) (hrow : v.rows[m]? = some row)
    (hrow' : v'.rows[m]? = some row') : row.SamePlace row' := by
  rw [h.sound.rows_eq] at hrow
  rw [h.sound'.rows_eq, h.layout_eq] at hrow'
  exact Location.samePlace_withInlays h.sound.regular h.regular_withInlays hrow hrow'

theorem covers_iff (h : v.Gains v' i) : v'.Covers m o ↔ v.Covers m o := by
  rw [h.sound'.covers_iff_starts, h.sound.covers_iff_starts, h.map_start_rows_eq]

end Gains

/-! ### The bands of the rows -/

/-- The inlays in the band of a row are those whose anchors the row covers. -/
theorem rowInlays_eq_filter (hrow : v.rows[n]? = some row) :
    v.rowInlays n row = v.inlays.inlays.filter fun i => v.Covers n i.offset := by
  refine List.filter_congr fun i _ => Bool.eq_iff_iff.mpr ?_
  rw [Bool.and_eq_true, decide_eq_true_eq, decide_eq_true_eq, Covers]
  cases hnext : v.rows[n + 1]? with
  | none => simp [hrow]
  | some next => simp [hrow]

namespace Gains

/-- The band of the row that covers the new inlay has that inlay as well, and the other bands have
the inlays that they had. -/
theorem rowInlays_perm (h : v.Gains v' i) (hrow : v.rows[m]? = some row)
    (hrow' : v'.rows[m]? = some row') :
    (v'.rowInlays m row').Perm
      (if v.Covers m i.offset then i :: v.rowInlays m row else v.rowInlays m row) := by
  have hcovers : (fun j : Inlay => decide (v'.Covers m j.offset)) =
      fun j => decide (v.Covers m j.offset) := by
    funext j
    exact decide_eq_decide.mpr h.covers_iff
  rw [rowInlays_eq_filter hrow, rowInlays_eq_filter hrow', hcovers]
  have hperm := h.inlays_perm.filter fun j => decide (v.Covers m j.offset)
  rw [List.filter_cons] at hperm
  simpa only [decide_eq_true_eq] using hperm

variable (h : v.Gains v' i) (hn : v.Covers n i.offset) {d : Nat} {top : Row}
  (htop : v.rows[n]? = some top)
  (hd : d = bandGrowth (max v.settings.lineHeight.toNat (tallestInline (v.rowInlays n top)))
    i.height i.kind)
include h hn htop hd

/-- One band grows, and no other. -/
theorem bandHeight_eq (hrow : v.rows[m]? = some row) (hrow' : v'.rows[m]? = some row') :
    bandHeight v'.settings.lineHeight.toNat (v'.rowInlays m row') =
      bandHeight v.settings.lineHeight.toNat (v.rowInlays m row) + if m = n then d else 0 := by
  rw [h.lineHeight_eq, bandHeight_perm (h.rowInlays_perm hrow hrow')]
  by_cases hm : m = n
  · subst hm
    obtain rfl : top = row := Option.some.inj (htop.symm.trans hrow)
    rw [if_pos hn, if_pos rfl, bandHeight_cons, hd]
  · rw [if_neg fun hcovers => hm (h.sound.eq_of_covers hn hcovers), if_neg hm, Nat.add_zero]

variable (htotal : v'.totalHeight < maxPixels)
include htotal

/-- A band whose row stays where it is, or moves down by the growth, has its bottom moved down if
it is the band that grows or lies below it. -/
theorem rowBottom_eq (hrow : v.rows[m]? = some row) (hrow' : v'.rows[m]? = some row')
    (hy : row'.y = row.y + if m ≤ n then 0 else d) :
    v'.rowBottom m = v.rowBottom m + if m < n then 0 else d := by
  have hband := h.bandHeight_eq hn htop hd hrow hrow'
  -- neither band reaches the largest position, so no sum below is cut off
  have hlt := (h.sound'.rowBottom_le_totalHeight m).trans_lt htotal
  rw [h.sound'.rowBottom_eq hrow', addPixels, cappedAdd, hband, hy] at hlt ⊢
  rw [h.sound.rowBottom_eq hrow, addPixels, cappedAdd]
  rcases Nat.lt_trichotomy m n with hm | rfl | hm
  · simp only [hm, hm.le, hm.ne, if_true, if_false] at hlt ⊢
    omega
  · simp only [Nat.le_refl, Nat.lt_irrefl, if_true, if_false] at hlt ⊢
    omega
  · simp only [hm.not_gt, hm.not_ge, hm.ne', if_false] at hlt ⊢
    omega

/-- **Rows below the band that grows move down by the growth,** and no others. -/
theorem y_eq (hrow : v.rows[m]? = some row) (hrow' : v'.rows[m]? = some row') :
    row'.y = row.y + if m ≤ n then 0 else d := by
  induction m generalizing row row' with
  | zero =>
    rw [h.sound.y_zero hrow, h.sound'.y_zero hrow', if_pos (Nat.zero_le n)]
  | succ m ih =>
    obtain ⟨above, habove⟩ := exists_getElem?_of_le (Nat.le_succ m) hrow
    obtain ⟨above', habove'⟩ := exists_getElem?_of_le (Nat.le_succ m) hrow'
    have hbottom := h.rowBottom_eq hn htop hd htotal habove habove' (ih habove habove')
    rwa [rowBottom_of_some hrow, rowBottom_of_some hrow'] at hbottom

/-- Where everything stops moves down by the growth, as no row lies below the last one. -/
theorem totalHeight_eq : v'.totalHeight = v.totalHeight + d := by
  obtain ⟨k, last, hlast, hnone, -⟩ := h.sound.exists_last
  have hlength := h.length_rows_eq
  have hnone' : v'.rows[k + 1]? = none := by
    rw [List.getElem?_eq_none_iff, hlength]
    exact List.getElem?_eq_none_iff.mp hnone
  obtain ⟨last', hlast'⟩ : ∃ last', v'.rows[k]? = some last' :=
    ⟨_, List.getElem?_eq_getElem (hlength ▸ (List.getElem?_eq_some_iff.mp hlast).1)⟩
  have hbelow : ¬ k < n := Nat.not_lt_of_le (le_of_getElem?_succ_eq_none htop hnone)
  have hbottom := h.rowBottom_eq hn htop hd htotal hlast hlast'
    (h.y_eq hn htop hd htotal hlast hlast')
  rwa [rowBottom_of_none hnone, rowBottom_of_none hnone', if_neg hbelow] at hbottom

end Gains

/-! ### The main statement -/

/-- **One more inlay moves the rows below it, and only these.** An inlay that is anchored in the
text or at its end can be added. Afterwards there are as many rows, at the same places in the text.
Let the offset be looked up to row `n`. As long as everything together stays below the largest
position that 32 bits can express, the rows up to this one keep their tops, and the rows below it
and the bottom of everything move down by the same distance: the height of a block inlay, or what
an inline inlay stands out above a line of text and all inline inlays from the start of row `n` to
that of the row below it. -/
theorem added_inlay_shifts_rows_below (h : v.Reachable) (ho : o ≤ v.document.length)
    (height : Nat) (kind : InlayKind) :
    ∃ v' n row, v.addInlay o height kind = .ok v' ∧
      v.rowOfOffset? o = some n ∧ v.rows[n]? = some row ∧
      v'.rowCount = v.rowCount ∧
      (∀ (m : Nat) (r r' : Row), v.rows[m]? = some r → v'.rows[m]? = some r' →
        r.SamePlace r') ∧
      (v'.totalHeight < 2 ^ 32 - 1 →
        ∃ d, d = bandGrowth
            (max v.settings.lineHeight.toNat (tallestInline (v.rowInlays n row))) height kind ∧
          v'.totalHeight = v.totalHeight + d ∧
          ∀ (m : Nat) (r r' : Row), v.rows[m]? = some r → v'.rows[m]? = some r' →
            r'.y = r.y + if m ≤ n then 0 else d) := by
  have hsound := h.sound
  have hadd : v.addInlay o height kind = .ok (v.useInlays (v.inlays.add o height kind)) :=
    if_neg (Nat.not_lt_of_le ho)
  have hgains := hsound.gains_addInlay hadd
  obtain ⟨n, hn⟩ := hsound.exists_covers o
  have ⟨row, hrow, _⟩ := hn
  have hlookup : v.rowOfOffset? o = some n := by
    rw [hsound.rowOfOffset?_eq_some_iff, Nat.min_eq_left ho]
    exact hn
  refine ⟨_, n, row, hadd, hlookup, hrow, hgains.rowCount_eq, ?_, ?_⟩
  · intro m r r' hr hr'
    exact hgains.samePlace hr hr'
  · intro htotal
    refine ⟨_, rfl, hgains.totalHeight_eq hn hrow rfl htotal, ?_⟩
    intro m r r' hr hr'
    exact hgains.y_eq hn hrow rfl htotal hr hr'

/-- The first line has an inline inlay of 30 pixels, and one of 45 is put in front of it. -/
theorem inlay_shifts_inlaidLines :
    inlaidLines.totalHeight = 57 ∧ inlaidLines.rowOfOffset? 0 = some 0 ∧
      inlaidLines.rows.map Row.y = [0, 37, 47] ∧
      ∃ v', inlaidLines.addInlay 0 45 .inline = .ok v' ∧ v'.totalHeight = 57 + 15 ∧
        ∀ (m : Nat) (r r' : Row), inlaidLines.rows[m]? = some r → v'.rows[m]? = some r' →
          r'.start = r.start ∧ r'.y = r.y + if m ≤ 0 then 0 else 15 := by
  have hreachable : inlaidLines.Reachable := reachable_threeLines _
  have htotal : inlaidLines.totalHeight = 57 := by decide +kernel
  have hfirst : inlaidLines.rowOfOffset? 0 = some 0 := by decide +kernel
  obtain ⟨v', n, row, hadd, hlookup, hrow, -, hplaces, hshift⟩ :=
    added_inlay_shifts_rows_below hreachable (Nat.zero_le inlaidLines.document.length) 45 .inline
  obtain rfl : 0 = n := Option.some.inj (hfirst.symm.trans hlookup)
  obtain rfl : inlaidLines.useInlays (inlaidLines.inlays.add 0 45 .inline) = v' :=
    Except.ok.inj ((if_neg (Nat.not_lt_zero _)).symm.trans hadd)
  obtain ⟨d, hd, htotal', hmoved⟩ := hshift (by decide +kernel)
  have htallest : max inlaidLines.settings.lineHeight.toNat
      (tallestInline (inlaidLines.rowInlays 0 row)) = 30 := by
    obtain rfl : ⟨0, 0, 2, 0, 0, none, 0, 0, 30⟩ = row := by
      have hrows : inlaidLines.rows[0]? = some ⟨0, 0, 2, 0, 0, none, 0, 0, 30⟩ := by
        decide +kernel
      exact Option.some.inj (hrows.symm.trans hrow)
    decide +kernel
  obtain rfl : d = 15 := by
    rw [hd, htallest]
    rfl
  refine ⟨htotal, hfirst, by decide +kernel, _, hadd, htotal ▸ htotal', ?_⟩
  intro m r r' hr hr'
  exact ⟨(hplaces m r r' hr hr').start_eq, hmoved m r r' hr hr'⟩

end View

end RowLayout
