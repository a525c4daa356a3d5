import RowLayout.Proofs.WordCuts

/-!
# Rows cut after blanks

Behind a row that was cut after its last blank follows what stood behind that blank. It has room
there, as it had room on the row that it comes from, unless the new row is indented and the old one
is not. So there is one case in which a row of several characters does not end within the viewport:
it follows the first row of the line, and is indented by more than what the first row has kept. The
scan looks at this row only when a further character is to be put on it, and then it cuts in front
of that character, too late for those that the row already has.

## Main definitions

* `Span.CarriedOver` — the end of a first row that has no room where it is carried over to

## Main results

* `WordScan.CutFrom.fits_or_carriedOver` — all rows fit, but one that was carried over
* `overfull_row_iff` — and that one never does
* `wordRows_fit` — an indentation that is the line's own, or none, is never in the way
-/

namespace RowLayout

variable {width indent tab r n i : Nat} {text : List Char}

/-! ### Rows that fit -/

namespace Span

/-- The end of a line's first row that has no room where it is carried over to: several characters
behind a blank, and without one among them. They fit on the first row, the next character does not,
and once they are indented they pass the edge of the viewport. -/
structure CarriedOver (width indent tab : Nat) (text : List Char) (row : Span) : Prop where
  afterBlank : AfterBlank text row.start
  unbroken : Unbroken text row.start row.stop
  several : row.start + 1 < row.stop
  before : cellAt tab text row.stop ≤ width
  behind : width < cellAt tab text (row.stop + 1)
  overfull : width < row.reach indent tab text

end Span

namespace WordScan

variable {r' : Nat} {c : Char} {cuts points : List Nat} {row : Span}

/-- A row that has got a further character fits. -/
theorem CutBefore.fits_succ (hrn : r ≤ n) (hc : text[n]? = some c)
    (h : CutBefore width indent tab text (cellWidth tab (cellAt tab text n) c) r n cuts r') :
    r' ≤ n ∧ (Span.mk r' (n + 1)).Fits width indent tab text := by
  cases h with
  | nowhere h =>
    rw [Span.reach_add_width hrn hc] at h
    exact ⟨hrn, h.imp_right fun hempty => by rw [hempty]⟩
  | afterBlank _ _ hbn _ _ h =>
    rw [Span.reach_add_width hbn hc] at h
    exact ⟨hbn, h.imp_right fun hempty => by rw [hempty]⟩
  | twice => exact ⟨Nat.le_refl n, .inr rfl⟩
  | inWord => exact ⟨Nat.le_refl n, .inr rfl⟩

/-- What stands behind the last blank of a row that fits has room on a row of its own, unless it
is carried over from the first row. -/
theorem fits_or_carriedOver_of_twice {b : Nat} (hbelow : textWidth tab text < maxCells)
    (hc : text[n]? = some c) (hrow : (Span.mk r n).Fits width indent tab text)
    (hfull : width < (Span.mk r n).reach indent tab text + cellWidth tab (cellAt tab text n) c)
    (hrb : r < b) (hbn : b < n) (hb : AfterBlank text b) (hword : Unbroken text b n) :
    (Span.mk b n).Fits width indent tab text ∨
      (Span.mk b n).CarriedOver width indent tab text := by
  by_cases hfits : (Span.mk b n).Fits width indent tab text
  · exact .inl hfits
  obtain ⟨hreach, hseveral⟩ := not_or.mp hfits
  have hreach_b := Span.reach_add_cellAt hbelow (Nat.le_of_lt hbn) indent
  have hreach_r := Span.reach_add_cellAt hbelow (Nat.le_of_lt (Nat.lt_trans hrb hbn)) indent
  have hroom : (Span.mk r n).reach indent tab text ≤ width :=
    hrow.resolve_right fun hsingle => by simp only at hsingle; omega
  -- behind the first row both rows are indented alike, and the later start reaches less far
  obtain rfl : r = 0 := by
    by_contra hr
    have hmono := cellAt_mono hbelow (Nat.le_of_lt hrb)
    rw [if_neg (by omega)] at hreach_b hreach_r
    omega
  rw [Span.reach_zero hbelow] at hroom hfull
  refine .inr ⟨hb, hword, ?_, hroom, ?_, ?_⟩
  · simp only at hseveral ⊢
    omega
  · rwa [cellAt_succ_of_lt hbelow hc]
  · exact Nat.not_le.mp hreach

/-- **All rows fit, but one that was carried over.** -/
theorem CutFrom.fits_or_carriedOver (hbelow : textWidth tab text < maxCells)
    (h : CutFrom width indent tab text r n points) (hrn : r ≤ n)
    (hrow : (Span.mk r n).Fits width indent tab text)
    (hmem : row ∈ rowSpans r points text.length) :
    row.Fits width indent tab text ∨ row.CarriedOver width indent tab text := by
  induction h with
  | done r =>
    obtain rfl : row = ⟨r, text.length⟩ := by simpa using hmem
    exact .inl hrow
  | @step r n r' c cuts points hc hcuts hpoints ih =>
    obtain ⟨hle, hnext⟩ := hcuts.fits_succ hrn hc
    have hrest := ih (Nat.le_succ_of_le hle) hnext
    cases hcuts with
    | nowhere => exact hrest hmem
    | afterBlank _ hrb hbn =>
      rw [List.singleton_append, rowSpans_cons, List.mem_cons] at hmem
      obtain rfl | hmem := hmem
      · exact .inl (hrow.shorter hrb hbn)
      · exact hrest hmem
    | twice hfull hrb hbn hb hword =>
      rw [List.cons_append, List.singleton_append, rowSpans_cons, rowSpans_cons, List.mem_cons,
        List.mem_cons] at hmem
      obtain rfl | rfl | hmem := hmem
      · exact .inl (hrow.shorter hrb (Nat.le_of_lt hbn))
      · exact fits_or_carriedOver_of_twice hbelow hc hrow hfull hrb hbn hb hword
      · exact hrest hmem
    | inWord =>
      rw [List.singleton_append, rowSpans_cons, List.mem_cons] at hmem
      obtain rfl | hmem := hmem
      · exact .inl hrow
      · exact hrest hmem

/-- Nothing is cut in front of a character that fits. -/
theorem CutBefore.eq_of_fits (h : CutBefore width indent tab text w r n cuts r')
    (hfits : (Span.mk r n).reach indent tab text + w ≤ width) : cuts = [] ∧ r' = r := by
  cases h with
  | nowhere => exact ⟨rfl, rfl⟩
  | afterBlank hfull => exact absurd hfits (Nat.not_le.mpr hfull)
  | twice hfull => exact absurd hfits (Nat.not_le.mpr hfull)
  | inWord hfull => exact absurd hfits (Nat.not_le.mpr hfull)

/-- **What has no room where it would be carried over to is carried over.** -/
theorem CutFrom.mem_of_carriedOver (hbelow : textWidth tab text < maxCells)
    (h : CutFrom width indent tab text r n points) (hr : r = 0) (hn : n ≤ row.stop)
    (hrow : row.CarriedOver width indent tab text) :
    row ∈ rowSpans r points text.length := by
  obtain ⟨start, stop⟩ := row
  have hseveral := hrow.several
  simp only at hn hseveral
  induction h with
  | done r =>
    -- behind the end of the line there is no character that does not fit
    have hbehind := hrow.behind
    have hbefore := hrow.before
    rw [cellAt_of_length_le (Nat.le_succ_of_le hn)] at hbehind
    rw [cellAt_of_length_le hn] at hbefore
    omega
  | @step r n r' c cuts points hc hcuts hpoints ih =>
    subst hr
    have hreach : (Span.mk 0 n).reach indent tab text + cellWidth tab (cellAt tab text n) c =
        cellAt tab text (n + 1) := by
      rw [Span.reach_zero hbelow, cellAt_succ_of_lt hbelow hc]
    rcases Nat.lt_or_eq_of_le hn with hlt | rfl
    · -- up to the stop everything fits on the first row
      have hfits : cellAt tab text (n + 1) ≤ width :=
        Nat.le_trans (cellAt_mono hbelow hlt) hrow.before
      obtain ⟨rfl, rfl⟩ := hcuts.eq_of_fits (hreach ▸ hfits)
      exact ih rfl hlt
    · have hlast {b : Nat} (hb : AfterBlank text b) (hbn : b ≤ n) (hword : Unbroken text b n) :
          b = start :=
        Nat.le_antisymm (hb.le_of_unbroken hrow.unbroken hbn)
          (hrow.afterBlank.le_of_unbroken hword (by simp only; omega))
      have hbehind := hrow.behind
      cases hcuts with
      | nowhere h => simp only at hbehind; omega
      | afterBlank _ hrb hbn hb hword h =>
        obtain rfl := hlast hb hbn hword
        have hoverfull := hrow.overfull
        omega
      | twice _ hrb hbn hb hword =>
        obtain rfl := hlast hb (Nat.le_of_lt hbn) hword
        simp
      | inWord _ _ hword =>
        have hle := hrow.afterBlank.le_of_unbroken hword (by simp only; omega)
        exact absurd hrow.afterBlank.pos (Nat.not_lt.mpr hle)

end WordScan

variable {row : Span}

/-- What was carried over has no room. -/
theorem Span.CarriedOver.not_fits (h : row.CarriedOver width indent tab text) :
    ¬ row.Fits width indent tab text := by
  rintro (hreach | hsingle)
  · exact absurd h.overfull (Nat.not_lt.mpr hreach)
  · exact absurd h.several (Nat.not_lt.mpr (Nat.le_of_eq hsingle))

/-- The rows of a line cut after blanks are cut as said of the line alone. -/
theorem wrapRows_word (indent : WrapIndent) (hwidth : 0 < width) (tab : Nat) (text : List Char) :
    wrapRows .word indent width tab text =
      rowSpans 0 (wordPoints width tab (indent.cells width tab text) text) text.length := by
  rw [wrapRows, wrapPoints, if_neg (Nat.ne_of_gt hwidth)]

/-- The rows of a line fit, but one that was carried over. -/
theorem fits_or_carriedOver_of_mem (hwidth : 0 < width)
    (hcells : textWidth tab text + width ≤ maxCells) {indent : WrapIndent}
    (hmem : row ∈ wrapRows .word indent width tab text) :
    row.Fits width (indent.cells width tab text) tab text ∨
      row.CarriedOver width (indent.cells width tab text) tab text := by
  have hbelow : textWidth tab text < maxCells := by omega
  have hcut := WordScan.cutFrom_wordPoints (indent.cells_lt hwidth tab text) hcells
  have hempty : (Span.mk 0 0).Fits width (indent.cells width tab text) tab text :=
    .inl (by rw [Span.reach_zero hbelow]; exact Nat.zero_le width)
  rw [wrapRows_word indent hwidth] at hmem
  exact hcut.fits_or_carriedOver hbelow (Nat.le_refl 0) hempty hmem

/-- **The rows of a line that do not fit** are those that were carried over without room. -/
theorem overfull_row_iff (hwidth : 0 < width) (hcells : textWidth tab text + width ≤ maxCells)
    (indent : WrapIndent) (row : Span) :
    (row ∈ wrapRows .word indent width tab text ∧
        ¬ row.Fits width (indent.cells width tab text) tab text) ↔
      row.CarriedOver width (indent.cells width tab text) tab text := by
  have hbelow : textWidth tab text < maxCells := by omega
  constructor
  · rintro ⟨hmem, hnot⟩
    exact (fits_or_carriedOver_of_mem hwidth hcells hmem).resolve_left hnot
  · intro h
    have hcut := WordScan.cutFrom_wordPoints (indent.cells_lt hwidth tab text) hcells
    rw [wrapRows_word indent hwidth]
    exact ⟨hcut.mem_of_carriedOver hbelow rfl (Nat.zero_le _) h, h.not_fits⟩

/-- A line that begins with a blank, and has one word behind it. -/
def indentedWord : List Char := [' ', 'b', 'b', 'b']

theorem indentedWord_carriedOver :
    0 < 3 ∧ textWidth 4 indentedWord + 3 ≤ maxCells ∧
      (Span.mk 1 3).CarriedOver 3 ((WrapIndent.fixedCells 2).cells 3 4 indentedWord) 4
        indentedWord := by
  have hcells : textWidth 4 indentedWord + 3 ≤ maxCells := by decide +kernel
  have hrow : ⟨1, 3⟩ ∈ wrapRows .word (.fixedCells 2) 3 4 indentedWord := by decide +kernel
  refine ⟨by decide, hcells, ?_⟩
  exact (overfull_row_iff (by decide) hcells (.fixedCells 2) ⟨1, 3⟩).mp ⟨hrow, by decide +kernel⟩

/-- On a viewport of three cells, two of which are indented, two of the word's characters are
carried over to a row with room for one. -/
theorem indentedWord_overfull :
    0 < 3 ∧ textWidth 4 indentedWord + 3 ≤ maxCells ∧
      ¬ ∀ row ∈ wrapRows .word (.fixedCells 2) 3 4 indentedWord,
        row.Fits 3 ((WrapIndent.fixedCells 2).cells 3 4 indentedWord) 4 indentedWord := by
  decide +kernel

/-! ### Indentations that are not in the way -/

/-- Where a row was carried over without room, the rows of the line are indented by more than its
first row has kept. -/
theorem Span.CarriedOver.cellAt_lt (hbelow : textWidth tab text < maxCells)
    (h : row.CarriedOver width indent tab text) : cellAt tab text row.start < indent := by
  have hreach : row.reach indent tab text + cellAt tab text row.start =
      (if row.start = 0 then 0 else indent) + cellAt tab text row.stop :=
    reach_add_cellAt hbelow (Nat.le_of_lt (Nat.lt_of_succ_lt h.several)) indent
  have hbefore := h.before
  have hoverfull := h.overfull
  rw [if_neg (Nat.ne_of_gt h.afterBlank.pos)] at hreach
  omega

/-- A character that begins within the line's own indentation is blank. -/
theorem isBlank_of_cellAt_lt (hbelow : textWidth tab text < maxCells)
    (h : cellAt tab text i < textWidth tab (text.takeWhile isIndent)) :
    ∃ c, text[i]? = some c ∧ isBlank c = true := by
  have htake : text.takeWhile isIndent = text.take (text.takeWhile isIndent).length :=
    List.prefix_iff_eq_take.mp (List.takeWhile_prefix isIndent)
  have hlt : i < (text.takeWhile isIndent).length := by
    by_contra hle
    have hmono := cellAt_mono hbelow (Nat.not_lt.mp hle)
    rw [cellAt, ← htake] at hmono
    omega
  refine ⟨(text.takeWhile isIndent)[i], ?_, isBlank_of_isIndent ?_⟩
  · rw [← List.getElem?_eq_getElem hlt, htake, List.getElem?_take_of_lt hlt]
  · exact List.all_eq_true.mp List.all_takeWhile _ (List.getElem_mem hlt)

/-- **A line whose rows are indented like itself, or not at all, is cut into rows that fit.** -/
theorem wordRows_fit (hwidth : 0 < width) (hcells : textWidth tab text + width ≤ maxCells)
    {indent : WrapIndent} (hown : ∀ n, indent ≠ .fixedCells n) {row : Span}
    (hmem : row ∈ wrapRows .word indent width tab text) :
    row.Fits width (indent.cells width tab text) tab text := by
  have hbelow : textWidth tab text < maxCells := by omega
  refine (fits_or_carriedOver_of_mem hwidth hcells hmem).resolve_right fun h => ?_
  have hlt := h.cellAt_lt hbelow
  cases indent with
  | none => simp at hlt
  | sameAsLine =>
    have hwanted : cellAt tab text row.start < textWidth tab (text.takeWhile isIndent) := by
      refine Nat.lt_of_lt_of_le hlt ?_
      rw [WrapIndent.cells]
      split
      · exact Nat.zero_le _
      · exact Nat.min_le_left ..
    obtain ⟨c, hc, hblank⟩ := isBlank_of_cellAt_lt hbelow hwanted
    have hnot := h.unbroken row.start c (Nat.le_refl _) (Nat.lt_of_succ_lt h.several) hc
    exact Bool.false_ne_true (hnot.symm.trans hblank)
  | fixedCells n => exact hown n rfl

end RowLayout
