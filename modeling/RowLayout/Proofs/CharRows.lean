import RowLayout.Proofs.GreedyRows

/-!
# Rows cut between characters

A row that may be cut anywhere is as long as its characters allow. It passes the edge of the
viewport in one case only, when its last character is too wide for any continuation row: even alone
on one it would pass the edge, so it stays where it is, behind characters that keep to the
indentation. What comes in front of it fits.

A row is cut as soon as it reaches the edge, if there are more characters, whether or not these take
any cells. So a line that fits the viewport is cut all the same if it reaches the edge before its
last character. What follows the cut are characters without cells, for example the accents of the
last letter. No other line that fits is cut, and cut after blanks no line that fits is cut at all.

## Main definitions

* `Span.FitsUpToLast` — a row that fits, but perhaps for a last character that fits on no row
* `edgeIndex?` — the first character that begins at the edge of the viewport

## Main results

* `charRows_fit` — rows cut between characters fit up to their last character
* `wrapPoints_of_fits` — where a line is cut that fits the viewport
-/

namespace RowLayout

variable {width indent tab r n i : Nat} {text : List Char} {points : List Nat} {row : Span}

/-! ### Rows that fit -/

/-- A row ends within the viewport, or it does so up to its last character, which would pass the
edge on an otherwise empty continuation row as well. -/
def Span.FitsUpToLast (width indent tab : Nat) (text : List Char) (row : Span) : Prop :=
  row.reach indent tab text ≤ width ∨
    ∃ last c, row.stop = last + 1 ∧ row.start ≤ last ∧ text[last]? = some c ∧
      (Span.mk row.start last).reach indent tab text ≤ width ∧
      width < indent + cellWidth tab (cellAt tab text last) c

/-- A row that was nowhere full fits up to its last character. -/
theorem fitsUpToLast_of_room (hindent : indent < width) (hri : r ≤ i) (hi : i ≤ text.length)
    (hroom : ∀ k, r < k → k < i → ¬ (charRule width indent tab text).Full r k) :
    (Span.mk r i).FitsUpToLast width indent tab text := by
  by_cases hfits : (Span.mk r i).reach indent tab text ≤ width
  · exact .inl hfits
  have hempty : (Span.mk r r).reach indent tab text ≤ indent := Span.reach_self_le ..
  have hlt : r < i := by
    refine Nat.lt_of_le_of_ne hri ?_
    rintro rfl
    omega
  obtain ⟨last, rfl⟩ : ∃ last, i = last + 1 := Nat.exists_eq_add_one.mpr (Nat.zero_lt_of_lt hlt)
  have hrl : r ≤ last := Nat.le_of_lt_succ hlt
  have hc : text[last]? = some text[last] := List.getElem?_eq_getElem hi
  have hreach : (Span.mk r last).reach indent tab text +
      cellWidth tab (cellAt tab text last) text[last] =
        (Span.mk r (last + 1)).reach indent tab text := Span.reach_add_width hrl hc indent
  -- a row that keeps to the indentation is not full, however wide the next character is
  have hlow : (Span.mk r last).reach indent tab text ≤ indent := by
    rcases Nat.eq_or_lt_of_le hrl with rfl | hlt
    · exact hempty
    · have hnot := hroom last hlt (Nat.lt_succ_self last)
      by_contra hhigh
      exact hnot ⟨hi, .inr ⟨Nat.not_le.mp hhigh, Nat.not_le.mp hfits⟩⟩
  refine .inr ⟨last, text[last], rfl, hrl, hc, Nat.le_of_lt (Nat.lt_of_le_of_lt hlow hindent), ?_⟩
  omega

/-- The rows cut by the rule fit up to their last character. -/
theorem fitsUpToLast_of_rows (hindent : indent < width)
    (h : (charRule width indent tab text).Rows r n points) (hnr : n = r) (hr : r ≤ text.length)
    (hmem : row ∈ rowSpans r points text.length) : row.FitsUpToLast width indent tab text := by
  induction h with
  | @last r n hroom =>
    subst hnr
    obtain rfl : row = ⟨n, text.length⟩ := by simpa using hmem
    refine fitsUpToLast_of_room hindent hr (Nat.le_refl _) fun k hnk _ => ?_
    exact hroom k (Nat.le_of_lt hnk) hnk
  | @cut r n m p points hfirst hcut _ ih =>
    subst hnr
    obtain rfl : p = m := hcut
    have hp : p ≤ text.length := Nat.le_of_lt hfirst.full.1
    rw [rowSpans_cons, List.mem_cons] at hmem
    obtain rfl | hmem := hmem
    · refine fitsUpToLast_of_room hindent hfirst.le hp fun k hnk => ?_
      exact hfirst.room k (Nat.le_of_lt hnk) hnk
    · exact ih rfl hp hmem

/-- **The rows of a line cut between characters fit** up to their last character, and that one
passes the edge only where it would do so on an empty continuation row. -/
theorem charRows_fit (hwidth : 0 < width) (hcells : textWidth tab text + width ≤ maxCells)
    (indent : WrapIndent) (hmem : row ∈ wrapRows .char indent width tab text) :
    row.FitsUpToLast width (indent.cells width tab text) tab text := by
  have hindent := indent.cells_lt hwidth tab text
  have hsum : (cellWidths tab 0 text).sum ≤ maxCells := sum_cellWidths_le (by omega)
  rw [wrapRows, wrapPoints, if_neg (Nat.ne_of_gt hwidth)] at hmem
  exact fitsUpToLast_of_rows hindent (rows_charPoints hindent (by omega) hsum) rfl (Nat.zero_le _)
    hmem

/-- A line that begins with a tab. -/
def tabbedWord : List Char := ['\t', 'b', 'b']

/-- On a viewport of three cells a tab of four sticks out, alone on its row. -/
theorem tabbedWord_sticksOut :
    0 < 3 ∧ textWidth 4 tabbedWord + 3 ≤ maxCells ∧ (Span.mk 0 1).reach 0 4 tabbedWord = 4 ∧
      (Span.mk 0 1).FitsUpToLast 3 (WrapIndent.none.cells 3 4 tabbedWord) 4 tabbedWord := by
  have hrow : ⟨0, 1⟩ ∈ wrapRows .char .none 3 4 tabbedWord := by decide +kernel
  have hcells : textWidth 4 tabbedWord + 3 ≤ maxCells := by decide +kernel
  exact ⟨by decide, hcells, by decide +kernel, charRows_fit (by decide) hcells .none hrow⟩

/-! ### Lines that fit -/

/-- The first character of a line that begins at the edge of the viewport. -/
def edgeIndex? (width tab : Nat) (text : List Char) : Option Nat :=
  (List.range text.length).find? fun i => cellAt tab text i = width

theorem edgeIndex?_eq_none_iff :
    edgeIndex? width tab text = none ↔ ∀ i < text.length, cellAt tab text i ≠ width := by
  simp [edgeIndex?]

theorem edgeIndex?_eq_some_iff :
    edgeIndex? width tab text = some i ↔
      (i < text.length ∧ cellAt tab text i = width) ∧ ∀ j < i, cellAt tab text j ≠ width := by
  simp [edgeIndex?, List.find?_range_eq_some, and_assoc, and_left_comm]

theorem pos_of_cellAt_eq (hwidth : 0 < width) (hedge : cellAt tab text i = width) : 0 < i := by
  refine Nat.pos_of_ne_zero ?_
  rintro rfl
  rw [cellAt_zero] at hedge
  omega

/-- No row of a line that fits has more cells than the viewport. -/
theorem cells_le_of_fits (hsum : (cellWidths tab 0 text).sum ≤ maxCells)
    (hfits : textWidth tab text ≤ width) (hi : i ≤ text.length) :
    (Span.mk 0 i).cells tab text ≤ width := by
  refine Nat.le_trans (Span.cells_mono tab text (Nat.le_refl 0) hi) ?_
  rwa [← cellAt_eq_cells hsum, cellAt_of_length_le (Nat.le_refl _)]

/-- On a line that fits nothing passes the edge, so the first row is full where it reaches it. -/
theorem full_first_iff (hsum : (cellWidths tab 0 text).sum ≤ maxCells)
    (hfits : textWidth tab text ≤ width) :
    (charRule width indent tab text).Full 0 i ↔ i < text.length ∧ cellAt tab text i = width := by
  simp only [charRule, Span.reach_first, cellAt_eq_cells hsum]
  constructor
  · rintro ⟨hi, hedge | ⟨-, hpast⟩⟩
    · exact ⟨hi, Nat.le_antisymm (cells_le_of_fits hsum hfits (Nat.le_of_lt hi)) hedge⟩
    · exact absurd hpast (Nat.not_lt.mpr (cells_le_of_fits hsum hfits hi))
  · rintro ⟨hi, hedge⟩
    exact ⟨hi, .inl (Nat.le_of_eq hedge.symm)⟩

/-- Behind a row that has all the cells of a line there is no other full row. -/
theorem not_full_behind_edge (hindent : indent < width)
    (hsum : (cellWidths tab 0 text).sum ≤ maxCells) (hfits : textWidth tab text ≤ width)
    (hr : 0 < r) (hedge : cellAt tab text r = width) (hri : r ≤ i) :
    ¬ (charRule width indent tab text).Full r i := by
  have hreach {k : Nat} (hrk : r ≤ k) (hk : k ≤ text.length) :
      (Span.mk r k).reach indent tab text = indent := by
    have hsplit := Span.cells_append tab text (Nat.zero_le r) hrk
    have hall := cells_le_of_fits hsum hfits hk
    rw [cellAt_eq_cells hsum] at hedge
    have hnone : (Span.mk r k).cells tab text = 0 := by omega
    rw [Span.reach, hnone, Span.indented, if_neg (Nat.ne_of_gt hr), Nat.add_zero]
  rintro ⟨hi, hfull⟩
  rw [hreach hri (Nat.le_of_lt hi), hreach (Nat.le_succ_of_le hri) hi] at hfull
  omega

/-- A line that fits is cut between characters where it first reaches the edge of the viewport, and
nowhere else. -/
theorem charPoints_of_fits (hindent : indent < width) (hcells : width ≤ maxCells)
    (hsum : (cellWidths tab 0 text).sum ≤ maxCells) (hfits : textWidth tab text ≤ width) :
    charPoints width tab indent text = (edgeIndex? width tab text).toList := by
  have hwidth : 0 < width := Nat.zero_lt_of_lt hindent
  have hrows := rows_charPoints hindent hcells hsum
  generalize charPoints width tab indent text = points at hrows ⊢
  cases hrows with
  | last hroom =>
    have hnone : edgeIndex? width tab text = none := by
      refine edgeIndex?_eq_none_iff.mpr fun i hi hedge => ?_
      exact hroom i (Nat.zero_le i) (pos_of_cellAt_eq hwidth hedge)
        ((full_first_iff hsum hfits).mpr ⟨hi, hedge⟩)
    rw [hnone]
    rfl
  | @cut _ _ m p rest hfirst hcut hrest =>
    obtain rfl : p = m := hcut
    obtain ⟨hp, hedge⟩ := (full_first_iff hsum hfits).mp hfirst.full
    have hsome : edgeIndex? width tab text = some p := by
      refine edgeIndex?_eq_some_iff.mpr ⟨⟨hp, hedge⟩, fun j hj hedge' => ?_⟩
      exact hfirst.room j (Nat.zero_le j) (pos_of_cellAt_eq hwidth hedge') hj
        ((full_first_iff hsum hfits).mpr ⟨Nat.lt_trans hj hp, hedge'⟩)
    cases hrest with
    | last =>
      rw [hsome]
      rfl
    | cut hfirst' =>
      exact absurd hfirst'.full
        (not_full_behind_edge hindent hsum hfits hfirst.lt hedge hfirst'.le)

/-- A scan that still is on the first row cuts nothing if the rest of the line fits. -/
theorem WordScan.points_of_fits {rest : List Char} {s : WordScan} (hrow : s.row = ⟨0, 0⟩)
    (hcells : width ≤ maxCells)
    (hfits : s.here.cell + (cellWidths tab s.here.cell rest).sum ≤ width) :
    s.points width tab indent rest = [] := by
  induction rest generalizing s with
  | nil => rfl
  | cons c rest ih =>
    rw [cellWidths, List.sum_cons] at hfits
    have hroom : s.fits width indent (cellWidth tab s.here.cell c) = true := by
      simp only [fits, indented, hrow, if_true, decide_eq_true_iff]
      rw [low64_of_le_maxCells (by omega)]
      omega
    have hcell : addCells s.here.cell (cellWidth tab s.here.cell c) =
        s.here.cell + cellWidth tab s.here.cell c := addCells_of_le (by omega)
    rw [points_cons, cuts_of_fits hroom]
    refine ih hrow ?_
    simp only [put, hcell] at hfits ⊢
    omega

/-- **Where a line is cut that fits the viewport.** After blanks it is not cut. Between characters
it is cut once, in front of the first character that begins at the edge of the viewport, if there
is one. -/
theorem wrapPoints_of_fits (hwidth : 0 < width) (hcells : width ≤ maxCells)
    (hsum : (cellWidths tab 0 text).sum ≤ maxCells) (hfits : textWidth tab text ≤ width)
    (indent : WrapIndent) :
    wrapPoints .word indent width tab text = [] ∧
      wrapPoints .char indent width tab text = (edgeIndex? width tab text).toList := by
  have hindent := indent.cells_lt hwidth tab text
  simp only [wrapPoints, if_neg (Nat.ne_of_gt hwidth)]
  constructor
  · refine WordScan.points_of_fits rfl hcells ?_
    rw [textWidth, textEnd_eq (Nat.zero_le _), addCells_of_le (by omega)] at hfits
    exact hfits
  · exact charPoints_of_fits hindent hcells hsum hfits

/-- Two letters, the second one with an accent, which takes no cell. -/
def accentedLetter : List Char := ['a', 'b', '\u0301']

/-- The letters fit a viewport of two cells, at the edge of which the accent begins. -/
theorem accentedLetter_fits :
    0 < 2 ∧ 2 ≤ maxCells ∧ (cellWidths 4 0 accentedLetter).sum ≤ maxCells ∧
      textWidth 4 accentedLetter ≤ 2 ∧ edgeIndex? 2 4 accentedLetter = some 2 ∧
      wrapPoints .word .none 2 4 accentedLetter = [] ∧
      wrapPoints .char .none 2 4 accentedLetter = (edgeIndex? 2 4 accentedLetter).toList := by
  have hsum : (cellWidths 4 0 accentedLetter).sum ≤ maxCells := by decide +kernel
  have hfits : textWidth 4 accentedLetter ≤ 2 := by decide +kernel
  refine ⟨by decide, by decide, hsum, hfits, by decide +kernel, ?_⟩
  exact wrapPoints_of_fits (by decide) (by decide) hsum hfits .none

/-- It is not so that no line is cut that fits: the accent is put on a row of its own. -/
theorem accentedLetter_cut :
    ¬ ∀ (mode : WrapMode) (indent : WrapIndent) (width tab : Nat) (text : List Char),
      0 < width → textWidth tab text ≤ width → wrapPoints mode indent width tab text = [] := by
  intro hclaim
  have hnil := hclaim .char .none 2 4 accentedLetter (by decide) (by decide +kernel)
  exact absurd hnil (by decide +kernel)

end RowLayout
