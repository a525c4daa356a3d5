import RowLayout.Proofs.GreedyRows

/-!
# Rows of a narrower viewport

In a narrower viewport each row of a line ends no later than the row of the same number does in the
wider one, and so there are no fewer rows. A row need not have fewer characters than before, for it
may begin earlier as well.

The continuation rows of a line are indented by less in a narrower viewport, where the indentation
is cut down to leave room for one cell. They do not gain by that: what the viewport loses in cells
is at least what the indentation does. The first row is not indented, so it is compared with first
rows only.

## Main results

* `WrapIndent.add_cells_le` — a narrower viewport does not leave more room beside the indentation
* `wordRule_stricter`, `charRule_stricter` — the rules of a narrower viewport are stricter
* `narrowing_keeps_rows` — in a narrower viewport each row of a line ends no later
-/

namespace RowLayout

variable {narrow wide indent indent' tab r r' i : Nat} {text : List Char}

/-! ### Indentations -/

namespace WrapIndent

theorem cells_eq_min (indent : WrapIndent) {width : Nat} (hwidth : 0 < width) (tab : Nat)
    (text : List Char) :
    indent.cells width tab text = min (indent.wanted tab text) (width - 1) := by
  rw [cells]
  split <;> omega

theorem cells_mono (indent : WrapIndent) (hnarrow : 0 < narrow) (hle : narrow ≤ wide) (tab : Nat)
    (text : List Char) : indent.cells narrow tab text ≤ indent.cells wide tab text := by
  rw [indent.cells_eq_min hnarrow, indent.cells_eq_min (Nat.lt_of_lt_of_le hnarrow hle)]
  omega

/-- A narrower viewport does not leave more room beside the indentation. -/
theorem add_cells_le (indent : WrapIndent) (hnarrow : 0 < narrow) (hle : narrow ≤ wide) (tab : Nat)
    (text : List Char) :
    narrow + indent.cells wide tab text ≤ wide + indent.cells narrow tab text := by
  rw [indent.cells_eq_min hnarrow, indent.cells_eq_min (Nat.lt_of_lt_of_le hnarrow hle)]
  omega

end WrapIndent

/-! ### Rules -/

/-- Up to the same character, a row that begins no later has no more room left in the narrower
viewport. -/
theorem Span.add_reach_le (tab : Nat) (text : List Char) (hle : narrow ≤ wide)
    (hroom : narrow + indent' ≤ wide + indent) (hr : r ≤ r') (hzero : r = 0 ↔ r' = 0) (i : Nat) :
    narrow + (Span.mk r' i).reach indent' tab text ≤
      wide + (Span.mk r i).reach indent tab text := by
  have hcells := Span.cells_mono tab text hr (Nat.le_refl i)
  simp only [reach, indented, hzero]
  split <;> omega

/-- Behind a row that has passed the wider indentation, an earlier one has passed the narrower. -/
theorem Span.lt_reach_of_lt_reach (hindent : indent ≤ indent') (hr : r ≤ r')
    (hzero : r = 0 ↔ r' = 0) (hlt : indent' < (Span.mk r' i).reach indent' tab text) :
    indent < (Span.mk r i).reach indent tab text := by
  have hcells := Span.cells_mono tab text hr (Nat.le_refl i)
  simp only [reach, indented, hzero] at hlt ⊢
  by_cases hfirst : r' = 0
  · rw [if_pos hfirst] at hlt ⊢
    omega
  · rw [if_neg hfirst] at hlt ⊢
    omega

/-- Cut after blanks, the rows of a narrower viewport are full earlier, and cut no later. -/
theorem wordRule_stricter (hle : narrow ≤ wide) (hroom : narrow + indent' ≤ wide + indent)
    (tab : Nat) (text : List Char) :
    (wordRule narrow indent tab text).Stricter (wordRule wide indent' tab text) where
  full := by
    rintro r r' m hr hzero ⟨hm, hpast⟩
    have hreach := Span.add_reach_le tab text hle hroom hr hzero (m + 1)
    exact ⟨hm, by omega⟩
  cut := by
    -- the last blank up to a character is no later than the last blank up to a later one
    rintro r r' m m' p p' hr hm hp' (⟨hb, -, hpm, -⟩ | ⟨rfl, hword⟩)
      (⟨hb', -, -, hword'⟩ | ⟨rfl, -⟩)
    · exact hb.le_of_unbroken hword' (Nat.le_trans hpm hm)
    · exact Nat.le_trans hpm hm
    · by_contra hlate
      have hle := hb'.le_of_unbroken hword (Nat.le_of_lt (Nat.not_le.mp hlate))
      omega
    · exact hm

/-- Cut between characters, the rows of a narrower viewport are full earlier. -/
theorem charRule_stricter (hle : narrow ≤ wide) (hindent : indent ≤ indent')
    (hroom : narrow + indent' ≤ wide + indent) (tab : Nat) (text : List Char) :
    (charRule narrow indent tab text).Stricter (charRule wide indent' tab text) where
  full := by
    rintro r r' m hr hzero ⟨hm, hedge | ⟨hkept, hpast⟩⟩
    · have hreach := Span.add_reach_le tab text hle hroom hr hzero m
      exact ⟨hm, .inl (by omega)⟩
    · have hreach := Span.add_reach_le tab text hle hroom hr hzero (m + 1)
      exact ⟨hm, .inr ⟨Span.lt_reach_of_lt_reach hindent hr hzero hkept, by omega⟩⟩
  cut := by
    rintro r r' m m' p p' - hm - rfl rfl
    exact hm

/-! ### Points -/

/-- **In a narrower viewport each row of a line ends no later,** and there are no fewer rows. -/
theorem narrowing_keeps_rows (hnarrow : 0 < narrow) (hle : narrow ≤ wide)
    (hcells : textWidth tab text + wide ≤ maxCells) (mode : WrapMode) (indent : WrapIndent) :
    (wrapPoints mode indent wide tab text).length ≤
        (wrapPoints mode indent narrow tab text).length ∧
      StaysAhead (wrapPoints mode indent narrow tab text)
        (wrapPoints mode indent wide tab text) := by
  have hwide : 0 < wide := Nat.lt_of_lt_of_le hnarrow hle
  have hcells' : textWidth tab text + narrow ≤ maxCells := by omega
  have hsum : (cellWidths tab 0 text).sum ≤ maxCells := sum_cellWidths_le (by omega)
  have hindent := indent.cells_mono hnarrow hle tab text
  have hroom := indent.add_cells_le hnarrow hle tab text
  have hahead : StaysAhead (wrapPoints mode indent narrow tab text)
      (wrapPoints mode indent wide tab text) := by
    cases mode with
    | none =>
      rw [wrapPoints_none, wrapPoints_none]
      exact .nil []
    | char =>
      rw [wrapPoints, wrapPoints, if_neg (Nat.ne_of_gt hnarrow), if_neg (Nat.ne_of_gt hwide)]
      have hrows := rows_charPoints (indent.cells_lt hnarrow tab text) (by omega) hsum
      have hrows' := rows_charPoints (indent.cells_lt hwide tab text) (by omega) hsum
      exact (charRule_stricter hle hindent hroom tab text).staysAhead hrows hrows' (Nat.le_refl 0)
        Iff.rfl (Nat.le_refl 0)
    | word =>
      rw [wrapPoints, wrapPoints, if_neg (Nat.ne_of_gt hnarrow), if_neg (Nat.ne_of_gt hwide)]
      have hrows := rows_wordPoints (indent.cells_lt hnarrow tab text) hcells'
      have hrows' := rows_wordPoints (indent.cells_lt hwide tab text) hcells
      exact (wordRule_stricter hle hroom tab text).staysAhead hrows hrows' (Nat.le_refl 0)
        Iff.rfl (Nat.le_refl 0)
  exact ⟨hahead.length_le, hahead⟩

/-- Two words of different length. -/
def unevenWords : List Char := ['a', 'b', ' ', 'c', 'd', 'e', 'f', 'g']

/-- With six cells the second word is cut in front of its last character. With four it is cut
earlier. -/
theorem unevenWords_narrowed :
    0 < 4 ∧ 4 ≤ 6 ∧ textWidth 4 unevenWords + 6 ≤ maxCells ∧
      wrapPoints .word (.fixedCells 2) 6 4 unevenWords = [3, 7] ∧
      StaysAhead (wrapPoints .word (.fixedCells 2) 4 4 unevenWords) [3, 7] := by
  have hcells : textWidth 4 unevenWords + 6 ≤ maxCells := by decide +kernel
  have hwide : wrapPoints .word (.fixedCells 2) 6 4 unevenWords = [3, 7] := by decide +kernel
  have hpos : 0 < 4 := by decide
  obtain ⟨-, hahead⟩ := narrowing_keeps_rows hpos (by decide) hcells .word (.fixedCells 2)
  rw [hwide] at hahead
  exact ⟨hpos, by decide, hcells, hwide, hahead⟩

end RowLayout
