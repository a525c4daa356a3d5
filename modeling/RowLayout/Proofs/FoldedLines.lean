import RowLayout.Proofs.FoldRuns
import RowLayout.Proofs.RowSpans

/-!
# Folded lines

A fold over lines is asked for by the numbers of its first and its last line, and made from the
start of the one and the stop of the other. Both ends of a region belong to it, but it leaves its
own first line alone; so the region hides the start of the last line also where nothing stands on
that line, and never the start of the line below, since a whole line break lies in between.

What a new region does to the rows can be told without a look at the other regions: it takes away
the rows that begin in what it hides. Other regions may have taken some of them away before, and
soft wraps inside the region are not made again; neither gives or takes any other row.

## Main definitions

* `Row.place` — where a row begins, and on which line

## Main results

* `Document.hides_lineStart_iff` — the lines that a fold over lines hides
* `View.Sound.map_place_addFold` — the rows of a view under one more region
* `View.apply_foldLines_cases` — the three answers to a fold over lines
* `View.fold_hides_lines_after_first` — a fold over lines and the rows that it leaves
-/

namespace RowLayout

/-! ### The region over lines -/

namespace Document

variable {d : Document} {a b l : Nat}

/-- Only the lines up to another one start at or before the stop of that one. -/
theorem lineStart_le_lineStop_iff (hb : b < d.lineCount) (hl : l < d.lineCount) :
    d.lineStart l ≤ d.lineStop b ↔ l ≤ b := by
  constructor
  · intro hstart
    by_contra hlt
    have hbelow : d.lineStop b < d.lineStart (b + 1) := (isLineEnding_between (by omega)).1
    have hnext : d.lineStart (b + 1) ≤ d.lineStart l := lineStart_le (by omega) hl
    omega
  · intro hle
    exact (lineStart_le hle hb).trans (lineStart_le_lineStop hb)

theorem lineStart_lt_iff (ha : a < d.lineCount) (hl : l < d.lineCount) :
    d.lineStart a < d.lineStart l ↔ a < l := by
  constructor
  · intro hstart
    by_contra hle
    have := lineStart_le (Nat.le_of_not_lt hle) ha
    omega
  · intro hlt
    exact lineStart_lt hlt hl

/-- **A fold over lines hides the lines after the first,** and no other ones. -/
theorem hides_lineStart_iff (collapsed : Bool) (hab : a < b) (hb : b < d.lineCount)
    (hl : l < d.lineCount) :
    (FoldSet.lineRegion d a b collapsed).Hides (d.lineStart l) ↔ a < l ∧ l ≤ b :=
  and_congr (lineStart_lt_iff (hab.trans hb) hl) (lineStart_le_lineStop_iff hb hl)

/-- The region over at least two lines is not empty, and lies in the text. -/
theorem lineRegion_inside (collapsed : Bool) (hab : a < b) (hb : b < d.lineCount) :
    (FoldSet.lineRegion d a b collapsed).start < (FoldSet.lineRegion d a b collapsed).stop ∧
      (FoldSet.lineRegion d a b collapsed).stop ≤ d.length := by
  have hstart : d.lineStart a < d.lineStart b := lineStart_lt hab hb
  have hstop : d.lineStart b ≤ d.lineStop b := lineStart_le_lineStop hb
  exact ⟨hstart.trans_le hstop, lineStop_le_length hb⟩

end Document

namespace FoldSet

variable {s t : FoldSet} {r other : FoldRegion} {n : Nat}

/-- An addition that is not refused puts in the region and nothing else. -/
theorem mem_regions_add (hadd : s.add r n = .ok t) :
    other ∈ t.regions ↔ other = r ∨ other ∈ s.regions := by
  rcases add_cases s r n with ⟨-, h⟩ | ⟨-, -, h⟩ | ⟨-, -, h⟩
  · cases h.symm.trans hadd
  · cases h.symm.trans hadd
  · obtain rfl := Except.ok.inj (h.symm.trans hadd)
    exact mem_insertAfter

end FoldSet

/-! ### One more region -/

/-- Where a row begins: its first offset, and the line of that. -/
def Row.place (row : Row) : Nat × Nat := (row.start, row.line)

namespace View

variable {v : View} {folds : FoldSet} {r : FoldRegion} {o n : Nat}

/-- The places of rows follow from their starts. -/
theorem Sound.map_place (h : v.Sound) {rows : List Row} (hrows : rows.Sublist v.rows) :
    rows.map Row.place = (rows.map Row.start).map fun o => (o, v.document.lineOf o) := by
  rw [List.map_map]
  refine List.map_congr_left fun row hrow => ?_
  obtain ⟨n, hn⟩ := List.getElem?_of_mem (hrows.subset hrow)
  exact congrArg (Prod.mk row.start) (h.line_eq hn)

theorem folded_useFolds_iff (hadd : v.folds.add r n = .ok folds) :
    (v.useFolds folds).Folded o ↔ v.Folded o ∨ r.collapsed = true ∧ r.Hides o := by
  have hmem (other : FoldRegion) : other ∈ (v.useFolds folds).folds.regions ↔
      other = r ∨ other ∈ v.folds.regions := FoldSet.mem_regions_add hadd
  simp only [Folded, hmem, or_and_right, exists_or, exists_eq_left]
  exact or_comm

/-- **One more region takes away the rows that begin in what it hides,** and leaves the others
where they were. -/
theorem Sound.map_place_addFold (h : v.Sound) (hadd : v.folds.add r v.document.length = .ok folds) :
    (v.useFolds folds).rows.map Row.place =
      (v.rows.filter fun row => ¬ (r.collapsed = true ∧ r.Hides row.start)).map Row.place := by
  have h' : (v.useFolds folds).Sound := h.useFolds (h.folds.add hadd)
  obtain ⟨hpair, hiff⟩ := h.starts_rows
  obtain ⟨hpair', hiff'⟩ := h'.starts_rows
  have hstarts : (v.useFolds folds).rows.map Row.start =
      (v.rows.map Row.start).filter fun o => ¬ (r.collapsed = true ∧ r.Hides o) := by
    refine hpair'.eq_of_mem_iff (hpair.filter _) fun o => ?_
    rw [hiff', List.mem_filter, hiff, decide_eq_true_eq, folded_useFolds_iff hadd, not_or,
      ← and_assoc]
    exact Iff.rfl
  rw [h'.map_place (.refl _), hstarts, h.map_place List.filter_sublist, List.filter_map]
  rfl

/-! ### The main statement -/

/-- **The three answers to a fold over lines.** The lines are looked at first, then the other
regions; the range of the region is never to blame. -/
theorem apply_foldLines_cases (v : View) (a b : Nat) (collapsed : Bool) :
    let r := FoldSet.lineRegion v.document a b collapsed
    let inserted := FoldSet.ofRegions (insertAfter (·.Precedes r) r v.folds.regions)
    ((b ≤ a ∨ v.document.lineCount ≤ b) ∧
        v.apply (.foldLines a b collapsed) =
          v.unchanged (.refused (.invalidFoldRange r.start r.stop))) ∨
      ((a < b ∧ b < v.document.lineCount) ∧ ¬ v.folds.Admits r ∧
        v.apply (.foldLines a b collapsed) =
          v.unchanged (.refused (.overlappingFold r.start r.stop))) ∨
      ((a < b ∧ b < v.document.lineCount) ∧ v.folds.Admits r ∧
        v.folds.add r v.document.length = .ok inserted ∧
        v.apply (.foldLines a b collapsed) =
          (v.useFolds inserted).relaid .accepted [.ofFold r]) := by
  intro r inserted
  by_cases hlines : b ≤ a ∨ v.document.lineCount ≤ b
  · refine Or.inl ⟨hlines, ?_⟩
    simp only [apply, foldLines, FoldSet.addLines, if_pos hlines]
    rfl
  · have hinside : a < b ∧ b < v.document.lineCount := by omega
    have hrange := Document.lineRegion_inside collapsed hinside.1 hinside.2
    rcases FoldSet.add_cases v.folds r v.document.length with
      ⟨hbad, -⟩ | ⟨-, hfull, hadd⟩ | ⟨-, hplace, hadd⟩
    · exact absurd hbad (not_or.mpr ⟨hrange.1.not_ge, hrange.2.not_gt⟩)
    · refine Or.inr (Or.inl ⟨hinside, hfull, ?_⟩)
      simp only [apply, foldLines, FoldSet.addLines, if_neg hlines]
      rw [hadd]
      rfl
    · refine Or.inr (Or.inr ⟨hinside, hplace, hadd, ?_⟩)
      simp only [apply, foldLines, FoldSet.addLines, if_neg hlines]
      rw [hadd]
      rfl

/-- **A fold over lines hides exactly the lines after the first.** In every view that can be
reached, a fold over the lines from `a` to `b` is refused for its range exactly if it would not
cover two lines or there is no line `b`, and otherwise for the other regions exactly if it repeats
or tangles with one of them. What is not refused stands among the old regions, and of all line
starts it hides those of the lines after `a` up to `b`. If it is collapsed, the rows are the old
ones, in order and each on its line, without those that began behind the start of line `a` and not
behind the stop of line `b`. -/
theorem fold_hides_lines_after_first (h : v.Reachable) (a b : Nat) (collapsed : Bool) :
    let r := FoldSet.lineRegion v.document a b collapsed
    let folded := v.apply (.foldLines a b collapsed)
    (folded.answer = .refused (.invalidFoldRange r.start r.stop) ↔
      b ≤ a ∨ v.document.lineCount ≤ b) ∧
    (folded.answer = .refused (.overlappingFold r.start r.stop) ↔
      (a < b ∧ b < v.document.lineCount) ∧
        ∃ other ∈ v.folds.regions, other.SameRange r ∨ other.Tangles r) ∧
    (folded.answer = .accepted ↔
      (a < b ∧ b < v.document.lineCount) ∧
        ∀ other ∈ v.folds.regions, ¬ other.SameRange r ∧ ¬ other.Tangles r) ∧
    (folded.answer ≠ .accepted → folded.view = v) ∧
    (folded.answer = .accepted →
      (∃ before after, v.folds.regions = before ++ after ∧
        folded.view.folds.regions = before ++ r :: after) ∧
      (∀ l < v.document.lineCount, r.Hides (v.document.lineStart l) ↔ a < l ∧ l ≤ b) ∧
      (collapsed = true →
        folded.view.rows.map Row.place =
          (v.rows.filter fun row => ¬ (v.document.lineStart a < row.start ∧
            row.start ≤ v.document.lineStop b)).map Row.place)) := by
  intro r folded
  rw [← FoldSet.not_admits_iff]
  change _ ∧ _ ∧ (_ ↔ _ ∧ v.folds.Admits r) ∧ _
  rcases apply_foldLines_cases v a b collapsed with
    ⟨hlines, happly⟩ | ⟨hinside, hfull, happly⟩ | ⟨hinside, hplace, hadd, happly⟩
  · have hinside : ¬ (a < b ∧ b < v.document.lineCount) := by omega
    simp [folded, r, happly, hlines, hinside, unchanged]
  · have hlines : ¬ (b ≤ a ∨ v.document.lineCount ≤ b) := by omega
    simp [folded, r, happly, hlines, hinside, hfull, unchanged]
  · have hlines : ¬ (b ≤ a ∨ v.document.lineCount ≤ b) := by omega
    refine ⟨?_, ?_, ?_, ?_, fun _ => ⟨?inserted, fun l hl => ?hidden, fun hcollapsed => ?rows⟩⟩
    · simp [folded, happly, hlines, relaid]
    · simp [folded, r, happly, hplace, relaid]
    · simp [folded, r, happly, hinside, hplace, relaid]
    · simp [folded, happly, relaid]
    case inserted =>
      simp only [folded, happly]
      exact ⟨_, _, List.takeWhile_append_dropWhile.symm, rfl⟩
    case hidden => exact Document.hides_lineStart_iff collapsed hinside.1 hinside.2 hl
    case rows =>
      simp only [folded, happly, relaid]
      rw [h.sound.map_place_addFold hadd]
      subst hcollapsed
      simp [FoldSet.lineRegion, FoldRegion.plain, FoldRegion.Hides]

/-- Two lines with line breaks of two characters and an empty last line, in rows of one cell. A
collapsed region hides where the first line is cut, and an open one goes from the stop of the first
line to that of the second. -/
def closedTail : View :=
  threeLines.afterAll [.setText ['a', 'b', '\r', '\n', 'c', 'd', '\r', '\n'], .setWidth 1,
    .addFold 0 1 true, .addFold 2 6 false]

theorem folded_in_closedTail :
    closedTail.rows.map Row.place = [(0, 0), (4, 1), (5, 1), (8, 2)] ∧
      (closedTail.apply (.foldLines 1 1 true)).answer = .refused (.invalidFoldRange 4 6) ∧
      (closedTail.apply (.foldLines 1 2 true)).answer = .refused (.overlappingFold 4 8) ∧
      (closedTail.apply (.foldLines 0 2 true)).answer = .accepted ∧
      (closedTail.apply (.foldLines 0 2 true)).view.rows.map Row.place = [(0, 0)] ∧
      (closedTail.apply (.foldLines 0 1 true)).view.rows.map Row.place = [(0, 0), (8, 2)] := by
  have hreachable : closedTail.Reachable := reachable_threeLines _
  have hrows : closedTail.rows.map Row.place = [(0, 0), (4, 1), (5, 1), (8, 2)] := by
    decide +kernel
  have haccepted : (closedTail.apply (.foldLines 0 1 true)).answer = .accepted := by
    decide +kernel
  have hleft := ((fold_hides_lines_after_first hreachable 0 1 true).2.2.2.2 haccepted).2.2 rfl
  refine ⟨hrows, ?_, by decide +kernel, by decide +kernel, by decide +kernel, hleft.trans ?_⟩
  · exact (fold_hides_lines_after_first hreachable 1 1 true).1.mpr (Or.inl (Nat.le_refl 1))
  · decide +kernel

end View

end RowLayout
