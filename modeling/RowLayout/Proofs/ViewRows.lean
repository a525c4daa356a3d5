import Mathlib.Data.Set.Card
import RowLayout.Proofs.Resume

/-!
# The rows of a view

What a view shows can be said without its folds being sorted, its soft wraps being made or its
rows being walked: a row begins at every line start and, if lines are wrapped, at every wrap point
of a line, unless a collapsed region hides that place. This holds of every view that edits lead to,
and for regions nested in each other in whatever way.

## Main definitions

* `View.BreaksAt` — a line starts at an offset, or is cut there
* `View.Folded` — a collapsed region of the view hides an offset

## Main results

* `View.Sound.mem_rowStarts`, `Sound.starts_rows` — where the layout of a sound view has its row
  starts, and where its rows begin
* `View.rows_begin_where_unfolded_lines_break` — the rows of every view that can be reached
-/

namespace RowLayout

namespace View

/-- The text breaks at an offset: a line starts there, or wrapping is on and a line is cut there to
fit the viewport. -/
def BreaksAt (v : View) (o : Nat) : Prop :=
  (∃ l < v.document.lineCount, o = v.document.lineStart l) ∨
    (0 < v.settings.viewportWidth.toNat ∧ v.settings.wrapMode ≠ .none ∧
      v.document.CutAt v.settings o)

/-- A collapsed region, nested or not, hides an offset. -/
def Folded (v : View) (o : Nat) : Prop :=
  ∃ r ∈ v.folds.regions, r.collapsed = true ∧ r.Hides o

variable {v : View} {o : Nat}

theorem Sound.shown_iff (h : v.Sound) : Shown v.layout.folds o ↔ ¬ v.Folded o := by
  refine h.folds.shown_outermost.trans ⟨?_, fun hnot r hr hcollapsed hhides => ?_⟩
  · rintro hshown ⟨r, hr, hcollapsed, hhides⟩
    exact hshown r hr hcollapsed hhides
  · exact hnot ⟨r, hr, hcollapsed, hhides⟩

theorem Sound.hides_eq_false_iff (h : v.Sound) : v.folds.hides o = false ↔ ¬ v.Folded o := by
  rw [← h.shown_iff, ← Bool.not_eq_true, h.folds.hides_iff, Classical.not_not]
  rfl

/-- The soft wraps of a sound view stand where a line is cut and no region hides the cut. -/
theorem Sound.exists_wrap_iff (h : v.Sound) :
    (∃ w ∈ v.layout.wraps, w.offset = o) ↔ v.document.CutAt v.settings o ∧ ¬ v.Folded o := by
  rw [← h.hides_eq_false_iff, ← SoftWrap.exists_mem_ofDocument]
  simp only [h.mem_wraps]

/-- **The row starts of a sound view** are the places where the text breaks and nothing is
folded. -/
theorem Sound.mem_rowStarts (h : v.Sound) :
    o ∈ v.layout.rowStarts ↔ v.BreaksAt o ∧ ¬ v.Folded o := by
  rw [Layout.mem_rowStarts, h.shown_iff, h.exists_wrap_iff, ← or_and_right]
  refine and_congr_left fun _ => or_congr v.document.mem_starts ⟨fun hcut => ?_, ?_⟩
  · exact ⟨hcut.wrapping.1, hcut.wrapping.2, hcut⟩
  · rintro ⟨-, -, hcut⟩
    exact hcut

/-- The rows of a sound view begin where the text breaks and nothing is folded. -/
theorem Sound.starts_rows (h : v.Sound) :
    (v.rows.map Row.start).Pairwise (· < ·) ∧
      ∀ o, o ∈ v.rows.map Row.start ↔ v.BreaksAt o ∧ ¬ v.Folded o := by
  have hstarts : v.rows.map Row.start = v.layout.rowStarts.sort := by
    rw [h.rows_eq, Location.map_start_rows h.regular]
  rw [hstarts]
  refine ⟨v.layout.rowStarts.sortedLT_sort.pairwise, fun o => ?_⟩
  rw [Finset.mem_sort, h.mem_rowStarts]

/-! ### The main statement -/

/-- **The rows of a view begin where the text breaks and nothing is folded.** After every run of
edits, whether they succeed or fail, the rows begin at these offsets and at no others, in order and
none of them twice, and there are as many rows as there are such offsets. -/
theorem rows_begin_where_unfolded_lines_break (h : v.Reachable) :
    (v.rows.map Row.start).Pairwise (· < ·) ∧
      (∀ o, o ∈ v.rows.map Row.start ↔ v.BreaksAt o ∧ ¬ v.Folded o) ∧
      v.rowCount = {o | v.BreaksAt o ∧ ¬ v.Folded o}.ncard := by
  obtain ⟨hpair, hiff⟩ := h.sound.starts_rows
  refine ⟨hpair, hiff, ?_⟩
  have hset : {o | v.BreaksAt o ∧ ¬ v.Folded o} = ((v.rows.map Row.start).toFinset : Set Nat) := by
    ext o
    rw [Finset.mem_coe, List.mem_toFinset, hiff]
    rfl
  have hnodup : (v.rows.map Row.start).Nodup := hpair.imp Nat.ne_of_lt
  rw [hset, Set.ncard_coe_finset, List.toFinset_card_of_nodup hnodup, List.length_map,
    h.sound.rowCount_eq]

/-- Rows of one cell. A fold of the first two lines hides a fold inside it and the cuts of these
lines; the last line is cut behind its first character. -/
def nestedFolds : View :=
  threeLines.afterAll [.setWidth 1, .foldLines 0 1 true, .addFold 1 2 true]

theorem rows_of_nestedFolds :
    nestedFolds.rows.map Row.start = [0, 6, 7] ∧ nestedFolds.BreaksAt 7 ∧
      {o | nestedFolds.BreaksAt o ∧ ¬ nestedFolds.Folded o}.ncard = 3 := by
  have hreachable : nestedFolds.Reachable := reachable_threeLines _
  have hstarts : nestedFolds.rows.map Row.start = [0, 6, 7] := by decide +kernel
  obtain ⟨-, hiff, hcount⟩ := rows_begin_where_unfolded_lines_break hreachable
  refine ⟨hstarts, ((hiff 7).mp ?_).1, hcount.symm.trans ?_⟩
  · rw [hstarts]
    decide
  · decide +kernel

end View

end RowLayout
