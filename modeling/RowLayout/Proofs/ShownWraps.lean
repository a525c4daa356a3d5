import RowLayout.Proofs.LineContents
import RowLayout.Proofs.OutermostFolds
import RowLayout.Proofs.WrapPlaces
import RowLayout.View.Basic

/-!
# The soft wraps that are shown

The soft wraps of a document are made line by line, and each is looked up in the outermost folds
before it is kept. What comes of it can be said without lines being gone through and without the
outermost folds: a soft wrap is kept if a line goes on there and no collapsed region hides it. It
stands strictly inside what its line shows, so no soft wrap meets the start of a line, whatever
characters the line breaks are made of.

## Main results

* `Document.WrapsTo.inside`, `WrapsTo.lineOf_eq` — a soft wrap and the line that goes on there
* `SoftWrap.kept_where_shown` — the soft wraps of every document, fold set and settings
-/

namespace RowLayout

namespace Document

variable {d : Document} {s : Settings} {l : Nat} {w : SoftWrap}

theorem WrapsTo.line_lt (h : d.WrapsTo s l w) : l < d.lineCount := by
  obtain ⟨text, p, htext, -⟩ := h
  obtain ⟨line, hline, -⟩ := Option.map_eq_some_iff.mp htext
  rw [lineCount_eq]
  exact (List.getElem?_eq_some_iff.mp hline).1

/-- A line goes on strictly inside what it shows. -/
theorem WrapsTo.inside (h : d.WrapsTo s l w) :
    d.lineStart l < w.offset ∧ w.offset < d.lineStop l := by
  obtain ⟨text, p, htext, hp, rfl⟩ := h
  obtain ⟨line, hline, rfl⟩ := Option.map_eq_some_iff.mp htext
  have hpos : 1 ≤ p := (rising_wrapPoints _ _ _ _ _).2 p hp
  have hlt : p < line.text.length := lt_of_mem_wrapPoints hp
  have hstop : d.lineStop l = d.lineStart l + line.text.length := (lineStart_eq hline).2
  dsimp only
  omega

/-- A soft wrap is looked up to the line that goes on there. -/
theorem WrapsTo.lineOf_eq (h : d.WrapsTo s l w) : d.lineOf w.offset = l := by
  have hcontent : d.InContent l w.offset := ⟨h.line_lt, h.inside.1.le, h.inside.2.le⟩
  exact Document.lineOf_eq hcontent.onLine

end Document

namespace SoftWrap

variable {d : Document} {folds : FoldSet} {s : Settings} {w : SoftWrap}

/-- The soft wraps of a document stand strictly inside what its lines show. -/
theorem inside_line (hw : w ∈ ofDocument d folds s) :
    ∃ l < d.lineCount, d.lineStart l < w.offset ∧ w.offset < d.lineStop l := by
  obtain ⟨⟨l, hwraps⟩, -⟩ := mem_ofDocument.mp hw
  exact ⟨l, hwraps.line_lt, hwraps.inside⟩

/-- Without wrapping there are no soft wraps. -/
theorem ofDocument_eq_nil (h : s.viewportWidth = 0 ∨ s.wrapMode = .none) :
    ofDocument d folds s = [] := by
  refine List.eq_nil_iff_forall_not_mem.mpr ?_
  intro w hw
  obtain ⟨⟨l, text, p, -, hp, -⟩, -⟩ := mem_ofDocument.mp hw
  obtain ⟨hwidth, hmode⟩ := on_of_mem_wrapPoints hp
  rcases h with hzero | hnone
  · rw [hzero] at hwidth
    exact Nat.lt_irrefl 0 hwidth
  · exact hmode hnone

/-! ### The main statement -/

/-- **The soft wraps of a document are the shown places at which its lines go on.** For every
document, all settings and every fold set that changes lead to, they are in order, and each stands
strictly inside what its line shows. They are at the wrap points of the lines, with the indentation
of their line, except for those that a collapsed region, nested or not, hides. There are none
if the viewport has no end or lines are not to be wrapped. A view that is laid out anew has these
soft wraps, whatever soft wraps it had. -/
theorem kept_where_shown (h : folds.Reachable) (d : Document) (s : Settings) :
    (ofDocument d folds s).Pairwise (·.offset < ·.offset) ∧
      (∀ w ∈ ofDocument d folds s,
        d.WrapsTo s (d.lineOf w.offset) w ∧ d.lineStart (d.lineOf w.offset) < w.offset ∧
          w.offset < d.lineStop (d.lineOf w.offset)) ∧
      (∀ w : SoftWrap, w ∈ ofDocument d folds s ↔
        (∃ l, d.WrapsTo s l w) ∧
          ¬ ∃ r ∈ folds.regions, r.collapsed = true ∧ r.Hides w.offset) ∧
      (s.viewportWidth = 0 ∨ s.wrapMode = .none → ofDocument d folds s = []) ∧
      ∀ v : View, v.document = d → v.folds = folds → v.settings = s →
        v.relayout.wraps = ofDocument d folds s := by
  obtain ⟨n, hsound⟩ := h.sound
  refine ⟨pairwise_ofDocument d folds s, ?_, ?_, ofDocument_eq_nil, ?_⟩
  · intro w hw
    obtain ⟨⟨l, hwraps⟩, -⟩ := mem_ofDocument.mp hw
    obtain rfl : d.lineOf w.offset = l := hwraps.lineOf_eq
    exact ⟨hwraps, hwraps.inside⟩
  · intro w
    rw [mem_ofDocument, ← hsound.hides_iff_exists, Bool.not_eq_true]
  · rintro v rfl rfl rfl
    rfl

/-- Two lines with a line break of two characters between them. -/
def crlfLines : Document :=
  .ofText ['a', 'b', 'c', 'd', 'e', 'f', '\r', '\n', 'g', 'h', 'i', 'j']

/-- An open region over the front of both lines, and a collapsed one in it. -/
def halfFolded : FoldSet :=
  FoldSet.empty.afterAll
    [(crlfLines, .add (.plain 0 10 false) 12), (crlfLines, .add (.plain 1 3 true) 12)]

/-- Rows of three cells, the continuation rows of which are indented by one. -/
def narrow : Settings := { viewportWidth := 3, wrapIndent := .fixedCells 1 }

theorem kept_in_crlfLines :
    halfFolded.Reachable ∧
      ofDocument crlfLines halfFolded narrow = [⟨5, 1⟩, ⟨11, 1⟩] ∧
      crlfLines.WrapsTo narrow 0 ⟨3, 1⟩ ∧
      ⟨3, 1⟩ ∉ ofDocument crlfLines halfFolded narrow ∧
      crlfLines.WrapsTo narrow 1 ⟨11, 1⟩ := by
  have hreachable : halfFolded.Reachable := ⟨_, rfl⟩
  have hwraps : ofDocument crlfLines halfFolded narrow = [⟨5, 1⟩, ⟨11, 1⟩] := by decide +kernel
  obtain ⟨-, hinside, hiff, -⟩ := kept_where_shown hreachable crlfLines narrow
  have hcut : crlfLines.WrapsTo narrow 0 ⟨3, 1⟩ :=
    ⟨['a', 'b', 'c', 'd', 'e', 'f'], 3, by decide +kernel, by decide +kernel, by decide +kernel⟩
  refine ⟨hreachable, hwraps, hcut, ?_, ?_⟩
  · intro hkept
    exact ((hiff _).mp hkept).2 ⟨.plain 1 3 true, by decide, rfl, by decide⟩
  · have hline : crlfLines.lineOf 11 = 1 := by decide +kernel
    have hmem : (⟨11, 1⟩ : SoftWrap) ∈ ofDocument crlfLines halfFolded narrow := by
      rw [hwraps]
      decide
    exact hline ▸ (hinside ⟨11, 1⟩ hmem).1

end SoftWrap

end RowLayout
