import Mathlib.Data.Finset.Sort
import Mathlib.Order.Bounds.Basic
import RowLayout.Proofs.Walk

/-!
# The offsets at which rows begin

A layout says at which offsets a row may begin, without any walk: at the starts of lines that no
fold hides, and at the soft wraps. A walk finds exactly these, in order. The reason is one fact
about a single step, that it goes to the least of them above the present one.

## Main definitions

* `Layout.rowStarts` — where rows may begin
* `Layout.Regular` — a layout whose soft wraps lie within the text that is shown
* `LeastOf` — the least element of a set, if it has one

## Main results

* `Location.leastOf_start_next` — a step goes to the least row start above, if there is one
* `Location.map_start_rows` — the rows of a walk begin at the row starts, in order
-/

namespace RowLayout

/-- A layout is regular if its lists are in order and no soft wrap stands at the front of the text
or in a fold. -/
structure Layout.Regular (lay : Layout) : Prop extends lay.Ordered where
  wraps_pos : ∀ w ∈ lay.wraps, 0 < w.offset
  wraps_shown : ∀ w ∈ lay.wraps, Shown lay.folds w.offset

/-- The offsets at which rows begin: the line starts that no fold hides, and the soft wraps. -/
def Layout.rowStarts (lay : Layout) : Finset Nat :=
  (lay.document.starts.filter fun s => Shown lay.folds s).toFinset ∪
    (lay.wraps.map SoftWrap.offset).toFinset

namespace Layout

variable {lay : Layout} {o : Nat}

theorem mem_rowStarts :
    o ∈ lay.rowStarts ↔
      (o ∈ lay.document.starts ∧ Shown lay.folds o) ∨ ∃ w ∈ lay.wraps, w.offset = o := by
  simp [rowStarts]

theorem shown_zero (regions : List FoldRegion) : Shown regions 0 :=
  fun _ _ h => Nat.not_lt_zero _ h.1

theorem zero_mem_rowStarts (lay : Layout) : 0 ∈ lay.rowStarts :=
  mem_rowStarts.mpr (Or.inl ⟨lay.document.zero_mem_starts, shown_zero _⟩)

/-- No row of a regular layout begins inside a fold. -/
theorem Regular.shown (h : lay.Regular) (ho : o ∈ lay.rowStarts) : Shown lay.folds o := by
  rcases mem_rowStarts.mp ho with ⟨-, hshown⟩ | ⟨w, hw, rfl⟩
  · exact hshown
  · exact h.wraps_shown w hw

end Layout

/-! ### Least elements -/

/-- The least element of a set, or nothing if the set has no elements. -/
def LeastOf (S : Set Nat) : Option Nat → Prop
  | none => S = ∅
  | some x => IsLeast S x

/-- The smaller of two least elements is the least one of both sets. -/
theorem LeastOf.merge {A B : Set Nat} {a b : Option Nat} (ha : LeastOf A a) (hb : LeastOf B b) :
    LeastOf (A ∪ B) (a.merge min b) := by
  cases a with
  | none =>
    obtain rfl : A = ∅ := ha
    simpa using hb
  | some a =>
    cases b with
    | none =>
      obtain rfl : B = ∅ := hb
      simpa using ha
    | some b => exact IsLeast.union ha hb

/-- In an ordered list the first element that passes a test is the least one. -/
theorem leastOf_find? {p : Nat → Bool} {xs : List Nat} (h : xs.Pairwise (· < ·)) :
    LeastOf {x | x ∈ xs ∧ p x = true} (xs.find? p) := by
  cases hfind : xs.find? p with
  | none =>
    show _ = (∅ : Set Nat)
    refine Set.eq_empty_of_forall_notMem fun x hx => ?_
    exact List.find?_eq_none.mp hfind x hx.1 hx.2
  | some x =>
    obtain ⟨hx, before, after, rfl, hbefore⟩ := List.find?_eq_some_iff_append.mp hfind
    refine ⟨⟨by simp, hx⟩, ?_⟩
    rintro a ⟨ha, hpa⟩
    rcases List.mem_append.mp ha with ha | ha
    · have := hbefore a ha
      simp [hpa] at this
    · rcases List.mem_cons.mp ha with rfl | ha
      · exact Nat.le_refl _
      · exact ((List.pairwise_cons.mp (List.pairwise_append.mp h).2.1).1 a ha).le

namespace Location

variable {lay : Layout} {loc : Location} {o o' index y : Nat}

/-! ### What lies ahead of a placed row -/

theorem mem_linesAhead_placed {s : Nat} :
    s ∈ (placed lay index o y).linesAhead ↔ s ∈ lay.document.starts ∧ o < s := by
  have honLine := lay.document.onLine_lineOf o
  constructor
  · intro hs
    refine ⟨?_, honLine.lt_of_mem s hs⟩
    rw [placed, TextLines.startsAfter_document, Document.startsAfter_eq_drop] at hs
    exact List.mem_of_mem_drop hs
  · rintro ⟨hs, hos⟩
    rw [← List.take_append_drop (lay.document.lineOf o) lay.document.starts,
      Document.drop_starts honLine.line_lt, List.mem_append, List.mem_cons] at hs
    rcases hs with hs | rfl | hs
    · have hpair := lay.document.pairwise_starts
      rw [← List.take_append_drop (lay.document.lineOf o) lay.document.starts,
        Document.drop_starts honLine.line_lt, List.pairwise_append] at hpair
      have := hpair.2.2 s hs _ List.mem_cons_self
      have := honLine.start_le
      omega
    · have := honLine.start_le
      omega
    · exact hs

theorem mem_wrapsAhead_placed (h : lay.Ordered) {w : SoftWrap} :
    w ∈ (placed lay index o y).wraps.ahead ↔ w ∈ lay.wraps ∧ o < w.offset :=
  mem_dropWhile_upTo h.sorted.wraps

/-- Folds behind a row whose start is shown hide nothing that comes after it. -/
theorem shown_foldsAhead_placed (hshown : Shown lay.folds o) {s : Nat} (hos : o < s) :
    Shown (placed lay index o y).folds.ahead s ↔ Shown lay.folds s := by
  constructor
  · intro h r hr
    rw [← List.takeWhile_append_dropWhile (p := (·.start < o)) (l := lay.folds),
      List.mem_append] at hr
    rcases hr with hr | hr
    · have hstart : r.start < o := by simpa using List.mem_takeWhile_imp hr
      have hmem := (List.takeWhile_prefix _).mem hr
      rintro ⟨-, hstop⟩
      exact hshown r hmem ⟨hstart, by omega⟩
    · exact h r hr
  · exact fun h r hr => h r ((List.dropWhile_suffix _).mem hr)

/-- The row starts above a placed row are those that its marks still have ahead. -/
theorem mem_rowStarts_above (hlay : lay.Ordered) (hshown : Shown lay.folds o) (index y : Nat)
    {x : Nat} :
    x ∈ lay.rowStarts ∧ o < x ↔
      (x ∈ (placed lay index o y).linesAhead ∧ Shown (placed lay index o y).folds.ahead x) ∨
        ∃ w ∈ (placed lay index o y).wraps.ahead, w.offset = x := by
  rw [Layout.mem_rowStarts, mem_linesAhead_placed]
  simp only [mem_wrapsAhead_placed hlay]
  constructor
  · rintro ⟨⟨hx, hfolds⟩ | ⟨w, hw, rfl⟩, hox⟩
    · exact Or.inl ⟨⟨hx, hox⟩, (shown_foldsAhead_placed hshown hox).mpr hfolds⟩
    · exact Or.inr ⟨w, ⟨hw, hox⟩, rfl⟩
  · rintro (⟨⟨hx, hox⟩, hfolds⟩ | ⟨w, ⟨hw, hox⟩, rfl⟩)
    · exact ⟨Or.inl ⟨hx, (shown_foldsAhead_placed hshown hox).mp hfolds⟩, hox⟩
    · exact ⟨Or.inr ⟨w, hw, rfl⟩, hox⟩

/-! ### One step -/

/-- The pending soft wrap is the least one ahead. -/
theorem leastOf_pending (h : loc.wraps.ahead.Pairwise (·.offset < ·.offset)) :
    LeastOf {x | ∃ w ∈ loc.wraps.ahead, w.offset = x} loc.pending := by
  rw [pending, Mark.next?]
  cases hahead : loc.wraps.ahead with
  | nil => simp [LeastOf]
  | cons first rest =>
    rw [hahead] at h
    refine ⟨⟨first, List.mem_cons_self, rfl⟩, ?_⟩
    rintro _ ⟨w, hw, rfl⟩
    rcases List.mem_cons.mp hw with rfl | hw
    · exact Nat.le_refl _
    · exact ((List.pairwise_cons.mp h).1 w hw).le

/-- **A step goes to the least row start above the present one,** or ends the walk if there is
none. -/
theorem leastOf_start_next (hlay : lay.Ordered) (hshown : Shown lay.folds o) (index y : Nat) :
    LeastOf {x | x ∈ lay.rowStarts ∧ o < x} ((placed lay index o y).next lay).start := by
  have hsettled := settled_placed hlay.sorted index o y
  have hwraps := hlay.wraps.sublist (List.dropWhile_sublist (·.offset ≤ o))
  have habove : {x | x ∈ lay.rowStarts ∧ o < x} =
      {x | ∃ w ∈ (placed lay index o y).wraps.ahead, w.offset = x} ∪
        {x | x ∈ (placed lay index o y).linesAhead ∧
          decide (Shown (placed lay index o y).folds.ahead x) = true} := by
    ext x
    rw [Set.union_comm]
    simpa using mem_rowStarts_above hlay hshown index y
  rw [start_next, scanNext, scan_start_eq (hsettled.pairwise_folds hlay)
    hsettled.pairwise_linesAhead, habove]
  exact (leastOf_pending hwraps).merge (leastOf_find? hsettled.pairwise_linesAhead)

/-! ### A whole walk -/

/-- The rows from a placed row on begin at its start and at all row starts above, in order. -/
theorem starts_rows_placed (hlay : lay.Regular) (hshown : Shown lay.folds o) (index y : Nat) :
    (((placed lay index o y).rows lay).map Row.start).Pairwise (· < ·) ∧
      ∀ x, x ∈ ((placed lay index o y).rows lay).map Row.start ↔
        x = o ∨ (x ∈ lay.rowStarts ∧ o < x) := by
  generalize hloc : placed lay index o y = loc
  induction loc using Location.rows.induct lay generalizing index o y with
  | case1 loc hnone => simp [← hloc, placed] at hnone
  | case2 loc start hsome ih =>
    subst hloc
    obtain rfl : o = start := Option.some.inj hsome
    rw [rows_of_start hsome, List.map_cons, row_start]
    have hleast := leastOf_start_next hlay.toOrdered hshown index y
    cases hnext : ((placed lay index o y).next lay).start with
    | none =>
      rw [hnext] at hleast
      rw [rows_of_start_eq_none hnext]
      refine ⟨List.pairwise_singleton _ _, fun x => ?_⟩
      have hlast : ¬ (x ∈ lay.rowStarts ∧ o < x) := Set.eq_empty_iff_forall_notMem.mp hleast x
      simp only [List.map_nil, List.mem_singleton]
      exact ⟨Or.inl, fun h => h.resolve_right hlast⟩
    | some o' =>
      rw [hnext] at hleast
      obtain ⟨⟨hmem, hoo'⟩, hleast⟩ := hleast
      have hplaced := next_eq_placed hlay.toOrdered (settled_placed hlay.sorted ..) hnext
      obtain ⟨hpair, hiff⟩ := ih (hlay.shown hmem) _ _ hplaced.symm
      refine ⟨List.pairwise_cons.mpr ⟨fun x hx => ?_, hpair⟩, fun x => ?_⟩
      · rcases (hiff x).mp hx with rfl | ⟨-, hx⟩
        · exact hoo'
        · exact hoo'.trans hx
      · rw [List.mem_cons, hiff]
        constructor
        · rintro (rfl | rfl | ⟨hx, ho'x⟩)
          · exact Or.inl rfl
          · exact Or.inr ⟨hmem, hoo'⟩
          · exact Or.inr ⟨hx, hoo'.trans ho'x⟩
        · rintro (rfl | ⟨hx, hox⟩)
          · exact Or.inl rfl
          · rcases Nat.eq_or_lt_of_le (hleast ⟨hx, hox⟩) with rfl | ho'x
            · exact Or.inr (Or.inl rfl)
            · exact Or.inr (Or.inr ⟨hx, ho'x⟩)

/-- With no soft wrap at the front of the text, the first row is placed like all others. -/
theorem first_eq_placed (hlay : lay.Regular) : first lay = placed lay 0 0 0 := by
  have hwraps : (Mark.atFront lay.wraps).passWhile (·.offset ≤ 0) = Mark.atFront lay.wraps := by
    refine Mark.passWhile_eq_self fun w hw => ?_
    have := hlay.wraps_pos w hw
    simp only [decide_eq_true_eq]
    omega
  have hsettled := settled_first lay
  have hline : lay.document.lineOf 0 = 0 := hsettled.line_eq.symm
  have hfolds := hsettled.folds_eq
  have hinlays := hsettled.inlays_eq
  simp only [first] at hfolds hinlays
  simp only [first, placed, TextLines.lineOf_document, hline, hwraps, ← hfolds, ← hinlays]

/-- **The rows of a regular layout begin at its row starts, in order.** -/
theorem map_start_rows (hlay : lay.Regular) :
    ((first lay).rows lay).map Row.start = lay.rowStarts.sort := by
  obtain ⟨hpair, hiff⟩ :=
    starts_rows_placed hlay (Layout.shown_zero lay.folds) 0 0
  rw [first_eq_placed hlay]
  refine hpair.eq_of_mem_iff lay.rowStarts.sortedLT_sort.pairwise fun x => ?_
  rw [hiff, Finset.mem_sort]
  constructor
  · rintro (rfl | ⟨hx, -⟩)
    · exact lay.zero_mem_rowStarts
    · exact hx
  · intro hx
    rcases Nat.eq_zero_or_pos x with rfl | hpos
    · exact Or.inl rfl
    · exact Or.inr ⟨hx, hpos⟩

end Location

end RowLayout
