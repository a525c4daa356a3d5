import RowLayout.Layout.Cursor
import RowLayout.Proofs.Scan

/-!
# Locations on a walk

A walk carries its marks along, while a row that is placed by its start has them found anew. Both
agree: after every step of a walk the location is the one that is placed at the start of its row.
The first row alone may differ, as a soft wrap at the front of the text is behind a placed row but
still ahead of a walk that begins there; so what a walk keeps is said of *settled* locations, which
leave this open.

## Main definitions

* `Layout.Ordered` — the lists of a layout are in order
* `Location.Settled` — the marks of a location are where the start of its row puts them
* `Cursor.StandsAt` — a cursor stands at a location, and has seen nothing but the row after it

## Main results

* `Location.next_eq_placed` — the row after a settled location is placed by its start
* `Location.drop_rows` — so are all rows of a walk
* `Cursor.rest_eq_of_fresh` — what a cursor tells is a walk
-/

namespace RowLayout

/-- Folds, soft wraps and inlays are ordered by offset. Folds may nest, cross, stop in front of
where they start and reach past the text; soft wraps may stand anywhere, also several at one
place. -/
structure Layout.Sorted (lay : Layout) : Prop where
  folds : lay.folds.Pairwise (·.start ≤ ·.start)
  wraps : lay.wraps.Pairwise (·.offset ≤ ·.offset)
  inlays : lay.inlays.Pairwise (·.offset ≤ ·.offset)

/-- Folds and inlays are ordered by offset, and so are the soft wraps, of which no two share an
offset. Folds may nest, cross and reach past the text; soft wraps may stand anywhere. -/
structure Layout.Ordered (lay : Layout) : Prop where
  folds : lay.folds.Pairwise (·.start ≤ ·.start)
  wraps : lay.wraps.Pairwise (·.offset < ·.offset)
  inlays : lay.inlays.Pairwise (·.offset ≤ ·.offset)

theorem Layout.Ordered.sorted {lay : Layout} (h : lay.Ordered) : lay.Sorted :=
  ⟨h.folds, h.wraps.imp Nat.le_of_lt, h.inlays⟩

namespace Location

variable {lay : Layout} {loc : Location} {o o' : Nat}

/-! ### Settled locations -/

/-- The location of a row that starts at `o`, with everything before `o` behind. A soft wrap at
`o` itself may be behind or ahead. -/
structure Settled (lay : Layout) (loc : Location) (o : Nat) : Prop where
  start_eq : loc.start = some o
  line_eq : loc.line = lay.document.lineOf o
  linesAhead_eq : loc.linesAhead = lay.document.startsAfter loc.line
  folds_eq : loc.folds = (Mark.atFront lay.folds).passWhile (·.start < o)
  wraps_eq : ∃ passed, lay.wraps = passed ++ loc.wraps.ahead ∧
    loc.wraps.behind = passed.length ∧ ∀ w ∈ passed, w.offset ≤ o
  le_wraps : ∀ w ∈ loc.wraps.ahead, o ≤ w.offset
  inlays_eq : loc.inlays = (Mark.atFront lay.inlays).passWhile (·.offset < o)

theorem settled_first (lay : Layout) : (first lay).Settled lay 0 where
  start_eq := rfl
  line_eq := (Document.lineOf_eq lay.document.onLine_zero).symm
  linesAhead_eq := rfl
  folds_eq := (Mark.passWhile_eq_self (by simp)).symm
  wraps_eq := ⟨[], rfl, rfl, by simp⟩
  le_wraps := fun _ _ => Nat.zero_le _
  inlays_eq := (Mark.passWhile_eq_self (by simp)).symm

theorem settled_placed (h : lay.Sorted) (index o y : Nat) :
    (placed lay index o y).Settled lay o where
  start_eq := rfl
  line_eq := rfl
  linesAhead_eq := rfl
  folds_eq := rfl
  wraps_eq := by
    refine ⟨lay.wraps.takeWhile (·.offset ≤ o), ?_, ?_, fun w hw => ?_⟩
    · exact List.takeWhile_append_dropWhile.symm
    · exact Nat.zero_add _
    · simpa using List.mem_takeWhile_imp hw
  le_wraps w hw := ((mem_dropWhile_upTo h.wraps).mp hw).2.le
  inlays_eq := rfl

/-- The document line of a settled location holds the start of its row. -/
theorem Settled.onLine (h : loc.Settled lay o) : lay.document.OnLine loc.line o :=
  h.line_eq ▸ lay.document.onLine_lineOf o

theorem Settled.pairwise_folds (hlay : lay.Ordered) (h : loc.Settled lay o) :
    loc.folds.ahead.Pairwise (·.start ≤ ·.start) := by
  rw [h.folds_eq]
  exact hlay.folds.sublist (List.dropWhile_sublist _)

theorem Settled.pairwise_linesAhead (h : loc.Settled lay o) :
    loc.linesAhead.Pairwise (· < ·) :=
  h.linesAhead_eq ▸ lay.document.pairwise_startsAfter _

/-! ### One step -/

theorem start_next (lay : Layout) (loc : Location) :
    (loc.next lay).start = loc.scanNext.start := by
  cases hstart : loc.scanNext.start <;> simp [next, hstart]

theorem le_of_mem_pending (h : loc.Settled lay o) : ∀ w ∈ loc.pending, o ≤ w := by
  intro w hw
  obtain ⟨wrap, hwrap, rfl⟩ := Option.map_eq_some_iff.mp hw
  exact h.le_wraps wrap (List.mem_of_mem_head? hwrap)

/-- A step does not go back. -/
theorem le_start_next (h : loc.Settled lay o) (hnext : (loc.next lay).start = some o') :
    o ≤ o' := by
  rw [start_next] at hnext
  refine le_of_scan (le_of_mem_pending h) (fun s hs => ?_) hnext
  rw [h.linesAhead_eq] at hs
  exact (h.onLine.lt_of_mem s hs).le

/-- A step does not go past the pending soft wrap. -/
theorem start_next_le_pending (hnext : (loc.next lay).start = some o') :
    ∀ w ∈ loc.pending, o' ≤ w :=
  fun _ hw => le_pending_of_scan hw (start_next lay loc ▸ hnext)

/-- A step to the pending soft wrap passes it. -/
theorem wraps_behind_of_pending (hnext : (loc.next lay).start = some o')
    (h : loc.pending = some o') : (loc.next lay).wraps.behind = loc.wraps.behind + 1 := by
  have hfound : loc.scanNext.start = some o' := start_next lay loc ▸ hnext
  have hwraps : (loc.next lay).wraps = loc.wraps.passNext := by simp only [next, hfound, if_pos h]
  rw [hwraps]
  rw [pending, Mark.next?] at h
  cases hahead : loc.wraps.ahead with
  | nil => simp [hahead] at h
  | cons w rest => simp [Mark.passNext, hahead]

/-- The soft wraps behind the next row are those up to its start. -/
theorem wraps_next (hlay : lay.Ordered) (h : loc.Settled lay o)
    (hnext : (loc.next lay).start = some o') :
    (if loc.pending = some o' then loc.wraps.passNext else loc.wraps) =
      (Mark.atFront lay.wraps).passWhile (·.offset ≤ o') := by
  obtain ⟨passed, hsplit, hbehind, hpassed⟩ := h.wraps_eq
  have hoo' := le_start_next h hnext
  have hle := start_next_le_pending hnext
  have hsorted := hlay.wraps
  rw [hsplit, Mark.passWhile_of_split (by simpa using fun w hw => (hpassed w hw).trans hoo'),
    ← hbehind]
  rw [hsplit, List.pairwise_append] at hsorted
  rcases hwraps : loc.wraps with ⟨behind, ahead⟩
  rw [hwraps] at hsorted
  cases ahead with
  | nil => simp [pending, hwraps, Mark.next?, Mark.passWhile]
  | cons w rest =>
    have hpending : loc.pending = some w.offset := by simp [pending, hwraps, Mark.next?]
    have hw : o' ≤ w.offset := hle w.offset hpending
    have hrest := (List.pairwise_cons.mp hsorted.2.1).1
    by_cases heq : w.offset = o'
    · have hahead : ∀ w' ∈ rest, ¬ decide (w'.offset ≤ o') = true := fun w' hw' => by
        have := hrest w' hw'
        simp only [decide_eq_true_eq]
        omega
      rw [hpending, if_pos (by rw [heq]), Mark.passWhile_cons_of_pos (by simp [heq]),
        Mark.passWhile_eq_self hahead]
      rfl
    · rw [hpending, if_neg (by simpa using heq), Mark.passWhile_cons_of_neg]
      simp only [decide_eq_true_eq]
      omega

/-- A step ends on the line that holds the start of the next row. -/
theorem onLine_scanNext (h : loc.Settled lay o) (hfound : loc.scanNext.start = some o') :
    lay.document.OnLine loc.scanNext.line o' ∧
      loc.scanNext.linesAhead = lay.document.startsAfter loc.scanNext.line :=
  onLine_scan h.onLine.line_lt h.linesAhead_eq.symm
    (fun w hw => h.onLine.start_le.trans (le_of_mem_pending h w hw)) hfound

/-- The folds behind the next row are those that start before it. -/
theorem folds_scanNext (h : loc.Settled lay o) (hoo' : o ≤ o')
    (hfound : loc.scanNext.start = some o') :
    loc.scanNext.folds.passWhile (·.start < o') =
      (Mark.atFront lay.folds).passWhile (·.start < o') := by
  rw [scanNext, scan_folds h.pairwise_linesAhead hfound, h.folds_eq]
  refine Mark.passWhile_passWhile (fun r hr => ?_) _
  simp only [decide_eq_true_eq] at hr ⊢
  omega

/-- The inlays behind the next row are those before it. -/
theorem inlays_passed (h : loc.Settled lay o) (hoo' : o ≤ o') :
    loc.inlays.passWhile (·.offset < o') =
      (Mark.atFront lay.inlays).passWhile (·.offset < o') := by
  rw [h.inlays_eq]
  refine Mark.passWhile_passWhile (fun i hi => ?_) _
  simp only [decide_eq_true_eq] at hi ⊢
  omega

/-- **The row after a settled location is placed by its start**, at the index that follows and
below the inlays in between. -/
theorem next_eq_placed (hlay : lay.Ordered) (h : loc.Settled lay o)
    (hnext : (loc.next lay).start = some o') :
    loc.next lay = placed lay (low64 (loc.index + 1)) o'
      (topBelow lay.lineHeight loc.y (loc.inlays.ahead.takeWhile (·.offset < o'))) := by
  have hfound : loc.scanNext.start = some o' := start_next lay loc ▸ hnext
  have hoo' := le_start_next h hnext
  obtain ⟨hline, hlinesAhead⟩ := onLine_scanNext h hfound
  simp only [next, hfound, placed, TextLines.lineOf_document, TextLines.startsAfter_document,
    Document.lineOf_eq hline, ← hlinesAhead, folds_scanNext h hoo' hfound, inlays_passed h hoo',
    wraps_next hlay h hnext]

/-! ### All rows of a walk -/

section

variable {T : Type} {lay : Layout T}

theorem last_of_start (h : loc.start = some o) : loc.last lay = (loc.next lay).last lay := by
  rw [last]
  split
  · next hnone => simp [hnone] at h
  · rfl

theorem last_of_start_eq_none (h : loc.start = none) : loc.last lay = loc := by
  rw [last]
  split
  · rfl
  · next s hsome => simp [h] at hsome

variable [TextLines T]

theorem rows_of_start (h : loc.start = some o) :
    loc.rows lay = loc.row lay o :: (loc.next lay).rows lay := by
  rw [rows]
  split
  · next hnone => simp [hnone] at h
  · next s hsome =>
    obtain rfl : s = o := Option.some.inj (hsome.symm.trans h)
    rfl

theorem rows_of_start_eq_none (h : loc.start = none) : loc.rows lay = [] := by
  rw [rows]
  split
  · rfl
  · next s hsome => simp [h] at hsome

theorem row_start (lay : Layout T) (loc : Location) (o : Nat) : (loc.row lay o).start = o := rfl

theorem row_y (lay : Layout T) (loc : Location) (o : Nat) : (loc.row lay o).y = loc.y := rfl

/-- The first row of a walk is the one at which it begins. -/
theorem start_of_getElem?_zero {row : Row} (h : (loc.rows lay)[0]? = some row) :
    loc.start = some row.start ∧ row = loc.row lay row.start := by
  cases hstart : loc.start with
  | none => simp [rows_of_start_eq_none hstart] at h
  | some o =>
    rw [rows_of_start hstart, List.getElem?_cons_zero, Option.some.injEq] at h
    subst h
    exact ⟨rfl, rfl⟩

end

/-- **Every later row of a walk is placed by its start:** the rest of the walk is the walk that
begins there. -/
theorem drop_rows (hlay : lay.Ordered) (h : loc.Settled lay o) {n : Nat} {row : Row}
    (hrow : (loc.rows lay)[n + 1]? = some row) :
    (loc.rows lay).drop (n + 1) =
      (placed lay (low64 (loc.index + (n + 1))) row.start row.y).rows lay := by
  rw [rows_of_start h.start_eq] at hrow ⊢
  rw [List.getElem?_cons_succ] at hrow
  rw [List.drop_succ_cons]
  induction n generalizing loc o with
  | zero =>
    obtain ⟨hstart, hrow⟩ := start_of_getElem?_zero hrow
    have hnext := next_eq_placed hlay h hstart
    have hy : row.y = (loc.next lay).y := by rw [hrow, row_y]
    rw [List.drop_zero, hy, hnext]
    rfl
  | succ n ih =>
    cases hstart : (loc.next lay).start with
    | none => simp [rows_of_start_eq_none hstart] at hrow
    | some o' =>
      have hnext := next_eq_placed hlay h hstart
      have hsettled : (loc.next lay).Settled lay o' := hnext ▸ settled_placed hlay.sorted ..
      have hindex : (loc.next lay).index = low64 (loc.index + 1) := by rw [hnext]; rfl
      rw [rows_of_start hstart, List.getElem?_cons_succ] at hrow
      rw [rows_of_start hstart, List.drop_succ_cons, ih hsettled hrow, hindex, low64_add_low64]
      congr 3
      omega

end Location

/-! ### Cursors -/

namespace Cursor

variable {T : Type} {lay : Layout T} {loc : Location} {c : Cursor T} {o : Nat}

/-- Telling the current row and moving on leads to the row ahead, whether or not it was seen
before. -/
theorem next?_of_start [TextLines T] (hstart : c.location.start = some o) :
    c.next? = (some (c.location.rowBefore c.layout o c.following),
      ⟨c.layout, c.following, none⟩) := by
  simp [next?, row, ask, advance, lookingAhead, following, atEnd, Location.finished, hstart]

/-- A cursor over a layout that stands at a location. If it has looked ahead, it has seen the row
after that one. -/
structure StandsAt (lay : Layout T) (loc : Location) (c : Cursor T) : Prop where
  layout_eq : c.layout = lay
  location_eq : c.location = loc
  lookahead_eq : ∀ following ∈ c.lookahead, following = loc.next lay

/-- Where nothing was seen ahead, nothing can be stale. -/
theorem standsAt_of_lookahead_eq_none (h : c.lookahead = none) :
    c.StandsAt c.layout c.location :=
  ⟨rfl, rfl, by simp [h]⟩

namespace StandsAt

theorem following_eq (h : c.StandsAt lay loc) : c.following = loc.next lay := by
  rw [following, h.layout_eq, h.location_eq]
  cases hlookahead : c.lookahead with
  | none => rfl
  | some following => exact h.lookahead_eq following hlookahead

theorem atEnd_eq (h : c.StandsAt lay loc) : c.atEnd = loc.start.isNone := by
  rw [atEnd, h.location_eq, Location.finished]

theorem lookingAhead (h : c.StandsAt lay loc) : c.lookingAhead.StandsAt lay loc := by
  refine ⟨h.layout_eq, h.location_eq, ?_⟩
  intro following hfollowing
  exact (Option.some.inj hfollowing).symm.trans h.following_eq

/-- A move leads to the next row, whether that was seen ahead or is found now, and forgets what was
seen. -/
theorem advance_eq (h : c.StandsAt lay loc) (hstart : loc.start = some o) :
    c.advance = (.ok (), ⟨lay, loc.next lay, none⟩) := by
  have hend : c.atEnd = false := by rw [h.atEnd_eq, hstart, Option.isNone_some]
  simp [advance, hend, h.following_eq, h.layout_eq]

variable [TextLines T]

theorem ask_eq {α : Type} (part : Row → α) (h : c.StandsAt lay loc) (hstart : loc.start = some o) :
    c.ask part = (.ok (part (loc.row lay o)), c.lookingAhead) := by
  simp only [ask, h.following_eq, h.location_eq, h.layout_eq, hstart]
  rfl

theorem next?_eq (h : c.StandsAt lay loc) (hstart : loc.start = some o) :
    c.next? = (some (loc.row lay o), ⟨lay, loc.next lay, none⟩) := by
  have hlocation : c.location.start = some o := by rw [h.location_eq, hstart]
  rw [next?_of_start hlocation, h.following_eq, h.location_eq, h.layout_eq]
  rfl

theorem rest_eq (h : c.StandsAt lay loc) (hstart : loc.start = some o) :
    c.rest = (loc.rows lay, ⟨lay, loc.last lay, none⟩) := by
  simp only [rest, h.next?_eq hstart, Location.rows_of_start hstart, Location.last_of_start hstart]

end StandsAt

/-- A fresh cursor tells the rows of a walk from its location, and ends where that ends. -/
theorem rest_eq_of_fresh [TextLines T] (c : Cursor T) (h : c.lookahead = none) :
    c.rest = (c.location.rows c.layout, { c with location := c.location.last c.layout }) := by
  obtain ⟨lay, loc, lookahead⟩ := c
  subst h
  cases hstart : loc.start with
  | none =>
    rw [Location.rows_of_start_eq_none hstart, Location.last_of_start_eq_none hstart]
    simp [rest, next?, row, ask, hstart]
  | some o => exact (standsAt_of_lookahead_eq_none rfl).rest_eq hstart

theorem rest_eq_rows [TextLines T] (c : Cursor T) (h : c.lookahead = none) :
    c.rest.1 = c.location.rows c.layout := by
  rw [c.rest_eq_of_fresh h]

end Cursor

end RowLayout
