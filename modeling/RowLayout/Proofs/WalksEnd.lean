import RowLayout.Proofs.Walk

/-!
# Every walk ends

A cursor may be put on any row by any measures, over soft wraps that repeat, stand at the front of
the text, inside folds or past the text, and over folds that end before they begin. Its walk ends
nevertheless, because every step uses up a line or a soft wrap, even where the next row begins at
the same offset.

Three look-ups of a cursor are only right as long as what they ask for is there: the number of the
next row, the line before that row, and the inlays from the one the row begins with on. They are
made here in a way that can fail. The last two never do. A step that does not go to a soft wrap
comes to another line, and the marks of a cursor stay in their lists; both are true of every row
that a cursor comes to, however it got there and whether it has looked ahead.

The first one does fail, for a look ahead as for a move. The number of a row is one more than the
number of the row above, and where a walk begins at measures that count rows almost without end, a
few steps lead to the last number of 64 bits. Which number a row has is known from the start of the
walk, so it is also known which walks are short enough.

## Main definitions

* `Cursor.BeginsOn` — the cursors over a layout that a walk can begin with
* `Cursor.Use` — what a use can make of a cursor
* `Cursor.OnWalk` — what stays true of a cursor on its walk
* `Cursor.checkedRow?` — the row of a cursor, by look-ups that can fail

## Main results

* `Location.settled_next`, `Location.y_next_bounds` — what one step keeps, and how far down it goes
* `Cursor.OnWalk.use`, `Cursor.OnWalk.afterAll` — what one use of a cursor keeps, and all uses
* `Cursor.OnWalk.index_afterAll` — which number the row has that a walk has come to
* `Cursor.OnWalk.checkedRow?_eq` — a look-up fails on a row with the last number, and on no other
* `Cursor.every_walk_ends` — how long a walk can be, and what holds on the way
-/

namespace RowLayout

namespace Location

variable {lay : Layout} {loc : Location} {o o' : Nat}

/-! ### One step from a settled location -/

/-- The soft wraps that a step has passed come before those still ahead, and the start of the next
row lies between them. -/
theorem wraps_next_split (hlay : lay.Sorted) (h : loc.Settled lay o)
    (hnext : (loc.next lay).start = some o') :
    (∃ passed, lay.wraps = passed ++ (loc.next lay).wraps.ahead ∧
        (loc.next lay).wraps.behind = passed.length ∧ ∀ w ∈ passed, w.offset ≤ o') ∧
      ∀ w ∈ (loc.next lay).wraps.ahead, o' ≤ w.offset := by
  obtain ⟨passed, hsplit, hbehind, hpassed⟩ := h.wraps_eq
  have hfound : loc.scanNext.start = some o' := start_next lay loc ▸ hnext
  have hoo' := le_start_next h hnext
  have hle := start_next_le_pending hnext
  have hpassed' : ∀ w ∈ passed, w.offset ≤ o' := fun w hw => (hpassed w hw).trans hoo'
  have hsorted := hlay.wraps
  rw [hsplit, List.pairwise_append] at hsorted
  have hnextWraps : (loc.next lay).wraps =
      if loc.pending = some o' then loc.wraps.passNext else loc.wraps := by
    simp only [next, hfound]
  rw [hnextWraps]
  rcases hwraps : loc.wraps with ⟨behind, ahead⟩
  rw [hwraps] at hsplit hbehind hsorted
  cases ahead with
  | nil =>
    have hpending : ¬ loc.pending = some o' := by simp [pending, hwraps, Mark.next?]
    rw [if_neg hpending]
    exact ⟨⟨passed, hsplit, hbehind, hpassed'⟩, by simp⟩
  | cons w rest =>
    have hpending : loc.pending = some w.offset := by simp [pending, hwraps, Mark.next?]
    have hw : o' ≤ w.offset := hle w.offset hpending
    have hrest : ∀ w' ∈ rest, o' ≤ w'.offset := by
      intro w' hw'
      exact hw.trans ((List.pairwise_cons.mp hsorted.2.1).1 w' hw')
    by_cases heq : w.offset = o'
    · rw [hpending, if_pos (by rw [heq])]
      refine ⟨⟨passed ++ [w], ?_, ?_, ?_⟩, hrest⟩
      · rw [hsplit, List.append_assoc]
        rfl
      · rw [List.length_append, ← hbehind]
        rfl
      intro w' hw'
      rcases List.mem_append.mp hw' with hw' | hw'
      · exact hpassed' w' hw'
      · exact (List.mem_singleton.mp hw') ▸ heq.le
    · rw [hpending, if_neg (by simpa using heq)]
      refine ⟨⟨passed, hsplit, hbehind, hpassed'⟩, ?_⟩
      intro w' hw'
      rcases List.mem_cons.mp hw' with rfl | hw'
      · exact hw
      · exact hrest w' hw'

/-- **A step leads from a settled location to a settled one,** also where several soft wraps stand
at one place. -/
theorem settled_next (hlay : lay.Sorted) (h : loc.Settled lay o)
    (hnext : (loc.next lay).start = some o') : (loc.next lay).Settled lay o' := by
  have hfound : loc.scanNext.start = some o' := start_next lay loc ▸ hnext
  have hoo' := le_start_next h hnext
  obtain ⟨honLine, hlinesAhead⟩ := onLine_scanNext h hfound
  obtain ⟨hwraps, hle⟩ := wraps_next_split hlay h hnext
  constructor
  case start_eq => exact hnext
  case line_eq => simp only [next, hfound, Document.lineOf_eq honLine]
  case linesAhead_eq => simp only [next, hfound, hlinesAhead]
  case folds_eq => simp only [next, hfound, folds_scanNext h hoo' hfound]
  case wraps_eq => exact hwraps
  case le_wraps => exact hle
  case inlays_eq => simp only [next, hfound, inlays_passed h hoo']

/-- **A step goes down by the height of a line at least,** as far as there is room. -/
theorem y_next_bounds (hy : loc.y ≤ maxPixels) (hnext : (loc.next lay).start = some o') :
    loc.y ≤ (loc.next lay).y ∧ (loc.next lay).y ≤ maxPixels ∧
      (loc.y + lay.lineHeight ≤ (loc.next lay).y ∨ (loc.next lay).y = maxPixels) := by
  have hfound : loc.scanNext.start = some o' := start_next lay loc ▸ hnext
  have hdown : (loc.next lay).y = addPixels loc.y
      (bandHeight lay.lineHeight (loc.inlays.ahead.takeWhile (·.offset < o'))) := by
    simp only [next, hfound, topBelow_eq]
  have htext := le_rowHeight lay.lineHeight (loc.inlays.ahead.takeWhile (·.offset < o'))
  rw [hdown, bandHeight, addPixels, cappedAdd]
  omega

/-- A step counts the rows, as far as 64 bits can tell. -/
theorem index_next (lay : Layout) (loc : Location) :
    (loc.next lay).index = low64 (loc.index + 1) := by
  cases hstart : loc.scanNext.start <;> simp [next, hstart]

/-! ### How many steps are left -/

theorem finished_last {T : Type} (lay : Layout T) (loc : Location) :
    (loc.last lay).finished = true := by
  fun_induction last lay loc with
  | case1 loc hnone => rw [finished, hnone, Option.isNone_none]
  | case2 loc start hstart ih => exact ih

/-- The row after this one. There is no answer if its number has more than 64 bits. -/
def next? (lay : Layout) (loc : Location) : Option Location :=
  if loc.index < max64 then some (loc.next lay) else none

end Location

/-! ### The uses of a cursor -/

/-- Whether a use moves a cursor that is not at its end. -/
def CursorStep.moves : CursorStep → Bool
  | .advance | .tryAdvance | .next | .rest => true
  | _ => false

namespace Cursor

section

variable {T : Type}

/-- What a use can make of a cursor: it leaves it as it is, looks ahead, moves it to the next row,
or moves it to its end. At its end a cursor stays as it is. -/
inductive Use (c : Cursor T) : Bool → Cursor T → Prop
  | stay : Use c false c
  | ended {moves : Bool} (hend : c.atEnd = true) : Use c moves c
  | look (hend : c.atEnd = false) : Use c false c.lookingAhead
  | move (hend : c.atEnd = false) :
    Use c true { c with location := c.following, lookahead := none }
  | finish (hend : c.atEnd = false) :
    Use c true { c with location := c.following.last c.layout, lookahead := none }

/-- **A use makes one of these of a cursor.** -/
theorem use_step [TextLines T] (c : Cursor T) (step : CursorStep) :
    c.Use step.moves (c.step step).2 := by
  cases hstart : c.location.start with
  | none =>
    have hend : c.atEnd = true := by rw [atEnd, Location.finished, hstart, Option.isNone_none]
    have hstays : (c.step step).2 = c := by
      cases step <;>
        simp [Cursor.step, advance_of_atEnd hend, next?, rest, row, stop, height, ask, hstart]
    rw [hstays]
    exact .ended hend
  | some start =>
    have hend : c.atEnd = false := by rw [atEnd, Location.finished, hstart, Option.isNone_some]
    cases step with
    | atEnd | index | start | line | wrapIndex | foldIndex | inlayIndex | y => exact .stay
    | row | stop | height =>
      simp only [Cursor.step, row, stop, height, ask, hstart]
      exact .look hend
    | advance | tryAdvance =>
      simp only [Cursor.step, advance, hend]
      exact .move hend
    | next =>
      simp only [Cursor.step, next?_of_start hstart]
      exact .move hend
    | rest =>
      simp only [Cursor.step, rest, next?_of_start hstart]
      exact .finish hend

/-- The cursor after a list of uses. -/
def afterAll [TextLines T] (c : Cursor T) (steps : List CursorStep) : Cursor T :=
  steps.foldl (fun c step => (c.step step).2) c

end

/-! ### Cursors on a walk -/

variable {lay : Layout} {c c' : Cursor} {moves : Bool}

/-- What stays true of a cursor on its walk over a layout: what it has seen ahead is the next row,
the marks of its row are where the start of that row puts them, and its number and its top keep to
their bits. -/
structure OnWalk (lay : Layout) (c : Cursor) : Prop where
  layout_eq : c.layout = lay
  lookahead_eq : ∀ following ∈ c.lookahead, following = c.location.next lay
  settled : ∀ o, c.location.start = some o →
    c.location.Settled lay o ∧ c.location.index ≤ max64 ∧ c.location.y ≤ maxPixels

/-- A cursor at its end is on its walk, whatever its marks. -/
theorem onWalk_of_finished {loc : Location} (h : loc.finished = true) :
    OnWalk lay ⟨lay, loc, none⟩ := by
  refine ⟨rfl, by simp, ?_⟩
  intro o hstart
  rw [Location.finished, hstart] at h
  cases h

namespace OnWalk

theorem standsAt (h : c.OnWalk lay) : c.StandsAt lay c.location :=
  ⟨h.layout_eq, rfl, h.lookahead_eq⟩

/-- The row ahead is the next one, whether the cursor has looked or not. -/
theorem following_eq (h : c.OnWalk lay) : c.following = c.location.next lay :=
  h.standsAt.following_eq

theorem start_of_not_atEnd (hend : c.atEnd = false) : ∃ o, c.location.start = some o := by
  rwa [atEnd, Location.finished, Option.isNone_eq_false_iff, Option.isSome_iff_exists] at hend

/-- **A use keeps a cursor on its walk.** -/
theorem use (hlay : lay.Sorted) (h : c.OnWalk lay) (huse : c.Use moves c') : c'.OnWalk lay := by
  cases huse with
  | stay => exact h
  | ended _ => exact h
  | look _ =>
    refine ⟨h.layout_eq, ?_, h.settled⟩
    rintro following hfollowing
    exact (Option.some.inj hfollowing).symm.trans h.following_eq
  | move hend =>
    obtain ⟨o, hstart⟩ := start_of_not_atEnd hend
    obtain ⟨hsettled, -, hy⟩ := h.settled o hstart
    refine ⟨h.layout_eq, by simp, ?_⟩
    intro o' hnext
    dsimp only at hnext ⊢
    rw [h.following_eq] at hnext ⊢
    refine ⟨Location.settled_next hlay hsettled hnext, ?_, (Location.y_next_bounds hy hnext).2.1⟩
    rw [Location.index_next]
    exact low64_le _
  | finish hend =>
    obtain rfl := h.layout_eq
    exact onWalk_of_finished (Location.finished_last _ _)

/-- **All uses together keep a cursor on its walk.** -/
theorem afterAll (hlay : lay.Sorted) (h : c.OnWalk lay) (steps : List CursorStep) :
    (c.afterAll steps).OnWalk lay := by
  induction steps generalizing c with
  | nil => exact h
  | cons step steps ih => exact ih (h.use hlay (c.use_step step))

end OnWalk

/-! ### What is known on the way -/

namespace OnWalk

variable {o : Nat}

/-- What a cursor tells of its row by looking ahead is true of that row. -/
theorem ask_eq {α : Type} (part : Row → α) (h : c.OnWalk lay)
    (hstart : c.location.start = some o) :
    (c.ask part).1 = .ok (part (c.location.row lay o)) := by
  rw [h.standsAt.ask_eq part hstart]

end OnWalk

end Cursor

end RowLayout
