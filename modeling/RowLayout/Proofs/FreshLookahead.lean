import RowLayout.Proofs.WalksEnd

/-!
# What is seen ahead is never stale

A cursor looks at the next row to tell where its own stops, and keeps what it has seen until it
moves. So a question changes the cursor that is asked, and a move takes one of two ways: to the row
seen ahead, or to one that is found now. Neither shows in any answer as long as what was seen is the
row after the one on which the cursor stands.

This is so over every layout of every text, in order or not, and whatever the text answers about its
lines. A cursor is compared with a walk that keeps nothing but a location and finds anew, at each
use, whatever the use needs. The two go in lockstep: a use gets the same answer from both, and leads
to the same location.

## Main definitions

* `Location.answer`, `Location.after` — a use, by a walk that keeps nothing but its location
* `CursorAnswer.failed` — the answers that tell and do nothing

## Main results

* `Cursor.StandsAt.step`, `Cursor.StandsAt.answers_eq` — one use in lockstep, and all uses
* `Cursor.rest_eq_of_next?` — all rows from here on are told one by one
* `Cursor.lookahead_never_stale` — what follows for the answers of a cursor
-/

namespace RowLayout

variable {T : Type}

namespace Location

variable {lay : Layout T} {loc : Location} {o : Nat} {step : CursorStep}

/-! ### A walk that keeps nothing but its location -/

/-- What a use is answered at a location, with all that lies ahead found for this answer alone. -/
def answer [TextLines T] (lay : Layout T) (loc : Location) (step : CursorStep) : CursorAnswer :=
  match loc.start with
  | none =>
    match step with
    | .atEnd => .flag true
    | .next => .row? none
    | .rest => .rows []
    | _ => .refused .iterationFinished
  | some start =>
    match step with
    | .atEnd => .flag false
    | .advance | .tryAdvance => .moved
    | .next => .row? (loc.row lay start)
    | .rest => .rows (loc.rows lay)
    | .row => .row (loc.row lay start)
    | .index => .number loc.index
    | .start => .number start
    | .stop => .number (loc.row lay start).stop
    | .line => .number loc.line
    | .wrapIndex => .number? loc.wraps.last?
    | .foldIndex => .number loc.folds.behind
    | .inlayIndex => .number loc.inlays.behind
    | .y => .number loc.y
    | .height => .number (loc.row lay start).height

/-- Where a use leads. Past the last row it leads nowhere. -/
def after (lay : Layout T) (loc : Location) (step : CursorStep) : Location :=
  match loc.start with
  | none => loc
  | some _ =>
    match step with
    | .advance | .tryAdvance | .next => loc.next lay
    | .rest => loc.last lay
    | _ => loc

/-- Where a list of uses leads. -/
def afterAll (lay : Layout T) (loc : Location) (steps : List CursorStep) : Location :=
  steps.foldl (after lay) loc

/-- What a list of uses is answered. -/
def answers [TextLines T] (lay : Layout T) (loc : Location) : List CursorStep → List CursorAnswer
  | [] => []
  | step :: steps => loc.answer lay step :: (loc.after lay step).answers lay steps

theorem answers_append [TextLines T] (lay : Layout T) (loc : Location)
    (steps more : List CursorStep) :
    loc.answers lay (steps ++ more) =
      loc.answers lay steps ++ (loc.afterAll lay steps).answers lay more := by
  induction steps generalizing loc with
  | nil => rfl
  | cons step steps ih => exact congrArg (loc.answer lay step :: ·) (ih (loc.after lay step))

theorem after_of_not_moves (h : step.moves = false) : loc.after lay step = loc := by
  cases hstart : loc.start with
  | none => simp only [after, hstart]
  | some o =>
    cases step with
    | advance | tryAdvance | next | rest => cases h
    | _ => simp only [after, hstart]

/-- Uses that do not move lead nowhere, however many there are. -/
theorem afterAll_of_not_moves {steps : List CursorStep}
    (h : ∀ step ∈ steps, step.moves = false) : loc.afterAll lay steps = loc := by
  induction steps with
  | nil => rfl
  | cons step steps ih =>
    rw [List.forall_mem_cons] at h
    rw [afterAll, List.foldl_cons, after_of_not_moves h.1]
    exact ih h.2

end Location

/-- Whether an answer tells nothing, and nothing was done. -/
def CursorAnswer.failed : CursorAnswer → Bool
  | .refused _ | .row? none => true
  | _ => false

/-- Only past the last row does a use fail. -/
theorem Location.finished_of_failed [TextLines T] {lay : Layout T} {loc : Location}
    {step : CursorStep} (h : (loc.answer lay step).failed = true) : loc.finished = true := by
  cases hstart : loc.start with
  | none => rw [finished, hstart, Option.isNone_none]
  | some o =>
    cases step <;> simp [answer, hstart, CursorAnswer.failed] at h

namespace Cursor

variable {lay : Layout T} {loc : Location} {c c' : Cursor T} {o : Nat}

/-- What a list of uses is answered. -/
def answers [TextLines T] (c : Cursor T) : List CursorStep → List CursorAnswer
  | [] => []
  | step :: steps => (c.step step).1 :: (c.step step).2.answers steps

/-! ### A cursor and a walk in lockstep -/

namespace StandsAt

variable [TextLines T]

/-- **A use gets the same answer from a cursor and from a walk that keeps nothing**, and they stand
at the same location afterwards. -/
theorem step (h : c.StandsAt lay loc) (step : CursorStep) :
    (c.step step).1 = loc.answer lay step ∧ (c.step step).2.StandsAt lay (loc.after lay step) := by
  have hforgets : ∀ loc', StandsAt lay loc' ⟨lay, loc', none⟩ := fun _ => ⟨rfl, rfl, by simp⟩
  cases hstart : loc.start with
  | none =>
    have hend : c.atEnd = true := by rw [h.atEnd_eq, hstart, Option.isNone_none]
    have hlocation : c.location.start = none := by rw [h.location_eq, hstart]
    have hafter : loc.after lay step = loc := by simp only [Location.after, hstart]
    rw [hafter]
    cases step <;>
      simpa [Cursor.step, peek, Cursor.start, stop, height, row, ask, advance_of_atEnd hend, next?,
        rest, CursorAnswer.ofExcept, Location.answer, hend, hlocation, hstart] using h
  | some o =>
    have hend : c.atEnd = false := by rw [h.atEnd_eq, hstart, Option.isNone_some]
    have hlocation : c.location.start = some o := by rw [h.location_eq, hstart]
    simp only [Location.answer, Location.after, hstart]
    cases step with
    | atEnd => exact ⟨congrArg _ hend, h⟩
    | advance | tryAdvance =>
      rw [Cursor.step, h.advance_eq hstart]
      exact ⟨rfl, hforgets _⟩
    | next =>
      rw [Cursor.step, h.next?_eq hstart]
      exact ⟨rfl, hforgets _⟩
    | rest =>
      rw [Cursor.step, h.rest_eq hstart]
      exact ⟨rfl, hforgets _⟩
    | row | stop | height =>
      simp only [Cursor.step, row, stop, height, h.ask_eq _ hstart]
      exact ⟨rfl, h.lookingAhead⟩
    | start =>
      simp only [Cursor.step, Cursor.start, hlocation]
      exact ⟨rfl, h⟩
    | index | line | wrapIndex | foldIndex | inlayIndex | y =>
      simp only [Cursor.step, peek, hend, h.location_eq]
      exact ⟨rfl, h⟩

/-- **They stay in lockstep.** -/
theorem afterAll (h : c.StandsAt lay loc) (steps : List CursorStep) :
    (c.afterAll steps).StandsAt lay (loc.afterAll lay steps) := by
  induction steps generalizing c loc with
  | nil => exact h
  | cons step steps ih => exact ih (h.step step).2

/-- **A list of uses gets the same answers from both.** -/
theorem answers_eq (h : c.StandsAt lay loc) (steps : List CursorStep) :
    c.answers steps = loc.answers lay steps := by
  induction steps generalizing c loc with
  | nil => rfl
  | cons step steps ih =>
    obtain ⟨hanswer, hafter⟩ := h.step step
    rw [answers, Location.answers, hanswer, ih hafter]

end StandsAt

/-! ### What follows for the answers of a cursor -/

/-- Telling all rows from here on is telling one, and then all rows from there on. -/
theorem rest_eq_of_next? [TextLines T] (c : Cursor T) :
    c.rest = match c.next?.1 with
      | some row => (row :: c.next?.2.rest.1, c.next?.2.rest.2)
      | none => ([], c) := by
  cases hstart : c.location.start with
  | none => simp [rest, next?, row, ask, hstart]
  | some o => rw [rest, next?_of_start hstart, rest_eq_of_fresh _ rfl]

/-- At its end a cursor stays as it is, whatever it is used for. -/
theorem Use.eq_of_atEnd {moves : Bool} (h : c.Use moves c') (hend : c.atEnd = true) : c' = c := by
  cases h with
  | stay => rfl
  | ended _ => rfl
  | look hnot | move hnot | finish hnot => cases hnot.symm.trans hend

/-- **What a cursor has seen ahead is never stale.** Put it on any row of any layout of any text,
and use it in any way. If it has looked ahead, then it has seen the row after the one on which it
stands. So it answers every use as if it had kept nothing but its location. Uses that do not move it
may be put in or left out anywhere: all other answers stay the same. And where a use fails, which it
only does past the last row, the cursor stays just as it is. -/
theorem lookahead_never_stale [TextLines T] (h : c.lookahead = none) (steps : List CursorStep) :
    let here := c.afterAll steps
    (∀ following ∈ here.lookahead, following = here.location.next c.layout) ∧
    (c.answers steps = c.location.answers c.layout steps ∧
      here.location = c.location.afterAll c.layout steps) ∧
    (∀ reads more : List CursorStep, (∀ step ∈ reads, step.moves = false) →
      c.answers (steps ++ reads ++ more) =
        c.answers steps ++ here.answers reads ++ here.answers more) ∧
    ∀ step, ((here.step step).1.failed = true → here.atEnd = true) ∧
      (here.atEnd = true → (here.step step).2 = here) := by
  intro here
  have hfirst := standsAt_of_lookahead_eq_none h
  have hhere : here.StandsAt c.layout (c.location.afterAll c.layout steps) := hfirst.afterAll steps
  refine ⟨?_, ⟨hfirst.answers_eq steps, hhere.location_eq⟩, ?_, ?_⟩
  · rw [hhere.location_eq]
    exact hhere.lookahead_eq
  · intro reads more hreads
    rw [hfirst.answers_eq, hfirst.answers_eq, hhere.answers_eq, hhere.answers_eq,
      List.append_assoc, Location.answers_append, Location.answers_append,
      Location.afterAll_of_not_moves hreads, List.append_assoc]
  · intro step
    constructor
    · intro hfailed
      rw [(hhere.step step).1] at hfailed
      exact hhere.atEnd_eq.trans (Location.finished_of_failed hfailed)
    · exact (here.use_step step).eq_of_atEnd

/-- A text of which nothing is known but how long its lines are, each of them with one character
more that ends it. -/
structure LineLengths where
  lengths : List Nat

namespace LineLengths

/-- The offset at which a line starts. -/
def lineStart (text : LineLengths) (line : Nat) : Nat :=
  (text.lengths.take line).foldl (fun offset length => offset + length + 1) 0

instance : TextLines LineLengths where
  lineCount text := text.lengths.length
  lineStart := lineStart
  lineStop text line := text.lineStart line + text.lengths.getD line 0
  length text := text.lineStart text.lengths.length
  lineOf text offset :=
    (List.range text.lengths.length).countP (fun line => text.lineStart line ≤ offset) - 1

end LineLengths

/-- Two lines, with soft wraps and inlays out of order and a fold that stops in front of where it
starts. -/
def disordered : Layout LineLengths where
  document := ⟨[3, 2]⟩
  folds := [.plain 5 1 true]
  wraps := [⟨2, 0⟩, ⟨1, 0⟩]
  inlays := [⟨0, 4, 30, .inline⟩, ⟨1, 0, 7, .block⟩]
  lineHeight := 10

theorem lookahead_fresh_in_disordered :
    (atFirstRow disordered).lookahead = none ∧
      ((atFirstRow disordered).afterAll [.advance, .stop]).lookahead =
        some (((atFirstRow disordered).afterAll [.advance, .stop]).location.next disordered) ∧
      (∀ step ∈ [CursorStep.stop, .height, .atEnd], step.moves = false) ∧
      (atFirstRow disordered).answers
          ([.advance, .stop] ++ [.stop, .height, .atEnd] ++ [.advance, .start, .next, .y]) =
        [.moved, .number 1, .number 1, .number 10, .flag false,
          .moved, .number 1, .row? (some ⟨2, 1, 3, 0, 0, some 1, 0, 20, 10⟩), .number 30] ∧
      ((atFirstRow disordered).afterAll [.rest]).step .tryAdvance =
        (.refused .iterationFinished, (atFirstRow disordered).afterAll [.rest]) := by
  have hfresh : (atFirstRow disordered).lookahead = none := rfl
  obtain ⟨hseen, -, hreads, -⟩ := lookahead_never_stale hfresh [.advance, .stop]
  obtain ⟨-, -, -, hend⟩ := lookahead_never_stale hfresh [.rest]
  refine ⟨hfresh, ?_, by decide, ?_, Prod.ext ?_ ?_⟩
  · obtain ⟨following, hfollowing⟩ := Option.isSome_iff_exists.mp
      (show ((atFirstRow disordered).afterAll [.advance, .stop]).lookahead.isSome from rfl)
    exact hfollowing.trans (congrArg some (hseen following hfollowing))
  · rw [hreads _ _ (by decide)]
    decide +kernel
  · decide +kernel
  · exact (hend .tryAdvance).2 (by decide +kernel)

end Cursor

end RowLayout
