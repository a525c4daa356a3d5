import RowLayout.Bounded
import RowLayout.Ordered

/-!
# Inlays

An inlay is something other than text that takes up vertical space. It is anchored to an offset.
An *inline* inlay stands on the row among the text and can only make that row taller; a *block*
inlay has a band of its own below the row that holds its anchor.

## Main definitions

* `Inlay`, `InlayKind` — an inlay and how it takes up space
* `rowHeight`, `blockHeight`, `bandHeight` — the space taken by the inlays of one row
* `Descent`, `topBelow`, `bottomBelow` — going down past that space, one inlay at a time
* `InlaySet` — the inlays of a document, ordered by offset
* `InlayEdit`, `InlaySet.apply` — the changes as values, and what they answer

## Main results

* `topBelow_eq`, `bottomBelow_eq` — both ways of going down cover the whole band, in whatever
  order the inlays are met and wherever the ceiling is reached
-/

namespace RowLayout

/-- How an inlay takes up space. -/
inductive InlayKind where
  /-- On the row, which grows if the inlay is taller. -/
  | inline
  /-- In a band of its own below the row. -/
  | block
deriving DecidableEq, Repr, Inhabited

/-- An annotation anchored to an offset, with its height in pixels. -/
structure Inlay where
  id : Nat
  offset : Nat
  height : Nat
  kind : InlayKind
deriving DecidableEq, Repr, Inhabited

/-! ### Heights -/

/-- The heights of the inlays of one kind. -/
def heightsOf (kind : InlayKind) (inlays : List Inlay) : List Nat :=
  (inlays.filter (·.kind = kind)).map Inlay.height

/-- The height of a row with the given inlays: that of a row of text, or of the tallest inline
inlay if that is taller. -/
def rowHeight (lineHeight : Nat) (inlays : List Inlay) : Nat :=
  (heightsOf .inline inlays).foldl max lineHeight

/-- The heights of the block inlays, one below the other. -/
def blockHeight (inlays : List Inlay) : Nat := (heightsOf .block inlays).foldl (· + ·) 0

/-- The distance from the top of a row with the given inlays to the top of the next row. -/
def bandHeight (lineHeight : Nat) (inlays : List Inlay) : Nat :=
  rowHeight lineHeight inlays + blockHeight inlays

theorem blockHeight_cons_block {i : Inlay} (h : i.kind = .block) (rest : List Inlay) :
    blockHeight (i :: rest) = i.height + blockHeight rest := by
  simp only [blockHeight, heightsOf, h, List.filter_cons, decide_true, if_true, List.map_cons,
    ← List.sum_eq_foldl_nat, List.sum_cons]

theorem blockHeight_cons_inline {i : Inlay} (h : i.kind = .inline) (rest : List Inlay) :
    blockHeight (i :: rest) = blockHeight rest := by
  simp [blockHeight, heightsOf, h]

theorem rowHeight_cons_block {i : Inlay} (h : i.kind = .block) (lineHeight : Nat)
    (rest : List Inlay) : rowHeight lineHeight (i :: rest) = rowHeight lineHeight rest := by
  simp [rowHeight, heightsOf, h]

theorem rowHeight_cons_inline {i : Inlay} (h : i.kind = .inline) (lineHeight : Nat)
    (rest : List Inlay) :
    rowHeight lineHeight (i :: rest) = rowHeight (max lineHeight i.height) rest := by
  simp [rowHeight, heightsOf, h]

/-- A row is never lower than its text. -/
theorem le_rowHeight (lineHeight : Nat) (inlays : List Inlay) :
    lineHeight ≤ rowHeight lineHeight inlays := by
  induction inlays generalizing lineHeight with
  | nil => simp [rowHeight, heightsOf]
  | cons i rest ih =>
    cases h : i.kind with
    | block => rw [rowHeight_cons_block h]; exact ih lineHeight
    | inline =>
      rw [rowHeight_cons_inline h]
      exact Nat.le_trans (Nat.le_max_left ..) (ih _)

/-! ### Going down past a row -/

/-- A vertical position on its way past the inlays of a row: the pixels reached, and the height of
the tallest thing met on the row so far. -/
structure Descent where
  y : Nat
  tallest : Nat
deriving DecidableEq, Repr

namespace Descent

/-- Below the text of a row whose top is at `y`. -/
def belowText (lineHeight y : Nat) : Descent := ⟨addPixels y lineHeight, lineHeight⟩

/-- Meet one more inlay of the row. A block inlay is passed in full; an inline inlay only counts
by as much as it stands out above everything met before. -/
def meet (d : Descent) (i : Inlay) : Descent :=
  match i.kind with
  | .block => { d with y := addPixels d.y i.height }
  | .inline =>
    if d.tallest < i.height then ⟨addPixels d.y (i.height - d.tallest), i.height⟩ else d

end Descent

/-- The top of the next row, found by meeting the inlays of a row one after the other. -/
def topBelow (lineHeight y : Nat) (inlays : List Inlay) : Nat :=
  (inlays.foldl Descent.meet (.belowText lineHeight y)).y

/-- The bottom of everything, if a row with the given inlays is the last one: below the text come
the block inlays, and what the tallest inline inlay adds to the row is counted at the end. -/
def bottomBelow (lineHeight y : Nat) (inlays : List Inlay) : Nat :=
  addPixels ((heightsOf .block inlays).foldl addPixels (addPixels y lineHeight))
    (rowHeight lineHeight inlays - lineHeight)

/-- From any point of a descent on, the way down is what the inlays ahead add to the row and
their blocks. -/
theorem foldl_meet_y (inlays : List Inlay) (d : Descent) (h : d.y ≤ maxPixels) :
    (inlays.foldl Descent.meet d).y =
      addPixels d.y (rowHeight d.tallest inlays - d.tallest + blockHeight inlays) := by
  induction inlays generalizing d with
  | nil => simp [rowHeight, blockHeight, heightsOf, addPixels, cappedAdd, h]
  | cons i rest ih =>
    rw [List.foldl_cons]
    cases hk : i.kind with
    | block =>
      have hd : d.meet i = { d with y := addPixels d.y i.height } := by simp [Descent.meet, hk]
      rw [hd, ih _ (addPixels_le ..), addPixels_addPixels, rowHeight_cons_block hk,
        blockHeight_cons_block hk]
      dsimp only
      congr 1
      omega
    | inline =>
      rw [rowHeight_cons_inline hk, blockHeight_cons_inline hk]
      by_cases ht : d.tallest < i.height
      · have hd : d.meet i = ⟨addPixels d.y (i.height - d.tallest), i.height⟩ := by
          simp [Descent.meet, hk, ht]
        have hle := le_rowHeight i.height rest
        rw [hd, ih _ (addPixels_le ..), addPixels_addPixels, Nat.max_eq_right (Nat.le_of_lt ht)]
        dsimp only
        congr 1
        omega
      · have hd : d.meet i = d := by simp [Descent.meet, hk, ht]
        rw [hd, ih d h, Nat.max_eq_left (Nat.not_lt.mp ht)]

/-- **Going down past a row covers its band**, in whatever order the inlays are met. -/
theorem topBelow_eq (lineHeight y : Nat) (inlays : List Inlay) :
    topBelow lineHeight y inlays = addPixels y (bandHeight lineHeight inlays) := by
  have hle := le_rowHeight lineHeight inlays
  rw [topBelow, foldl_meet_y _ _ (addPixels_le ..)]
  simp only [Descent.belowText, addPixels_addPixels, bandHeight]
  congr 1
  omega

theorem foldl_addPixels (heights : List Nat) {y : Nat} (h : y ≤ maxPixels) :
    heights.foldl addPixels y = addPixels y (heights.foldl (· + ·) 0) := by
  induction heights generalizing y with
  | nil => simp [addPixels, cappedAdd, h]
  | cons height rest ih =>
    rw [List.foldl_cons, ih (addPixels_le ..), addPixels_addPixels, ← List.sum_eq_foldl_nat,
      ← List.sum_eq_foldl_nat, List.sum_cons]

/-- The bottom of a last row lies where the top of a next row would. -/
theorem bottomBelow_eq (lineHeight y : Nat) (inlays : List Inlay) :
    bottomBelow lineHeight y inlays = addPixels y (bandHeight lineHeight inlays) := by
  have hle := le_rowHeight lineHeight inlays
  rw [bottomBelow, foldl_addPixels _ (addPixels_le ..), addPixels_addPixels, addPixels_addPixels,
    bandHeight, blockHeight]
  congr 1
  omega

/-! ### Inlay sets -/

/-- The inlays of a document, ordered by offset and, at the same offset, by age, and the id that
the next one gets. Ids are not used a second time. -/
structure InlaySet where
  inlays : List Inlay
  nextId : Nat
deriving DecidableEq, Repr

namespace InlaySet

/-- No inlays. -/
def empty : InlaySet := ⟨[], 0⟩

instance : Inhabited InlaySet := ⟨empty⟩

/-- Add an inlay behind those at the same offset. It gets the next id. -/
def add (s : InlaySet) (offset height : Nat) (kind : InlayKind) : InlaySet :=
  ⟨insertAfter (·.offset ≤ offset) ⟨s.nextId, offset, height, kind⟩ s.inlays, s.nextId + 1⟩

/-- Remove the inlay with an id. No answer means that there is none. -/
def remove (s : InlaySet) (id : Nat) : Option InlaySet :=
  if s.inlays.any (·.id = id) then some { s with inlays := s.inlays.eraseP (·.id = id) }
  else none

/-- Remove every inlay. -/
def clear (s : InlaySet) : InlaySet := { s with inlays := [] }

/-- The inlays anchored at or after `start` and before `stop`: in an ordered list, what lies
between two stretches at its front. Either end is looked up without the other, so one that comes
before `start` has to be moved up to it. -/
def between (s : InlaySet) (start stop : Nat) : List Inlay :=
  let first := countWhile (·.offset < start) s.inlays
  let behind := max (countWhile (·.offset < stop) s.inlays) first
  (s.inlays.take behind).drop first

end InlaySet

/-! ### Changes as values -/

/-- A change to the inlays of a document. -/
inductive InlayEdit where
  | add (offset height : Nat) (kind : InlayKind)
  | remove (id : Nat)
  | clear
deriving DecidableEq, Repr

/-- What a change answers. -/
inductive InlayAnswer where
  /-- The change has nothing to report. -/
  | done
  /-- The inlay was added under this id. -/
  | added (id : Nat)
  /-- Whether there was an inlay to remove. -/
  | found (found : Bool)
deriving DecidableEq, Repr

namespace InlaySet

/-- Carry out a change to the inlays of a document. -/
def apply (s : InlaySet) : InlayEdit → InlayAnswer × InlaySet
  | .add offset height kind => (.added s.nextId, s.add offset height kind)
  | .remove id =>
    match s.remove id with
    | some t => (.found true, t)
    | none => (.found false, s)
  | .clear => (.done, s.clear)

end InlaySet

end RowLayout
