import RowLayout.Proofs.WrappedRows

/-!
# Cuts after blanks

A line is cut in front of a character that no longer fits on its row: behind the last blank of the
row if there is one, and what stood behind that blank is carried over to a row of its own. If the
character does not fit there either, the line is cut a second time, right in front of it.

The scan that makes these cuts remembers places, and compares cells that it has counted in the
uncut line. All of this can be said of the line alone: where the row began, how far it would reach
with the character, and behind which index there are no blanks. What is cut in front of one
character is one of four things, and what holds of the points of a line follows from these by an
induction on the characters that are still ahead.

## Main definitions

* `WordScan.CutBefore` — what is cut in front of one character
* `WordScan.CutFrom` — what is cut from a character on
* `WordScan.IsAt` — the states of a scan of the line

## Main results

* `WordScan.IsAt.cuts` — one step of the scan
* `WordScan.cutFrom_wordPoints` — the points of a line are cut in this way
-/

namespace RowLayout

variable {width indent tab w r n i j : Nat} {text : List Char}

/-! ### One character further -/

namespace WordScan

/-- What is cut in front of the character at index `n`, of `w` cells, where the row began at `r`:
the points, and the index at which the row begins then. -/
inductive CutBefore (width indent tab : Nat) (text : List Char) (w r n : Nat) :
    List Nat → Nat → Prop
  /-- The character fits, or the row is still empty. -/
  | nowhere (h : (Span.mk r n).reach indent tab text + w ≤ width ∨ n = r) :
      CutBefore width indent tab text w r n [] r
  /-- The row is cut behind its last blank, and the character fits on the new row. -/
  | afterBlank {b : Nat} (hfull : width < (Span.mk r n).reach indent tab text + w) (hrb : r < b)
      (hbn : b ≤ n) (hb : AfterBlank text b) (hword : Unbroken text b n)
      (h : (Span.mk b n).reach indent tab text + w ≤ width ∨ n = b) :
      CutBefore width indent tab text w r n [b] b
  /-- The row is cut behind its last blank, and the new row in front of the character. -/
  | twice {b : Nat} (hfull : width < (Span.mk r n).reach indent tab text + w) (hrb : r < b)
      (hbn : b < n) (hb : AfterBlank text b) (hword : Unbroken text b n)
      (hagain : width < (Span.mk b n).reach indent tab text + w) :
      CutBefore width indent tab text w r n [b, n] n
  /-- The row has no blank and is cut in front of the character. -/
  | inWord (hfull : width < (Span.mk r n).reach indent tab text + w) (hrn : r < n)
      (hword : Unbroken text r n) : CutBefore width indent tab text w r n [n] n

/-- The points at which a line is cut from the character at index `n` on, where the row began
at `r`. -/
inductive CutFrom (width indent tab : Nat) (text : List Char) : Nat → Nat → List Nat → Prop
  | done (r : Nat) : CutFrom width indent tab text r text.length []
  | step {r n r' : Nat} {c : Char} {cuts points : List Nat} (hc : text[n]? = some c)
      (hcuts : CutBefore width indent tab text (cellWidth tab (cellAt tab text n) c) r n cuts r')
      (hpoints : CutFrom width indent tab text r' (n + 1) points) :
      CutFrom width indent tab text r n (cuts ++ points)

/-! ### The states of a scan -/

/-- The place of the character at an index. -/
def placeAt (tab : Nat) (text : List Char) (i : Nat) : Place := ⟨i, cellAt tab text i⟩

/-- The place behind the last blank from an index up to another, if there is one. -/
inductive LastBlank (tab : Nat) (text : List Char) (i j : Nat) : Option Place → Prop
  | missing (hword : Unbroken text i j) : LastBlank tab text i j none
  | found {b : Nat} (hib : i < b) (hbj : b ≤ j) (hb : AfterBlank text b)
      (hword : Unbroken text b j) : LastBlank tab text i j (some (placeAt tab text b))

theorem LastBlank.succ {place? : Option Place} {c : Char} (h : LastBlank tab text i j place?)
    (hc : text[j]? = some c) (hblank : isBlank c = false) :
    LastBlank tab text i (j + 1) place? := by
  cases h with
  | missing hword => exact .missing (hword.succ hc hblank)
  | found hib hbj hb hword => exact .found hib (Nat.le_succ_of_le hbj) hb (hword.succ hc hblank)

/-- A scan of the line is at the index `n`, on a row that began at `r`. -/
structure IsAt (tab : Nat) (text : List Char) (r n : Nat) (s : WordScan) : Prop where
  here : s.here = placeAt tab text n
  row : s.row = placeAt tab text r
  row_le : r ≤ n
  blank : LastBlank tab text r n s.blank

/-- The row of a scan begins at a place. -/
def beginAt (place : Place) (s : WordScan) : WordScan := { s with row := place, blank := none }

/-- The points at which a scan cuts in front of a character, and the scan that puts it on a
row. -/
def cuts (width indent w : Nat) (s : WordScan) : List Nat × WordScan :=
  let first := s.cutAtBlank width indent w
  let second := first.2.cutHere width indent w
  (first.1 ++ second.1, second.2)

theorem points_cons (width tab indent : Nat) (c : Char) (rest : List Char) (s : WordScan) :
    s.points width tab indent (c :: rest) =
      (s.cuts width indent (cellWidth tab s.here.cell c)).1 ++
        ((s.cuts width indent (cellWidth tab s.here.cell c)).2.put c
          (cellWidth tab s.here.cell c)).points width tab indent rest := rfl

theorem cuts_of_fits {s : WordScan} (hfits : s.fits width indent w = true) :
    s.cuts width indent w = ([], s) := by
  have hfirst : s.cutAtBlank width indent w = ([], s) := by
    rw [cutAtBlank]
    split <;> simp [hfits]
  have hsecond : s.cutHere width indent w = ([], s) := by
    simp [cutHere, hfits]
  simp only [cuts, hfirst, hsecond, List.append_nil]

theorem cuts_of_blank {s : WordScan} {place : Place} (hblank : s.blank = some place)
    (hfull : ¬ s.fits width indent w = true) (hrow : s.row.index < place.index) :
    s.cuts width indent w =
      (place.index :: ((s.beginAt place).cutHere width indent w).1,
        ((s.beginAt place).cutHere width indent w).2) := by
  have hfirst : s.cutAtBlank width indent w = ([place.index], s.beginAt place) := by
    simp only [cutAtBlank, hblank, if_pos (And.intro hfull hrow)]
    rfl
  simp only [cuts, hfirst, List.singleton_append]

theorem cuts_of_word {s : WordScan} (hblank : s.blank = none) :
    s.cuts width indent w = s.cutHere width indent w := by
  simp only [cuts, cutAtBlank, hblank, List.nil_append]

theorem isAt_start (tab : Nat) (text : List Char) : IsAt tab text 0 0 start :=
  ⟨rfl, rfl, Nat.le_refl 0, .missing (Unbroken.refl text 0)⟩

namespace IsAt

variable {s : WordScan}

theorem beginAt (h : IsAt tab text r n s) (hin : i ≤ n) (hword : Unbroken text i n) :
    IsAt tab text i n (s.beginAt (placeAt tab text i)) :=
  ⟨h.here, rfl, hin, .missing hword⟩

/-- What fits on the row of a scan is what fits behind the row so far, if no sum carries. -/
theorem fits_iff (hindent : indent < width) (hcells : textWidth tab text + width ≤ maxCells)
    (h : IsAt tab text r n s) (hw : cellAt tab text n + w ≤ textWidth tab text) :
    s.fits width indent w = true ↔ (Span.mk r n).reach indent tab text + w ≤ width := by
  have hbelow : textWidth tab text < maxCells := by omega
  have hsum := cellAt_add_cells hbelow h.row_le
  have hcell : s.here.cell - s.row.cell = (Span.mk r n).cells tab text := by
    rw [h.here, h.row]
    simp only [placeAt]
    omega
  have hindented : s.indented indent = (Span.mk r n).indented indent := by
    rw [WordScan.indented, h.row]
    rfl
  have hle := Span.indented_le indent ⟨r, n⟩
  rw [fits, decide_eq_true_iff, hcell, hindented, Span.reach, Nat.add_comm (Span.cells ..),
    low64_of_le_maxCells (by omega)]

/-- A row without a blank is cut in front of a character that does not fit, unless it is
empty. -/
theorem cutHere (hindent : indent < width) (hcells : textWidth tab text + width ≤ maxCells)
    (h : IsAt tab text r n s) (hw : cellAt tab text n + w ≤ textWidth tab text) :
    ((Span.mk r n).reach indent tab text + w ≤ width ∨ n = r) ∧
        s.cutHere width indent w = ([], s) ∨
      width < (Span.mk r n).reach indent tab text + w ∧ r < n ∧
        s.cutHere width indent w = ([n], s.beginAt (placeAt tab text n)) := by
  have hfits := h.fits_iff hindent hcells hw
  have hrow : s.row.index = r := by rw [h.row]; rfl
  have hhere : s.here.index = n := by rw [h.here]; rfl
  by_cases hcut : ¬ s.fits width indent w = true ∧ s.row.index < s.here.index
  · refine .inr ⟨Nat.not_le.mp (hfits.not.mp hcut.1), hrow ▸ hhere ▸ hcut.2, ?_⟩
    rw [WordScan.cutHere, if_pos hcut, ← h.here, ← hhere]
    rfl
  · refine .inl ⟨?_, by rw [WordScan.cutHere, if_neg hcut]⟩
    have := h.row_le
    rw [hfits, hrow, hhere] at hcut
    omega

/-- **A scan cuts the line as said of the line alone.** -/
theorem cuts (hindent : indent < width) (hcells : textWidth tab text + width ≤ maxCells)
    (h : IsAt tab text r n s) (hw : cellAt tab text n + w ≤ textWidth tab text) :
    ∃ r', CutBefore width indent tab text w r n (s.cuts width indent w).1 r' ∧
      IsAt tab text r' n (s.cuts width indent w).2 := by
  have hfits := h.fits_iff hindent hcells hw
  by_cases hfit : s.fits width indent w = true
  · rw [cuts_of_fits hfit]
    exact ⟨r, .nowhere (.inl (hfits.mp hfit)), h⟩
  have hfull := Nat.not_le.mp (hfits.not.mp hfit)
  have hblank := h.blank
  cases hs : s.blank with
  | none =>
    obtain hword : Unbroken text r n := by rw [hs] at hblank; cases hblank; assumption
    rw [cuts_of_word hs]
    rcases h.cutHere hindent hcells hw with ⟨hroom, hcut⟩ | ⟨-, hrn, hcut⟩
    · rw [hcut]
      exact ⟨r, .nowhere hroom, h⟩
    · rw [hcut]
      exact ⟨n, .inWord hfull hrn hword, h.beginAt (Nat.le_refl n) (Unbroken.refl text n)⟩
  | some place =>
    rw [hs] at hblank
    cases hblank with
    | found hrb hbn hb hword =>
      have hcarried := h.beginAt hbn hword
      rw [cuts_of_blank hs hfit (by rw [h.row]; exact hrb)]
      rcases hcarried.cutHere hindent hcells hw with ⟨hroom, hcut⟩ | ⟨hagain, hlt, hcut⟩
      · rw [hcut]
        exact ⟨_, .afterBlank hfull hrb hbn hb hword hroom, hcarried⟩
      · rw [hcut]
        exact ⟨n, .twice hfull hrb hlt hb hword hagain,
          hcarried.beginAt (Nat.le_refl n) (Unbroken.refl text n)⟩

/-- The character at the index is put on the row. -/
theorem put {c : Char} (h : IsAt tab text r n s) (hc : text[n]? = some c) :
    IsAt tab text r (n + 1) (s.put c (cellWidth tab (cellAt tab text n) c)) := by
  have hhere : (⟨s.here.index + 1, addCells s.here.cell (cellWidth tab (cellAt tab text n) c)⟩ :
      Place) = placeAt tab text (n + 1) := by
    rw [h.here, placeAt, placeAt, cellAt_succ hc]
  refine ⟨hhere, h.row, Nat.le_succ_of_le h.row_le, ?_⟩
  simp only [WordScan.put, hhere]
  split
  · next hblank =>
    exact .found (Nat.lt_succ_of_le h.row_le) (Nat.le_refl _) ⟨n, c, rfl, hc, hblank⟩
      (Unbroken.refl text _)
  · next hblank => exact h.blank.succ hc (Bool.eq_false_iff.mpr hblank)

end IsAt

/-- **The rest of a line is cut as said of the line alone.** -/
theorem cutFrom_points (hindent : indent < width) (hcells : textWidth tab text + width ≤ maxCells)
    {rest : List Char} {s : WordScan} (h : IsAt tab text r n s) (hn : n ≤ text.length)
    (hrest : text.drop n = rest) :
    CutFrom width indent tab text r n (s.points width tab indent rest) := by
  induction rest generalizing r n s with
  | nil =>
    obtain rfl : n = text.length := Nat.le_antisymm hn (List.drop_eq_nil_iff.mp hrest)
    exact .done r
  | cons c rest ih =>
    have hc : text[n]? = some c := by rw [← List.head?_drop, hrest]; rfl
    have hnext : text.drop (n + 1) = rest := by rw [← List.tail_drop, hrest]; rfl
    have hcell : s.here.cell = cellAt tab text n := by rw [h.here]; rfl
    have hw : cellAt tab text n + cellWidth tab (cellAt tab text n) c ≤ textWidth tab text :=
      cellAt_add_width_le (sum_cellWidths_le (by omega)) hc
    obtain ⟨r', hcuts, hat⟩ := h.cuts hindent hcells hw
    rw [points_cons, hcell]
    exact .step hc hcuts (ih (hat.put hc) (List.getElem?_eq_some_iff.mp hc).1 hnext)

/-- **The points of a line are cut as said of the line alone.** -/
theorem cutFrom_wordPoints (hindent : indent < width)
    (hcells : textWidth tab text + width ≤ maxCells) :
    CutFrom width indent tab text 0 0 (wordPoints width tab indent text) :=
  cutFrom_points hindent hcells (isAt_start tab text) (Nat.zero_le _) rfl

end WordScan

end RowLayout
