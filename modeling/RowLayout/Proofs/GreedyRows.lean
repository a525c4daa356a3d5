import RowLayout.Proofs.WordCuts

/-!
# Rows cut when they are full

Both ways to cut a line are greedy. A row takes characters until there is no room for the next one.
Then it is cut, in front of that character or behind an earlier blank, and what stands behind the
cut begins the next row. Characters that are carried over in this way are not looked at again: the
next row is watched from the character on at which the row above it was found full. So all that a
scan remembers is where its row begins, and from where on the row is watched.

The two ways differ in when a row counts as full, and in where a full row is cut. Taken as a rule
that says these two things, they can be compared row by row. If one rule finds a row full wherever
another one does, also where the other's row began later, and then does not cut behind the other's
cut, its points stay ahead of the other's points all along the line.

## Main definitions

* `RowRule` — when a row is full, and where a full row is cut
* `RowRule.FirstFull` — where a row is found full
* `RowRule.Rows` — the points of a line that is cut by a rule
* `RowRule.Stricter`, `StaysAhead` — comparing rules, and points
* `wordRule`, `charRule` — cutting after blanks, and between characters

## Main results

* `RowRule.Stricter.staysAhead` — the points of a stricter rule stay ahead
* `rows_wordPoints`, `rows_charPoints` — both scans cut a line by their rule
-/

namespace RowLayout

/-! ### Rules -/

/-- A rule by which the rows of a line are cut. -/
structure RowRule where
  /-- There is a character at the second index, but no room for it on a row that begins at the
  first. -/
  Full : Nat → Nat → Prop
  /-- A row that begins at the first index, and is full at the second, is cut at the third. -/
  CutsAt : Nat → Nat → Nat → Prop
  /-- A row that is cut keeps some characters. -/
  lt_of_cutsAt : ∀ {r n p : Nat}, r < n → CutsAt r n p → r < p

namespace RowRule

variable {rule other : RowRule} {r n p : Nat} {points : List Nat}

/-- A row that begins at `r`, and is watched from `n` on, is found full at `m`. The character that
it begins with stays on it, whether or not there is room. -/
structure FirstFull (rule : RowRule) (r n m : Nat) : Prop where
  le : n ≤ m
  lt : r < m
  full : rule.Full r m
  room : ∀ k, n ≤ k → r < k → k < m → ¬ rule.Full r k

/-- The points at which a line is cut by a rule from the row on that begins at the first index, and
is watched from the second on. -/
inductive Rows (rule : RowRule) : Nat → Nat → List Nat → Prop
  | last {r n : Nat} (hroom : ∀ m, n ≤ m → r < m → ¬ rule.Full r m) : Rows rule r n []
  | cut {r n m p : Nat} {points : List Nat} (hfirst : rule.FirstFull r n m)
      (hcut : rule.CutsAt r m p) (hrest : Rows rule p m points) : Rows rule r n (p :: points)

/-- Where there is room, a row can be watched from the next character on. -/
theorem Rows.of_room (hroom : r < n → ¬ rule.Full r n) (h : rule.Rows r (n + 1) points) :
    rule.Rows r n points := by
  cases h with
  | last hrest =>
    refine .last fun m hnm hrm => ?_
    rcases Nat.eq_or_lt_of_le hnm with rfl | hlt
    · exact hroom hrm
    · exact hrest m hlt hrm
  | cut hfirst hcut hrest =>
    refine .cut ⟨Nat.le_of_succ_le hfirst.le, hfirst.lt, hfirst.full, ?_⟩ hcut hrest
    intro k hnk hrk hkm
    rcases Nat.eq_or_lt_of_le hnk with rfl | hlt
    · exact hroom hrk
    · exact hfirst.room k hlt hrk hkm

theorem Rows.of_full (hrn : r < n) (hfull : rule.Full r n) (hcut : rule.CutsAt r n p)
    (h : rule.Rows p n points) : rule.Rows r n (p :: points) := by
  refine .cut ⟨Nat.le_refl n, hrn, hfull, ?_⟩ hcut h
  intro k hnk _ hkn
  exact absurd hkn (Nat.not_lt.mpr hnk)

end RowRule

/-! ### Staying ahead -/

/-- As far as the second list goes, each point of the first comes no later than the one of the same
number. -/
def StaysAhead (points others : List Nat) : Prop :=
  ∀ (k q : Nat), others[k]? = some q → ∃ p, points[k]? = some p ∧ p ≤ q

namespace StaysAhead

variable {p q : Nat} {points others : List Nat}

theorem nil (points : List Nat) : StaysAhead points [] := by
  intro k q hq
  simp at hq

theorem cons (hpq : p ≤ q) (h : StaysAhead points others) :
    StaysAhead (p :: points) (q :: others) := by
  intro k q' hq'
  cases k with
  | zero =>
    obtain rfl : q = q' := by simpa using hq'
    exact ⟨p, rfl, hpq⟩
  | succ k => exact h k q' (by simpa using hq')

/-- The list that stays ahead is no shorter. -/
theorem length_le (h : StaysAhead points others) : others.length ≤ points.length := by
  by_contra hshort
  have hlt : points.length < others.length := Nat.not_le.mp hshort
  obtain ⟨p, hp, -⟩ := h points.length _ (List.getElem?_eq_getElem hlt)
  simp at hp

end StaysAhead

namespace RowRule

variable {rule other : RowRule} {r r' n n' : Nat} {points others : List Nat}

/-- A rule is stricter than another one: it finds a row full wherever the other does, also if the
other's row began later, and does not cut behind the other's cut. The first rows of a line are not
compared with the rows behind them, which are indented. -/
structure Stricter (rule other : RowRule) : Prop where
  full : ∀ {r r' m : Nat}, r ≤ r' → (r = 0 ↔ r' = 0) → other.Full r' m → rule.Full r m
  cut : ∀ {r r' m m' p p' : Nat}, r ≤ r' → m ≤ m' → r' < p' →
    rule.CutsAt r m p → other.CutsAt r' m' p' → p ≤ p'

/-- **The points of a stricter rule stay ahead.** -/
theorem Stricter.staysAhead (hs : rule.Stricter other) (h : rule.Rows r n points)
    (h' : other.Rows r' n' others) (hr : r ≤ r') (hzero : r = 0 ↔ r' = 0) (hn : n ≤ n') :
    StaysAhead points others := by
  induction h' generalizing r n points with
  | last => exact .nil points
  | @cut r' n' m' p' others hfirst' hcut' _ ih =>
    have hfull : rule.Full r m' := hs.full hr hzero hfirst'.full
    have hnm : n ≤ m' := Nat.le_trans hn hfirst'.le
    have hrm : r < m' := Nat.lt_of_le_of_lt hr hfirst'.lt
    have hp' : r' < p' := other.lt_of_cutsAt hfirst'.lt hcut'
    cases h with
    | last hroom => exact absurd hfull (hroom m' hnm hrm)
    | @cut _ _ m p points hfirst hcut hrest =>
      have hm : m ≤ m' := by
        by_contra hlate
        exact hfirst.room m' hnm hrm (Nat.not_le.mp hlate) hfull
      have hp : r < p := rule.lt_of_cutsAt hfirst.lt hcut
      have hpp : p ≤ p' := hs.cut hr hm hp' hcut hcut'
      exact (ih hrest hpp (by omega) hm).cons hpp

end RowRule

/-! ### Cutting after blanks -/

variable {width indent tab r n : Nat} {text : List Char} {points : List Nat}

/-- A full row is cut behind its last blank, and in front of the character that has no room if it
has none. A row is full if the character would take it past the edge of the viewport. -/
def wordRule (width indent tab : Nat) (text : List Char) : RowRule where
  Full r n := n < text.length ∧ width < (Span.mk r (n + 1)).reach indent tab text
  CutsAt r n p := (AfterBlank text p ∧ r < p ∧ p ≤ n ∧ Unbroken text p n) ∨
    (p = n ∧ Unbroken text r n)
  lt_of_cutsAt := by
    rintro r n p hrn (⟨-, hrp, -⟩ | ⟨rfl, -⟩)
    · exact hrp
    · exact hrn

/-- What is cut in front of one character after the other is cut row by row. -/
theorem WordScan.CutFrom.rows (h : CutFrom width indent tab text r n points) (hrn : r ≤ n) :
    (wordRule width indent tab text).Rows r n points := by
  induction h with
  | done r => exact .last fun m hm _ hfull => absurd hfull.1 (Nat.not_lt.mpr hm)
  | @step r n r' c cuts points hc hcuts _ ih =>
    have hn : n < text.length := (List.getElem?_eq_some_iff.mp hc).1
    have hreach {i : Nat} (hi : i ≤ n) :
        (Span.mk i n).reach indent tab text + cellWidth tab (cellAt tab text n) c =
          (Span.mk i (n + 1)).reach indent tab text := Span.reach_add_width hi hc indent
    -- behind a cut, the row has room for the character, or begins with it
    have hroom {i : Nat} (hi : i ≤ n)
        (h : (Span.mk i n).reach indent tab text + cellWidth tab (cellAt tab text n) c ≤ width ∨
          n = i) : i < n → ¬ (wordRule width indent tab text).Full i n := by
      rintro hin ⟨-, hfull⟩
      rw [hreach hi] at h
      omega
    cases hcuts with
    | nowhere h => exact (ih (Nat.le_succ_of_le hrn)).of_room (hroom hrn h)
    | @afterBlank b hfull hrb hbn hb hword h =>
      rw [hreach hrn] at hfull
      have hrest := (ih (Nat.le_succ_of_le hbn)).of_room (hroom hbn h)
      exact .of_full (Nat.lt_of_lt_of_le hrb hbn) ⟨hn, hfull⟩ (.inl ⟨hb, hrb, hbn, hword⟩) hrest
    | @twice b hfull hrb hbn hb hword hagain =>
      rw [hreach hrn] at hfull
      rw [hreach (Nat.le_of_lt hbn)] at hagain
      have hrest := (ih (Nat.le_succ n)).of_room (hroom (Nat.le_refl n) (.inr rfl))
      refine .of_full (Nat.lt_trans hrb hbn) ⟨hn, hfull⟩
        (.inl ⟨hb, hrb, Nat.le_of_lt hbn, hword⟩) ?_
      exact .of_full hbn ⟨hn, hagain⟩ (.inr ⟨rfl, hword⟩) hrest
    | inWord hfull hlt hword =>
      rw [hreach hrn] at hfull
      have hrest := (ih (Nat.le_succ n)).of_room (hroom (Nat.le_refl n) (.inr rfl))
      exact .of_full hlt ⟨hn, hfull⟩ (.inr ⟨rfl, hword⟩) hrest

/-- **A line is cut after blanks by the rule for it.** -/
theorem rows_wordPoints (hindent : indent < width)
    (hcells : textWidth tab text + width ≤ maxCells) :
    (wordRule width indent tab text).Rows 0 0 (wordPoints width tab indent text) :=
  (WordScan.cutFrom_wordPoints hindent hcells).rows (Nat.le_refl 0)

/-! ### Cutting between characters -/

/-- A full row is cut in front of the character that has no room. A row is full if it reaches the
edge of the viewport, and also if the character would take it past the edge. But a row that keeps
to the indentation still takes the character: it would not have more room on the next row. -/
def charRule (width indent tab : Nat) (text : List Char) : RowRule where
  Full r n := n < text.length ∧ (width ≤ (Span.mk r n).reach indent tab text ∨
    indent < (Span.mk r n).reach indent tab text ∧
      width < (Span.mk r (n + 1)).reach indent tab text)
  CutsAt _ n p := p = n
  lt_of_cutsAt := by
    rintro r n p hrn rfl
    exact hrn

namespace CharScan

variable {c : Char} {s : CharScan}

/-- A scan of the line is at the index `n`, on a row that began at `r` and is not full. At the end
of the line it no longer matters how far the row reaches. A row never reaches further than the uncut
line does, as a cut only takes it back, so no sum of the scan carries if the line has none that
does. -/
structure IsAt (width indent tab : Nat) (text : List Char) (r n : Nat) (s : CharScan) : Prop where
  index : s.index = n
  cell : s.cell = cellAt tab text n
  row_le : r ≤ n
  used_le : s.used ≤ s.cell
  used : n < text.length → s.used = (Span.mk r n).reach indent tab text
  room : n < text.length → s.used < width

theorem isAt_start (hwidth : 0 < width) (indent tab : Nat) (text : List Char) :
    IsAt width indent tab text 0 0 start :=
  ⟨rfl, rfl, Nat.le_refl 0, Nat.le_refl 0, fun _ => by simp [start], fun _ => hwidth⟩

namespace IsAt

/-- A new row begins at the index. -/
theorem beginRow (h : IsAt width indent tab text r n s) (hindent : indent < width)
    (hused : indent < s.used) (hn : 0 < n) :
    IsAt width indent tab text n n { s with used := indent } := by
  refine ⟨h.index, h.cell, Nat.le_refl n, ?_, fun _ => ?_, fun _ => hindent⟩
  · exact Nat.le_trans (Nat.le_of_lt hused) h.used_le
  · simp [Nat.ne_of_gt hn]

/-- A cut in front of the character at the index is one by the rule. -/
theorem rows_cutBefore (h : IsAt width indent tab text r n s) (hindent : indent < width)
    (hsum : (cellWidths tab 0 text).sum ≤ maxCells) (hc : text[n]? = some c)
    (hrest : ∀ r',
      IsAt width indent tab text r' n (s.cutBefore width indent (cellWidth tab s.cell c)).2 →
        (charRule width indent tab text).Rows r' (n + 1) points) :
    (charRule width indent tab text).Rows r n
      ((s.cutBefore width indent (cellWidth tab s.cell c)).1 ++ points) := by
  have hn : n < text.length := (List.getElem?_eq_some_iff.mp hc).1
  have hused := h.used hn
  have hreach : s.used + cellWidth tab s.cell c =
      (Span.mk r (n + 1)).reach indent tab text := by
    rw [hused, h.cell]
    exact Span.reach_add_width h.row_le hc indent
  have hcarry : low64 (s.used + cellWidth tab s.cell c) = s.used + cellWidth tab s.cell c := by
    have hend := cellAt_add_width_le hsum hc
    rw [← h.cell] at hend
    have hmost := textWidth_le tab text
    have hle := h.used_le
    exact low64_of_le_maxCells (by omega)
  rw [cutBefore, hcarry] at hrest ⊢
  by_cases hcut : width < s.used + cellWidth tab s.cell c ∧ indent < s.used
  · rw [if_pos hcut] at hrest ⊢
    have hrn : r < n := by
      refine Nat.lt_of_le_of_ne h.row_le fun heq => ?_
      subst heq
      have hempty : s.used ≤ indent := by rw [hused]; exact Span.reach_self_le ..
      omega
    have hfull : (charRule width indent tab text).Full r n :=
      ⟨hn, .inr (by rw [← hused, ← hreach]; exact hcut.symm)⟩
    have hnext := hrest n (h.beginRow hindent hcut.2 (Nat.zero_lt_of_lt hrn))
    rw [h.index]
    exact .of_full hrn hfull rfl (hnext.of_room fun hlt => absurd hlt (Nat.lt_irrefl n))
  · rw [if_neg hcut] at hrest ⊢
    refine (hrest r h).of_room ?_
    rintro - ⟨-, hedge | hpast⟩
    · have hroom := h.room hn
      omega
    · rw [← hused, ← hreach] at hpast
      exact hcut hpast.symm

/-- The character at the index is put on the row. What the scan counts on the row stops at the
ceiling of cells. -/
theorem put (h : IsAt width indent tab text r n s) (hc : text[n]? = some c) :
    (s.put (cellWidth tab s.cell c)).index = n + 1 ∧
      (s.put (cellWidth tab s.cell c)).cell = cellAt tab text (n + 1) ∧
      (s.put (cellWidth tab s.cell c)).used ≤ (s.put (cellWidth tab s.cell c)).cell ∧
      (s.put (cellWidth tab s.cell c)).used =
        min ((Span.mk r (n + 1)).reach indent tab text) maxCells := by
  have hn : n < text.length := (List.getElem?_eq_some_iff.mp hc).1
  refine ⟨congrArg (· + 1) h.index, ?_, ?_, ?_⟩
  · rw [cellAt_succ hc, ← h.cell]
    rfl
  · have hle := h.used_le
    simp only [CharScan.put, addCells, cappedAdd]
    omega
  · rw [← Span.reach_add_width h.row_le hc indent, ← h.used hn, ← h.cell]
    rfl

/-- A cut behind the character at the index is one by the rule, if there are more. -/
theorem rows_cutAfter {more : Bool} (h : IsAt width indent tab text r n s)
    (hindent : indent < width) (hcells : width ≤ maxCells) (hc : text[n]? = some c)
    (hmore : more = true ↔ n + 1 < text.length)
    (hrest : ∀ r', IsAt width indent tab text r' (n + 1)
        ((s.put (cellWidth tab s.cell c)).cutAfter width indent more).2 →
      (charRule width indent tab text).Rows r' (n + 1) points) :
    (charRule width indent tab text).Rows r (n + 1)
      (((s.put (cellWidth tab s.cell c)).cutAfter width indent more).1 ++ points) := by
  obtain ⟨hindex, hcell, hle, hused⟩ := h.put hc
  generalize s.put (cellWidth tab s.cell c) = t at hindex hcell hle hused hrest ⊢
  have hrow : r < n + 1 := Nat.lt_succ_of_le h.row_le
  by_cases hcut : width ≤ t.used ∧ more = true
  · rw [cutAfter, if_pos hcut] at hrest ⊢
    have hmoreChars : n + 1 < text.length := hmore.mp hcut.2
    have hedge : width ≤ (Span.mk r (n + 1)).reach indent tab text := by omega
    rw [hindex]
    refine .of_full hrow ⟨hmoreChars, .inl hedge⟩ rfl (hrest (n + 1) ?_)
    have hindentLe : indent ≤ t.used := Nat.le_trans (Nat.le_of_lt hindent) hcut.1
    exact ⟨hindex, hcell, Nat.le_refl _, Nat.le_trans hindentLe hle, fun _ => by simp,
      fun _ => hindent⟩
  · rw [cutAfter, if_neg hcut] at hrest ⊢
    have hroom (hlt : n + 1 < text.length) : t.used < width :=
      Nat.not_le.mp fun hle => hcut ⟨hle, hmore.mpr hlt⟩
    refine hrest r ⟨hindex, hcell, Nat.le_of_lt hrow, hle, fun hlt => ?_, hroom⟩
    have hlt' : t.used < width := hroom hlt
    exact hused.trans (Nat.min_eq_left (by omega))

end IsAt

/-- The rest of a line is cut by the rule. -/
theorem rows_points (hindent : indent < width) (hcells : width ≤ maxCells)
    (hsum : (cellWidths tab 0 text).sum ≤ maxCells) {rest : List Char}
    (h : IsAt width indent tab text r n s) (hrest : text.drop n = rest) :
    (charRule width indent tab text).Rows r n (s.points width tab indent rest) := by
  induction rest generalizing r n s with
  | nil =>
    have hn : text.length ≤ n := List.drop_eq_nil_iff.mp hrest
    refine .last fun m hm _ hfull => ?_
    exact absurd hfull.1 (Nat.not_lt.mpr (Nat.le_trans hn hm))
  | cons c rest ih =>
    have hc : text[n]? = some c := by rw [← List.head?_drop, hrest]; rfl
    have hnext : text.drop (n + 1) = rest := by rw [← List.tail_drop, hrest]; rfl
    have hmore : (!rest.isEmpty) = true ↔ n + 1 < text.length := by
      rw [← hnext]
      simp
    rw [points, List.append_assoc]
    refine h.rows_cutBefore hindent hsum hc fun r' hbefore => ?_
    have hcell : s.cell = (s.cutBefore width indent (cellWidth tab s.cell c)).2.cell :=
      h.cell.trans hbefore.cell.symm
    have hafter := hbefore.rows_cutAfter hindent hcells hc hmore fun r'' hat => ih hat hnext
    rwa [← hcell] at hafter

end CharScan

/-- **A line is cut between characters by the rule for it.** -/
theorem rows_charPoints (hindent : indent < width) (hcells : width ≤ maxCells)
    (hsum : (cellWidths tab 0 text).sum ≤ maxCells) :
    (charRule width indent tab text).Rows 0 0 (charPoints width tab indent text) :=
  CharScan.rows_points hindent hcells hsum
    (CharScan.isAt_start (Nat.zero_lt_of_lt hindent) indent tab text) rfl

end RowLayout
