import RowLayout.Proofs.LineStarts

/-!
# What lines show

A line covers a stretch of the text in two parts: first what it shows, and behind that, unless it
is the last line, one line break. Where a line starts and stops can therefore be read off the text
in front of it, and the text between the stop of a line and the start of the next is the line
break and nothing else.

## Main definitions

* `Document.between` — the characters from one offset up to another
* `Document.InContent` — an offset lies in what a line shows, or at its end

## Main results

* `Document.text_split` — a line with the text around it
* `Document.lineStart_succ` — a line starts behind the line break of the one before
* `Document.isLineEnding_between` — one line break stands between two lines
* `Document.InContent.le_lineStop` — an offset in a line comes before the stop of any line that is
  the last to start in front of a later place
-/

namespace RowLayout

/-- The span of a line starts behind the characters of the lines before it. -/
theorem getElem?_spansFrom (start : Nat) (lines : List Line) (l : Nat) :
    (spansFrom start lines)[l]? = lines[l]?.map fun line =>
      ⟨start + ((lines.take l).flatMap Line.chars).length,
        start + ((lines.take l).flatMap Line.chars).length + line.text.length⟩ := by
  induction lines generalizing start l with
  | nil => simp [spansFrom]
  | cons first rest ih =>
    cases l with
    | zero => simp [spansFrom]
    | succ l =>
      have hlength : first.text.length + first.ending.length = first.chars.length := by
        simp [Line.chars]
      rw [spansFrom, List.getElem?_cons_succ, List.getElem?_cons_succ, ih, List.take_succ_cons,
        List.flatMap_cons, List.length_append, Nat.add_assoc start, hlength]
      simp only [Nat.add_assoc]

namespace Document

variable {d : Document} {l m o : Nat} {line : Line}

/-- The characters of the text from one offset up to another. -/
def between (d : Document) (start stop : Nat) : List Char :=
  (d.text.drop start).take (stop - start)

theorem lineCount_eq (d : Document) : d.lineCount = d.lines.length := by
  rw [lineCount, d.spans_eq, length_spansFrom]

theorem getElem?_lines (h : l < d.lineCount) : ∃ line, d.lines[l]? = some line :=
  ⟨_, List.getElem?_eq_getElem (d.lineCount_eq ▸ h)⟩

theorem getElem?_spans (h : d.lines[l]? = some line) :
    d.spans[l]? = some ⟨d.lineStart l, d.lineStop l⟩ := by
  have hlt : l < d.spans.length := by
    rw [← lineCount, lineCount_eq]
    exact (List.getElem?_eq_some_iff.mp h).1
  have hspan : d.spans[l]? = some d.spans[l] := List.getElem?_eq_getElem hlt
  simp [lineStart, lineStop, hspan]

/-- A line starts behind the characters of the lines before it, and stops behind what it shows. -/
theorem lineStart_eq (h : d.lines[l]? = some line) :
    d.lineStart l = ((d.lines.take l).flatMap Line.chars).length ∧
      d.lineStop l = d.lineStart l + line.text.length := by
  have hspan := getElem?_spans h
  rw [d.spans_eq, getElem?_spansFrom, h, Option.map_some, Option.some.injEq, Span.mk.injEq,
    Nat.zero_add] at hspan
  obtain ⟨hstart, hstop⟩ := hspan
  exact ⟨hstart.symm, by rw [← hstop, ← hstart]⟩

/-- A line starts behind the characters of all lines before it, and so does the end of the text. -/
theorem lineStart_eq_length_take (d : Document) (l : Nat) :
    d.lineStart l = ((d.lines.take l).flatMap Line.chars).length := by
  rcases Nat.lt_or_ge l d.lineCount with hl | hl
  · obtain ⟨line, hline⟩ := getElem?_lines hl
    exact (lineStart_eq hline).1
  · have hpast : d.spans[l]? = none := List.getElem?_eq_none hl
    rw [List.take_of_length_le (d.lineCount_eq ▸ hl), d.lines_eq, flatten_splitLines, ← d.length_eq,
      lineStart, hpast]

/-- **A line with the text around it.** -/
theorem text_split (h : d.lines[l]? = some line) :
    ∃ before after, d.text = before ++ (line.text ++ (line.ending ++ after)) ∧
      before.length = d.lineStart l ∧ d.lineStop l = d.lineStart l + line.text.length := by
  obtain ⟨hstart, hstop⟩ := lineStart_eq h
  obtain ⟨hlt, rfl⟩ := List.getElem?_eq_some_iff.mp h
  refine ⟨(d.lines.take l).flatMap Line.chars, (d.lines.drop (l + 1)).flatMap Line.chars, ?_,
    hstart.symm, hstop⟩
  have htext : d.lines.flatMap Line.chars = d.text := by rw [d.lines_eq, flatten_splitLines]
  have hlines : d.lines = d.lines.take l ++ d.lines[l] :: d.lines.drop (l + 1) := by
    rw [← List.drop_eq_getElem_cons hlt, List.take_append_drop]
  calc d.text = d.lines.flatMap Line.chars := htext.symm
    _ = (d.lines.take l ++ d.lines[l] :: d.lines.drop (l + 1)).flatMap Line.chars := by
        rw [← hlines]
    _ = _ := by rw [List.flatMap_append, List.flatMap_cons, Line.chars, List.append_assoc]

theorem lineStart_le_lineStop (h : l < d.lineCount) : d.lineStart l ≤ d.lineStop l := by
  obtain ⟨line, hline⟩ := getElem?_lines h
  have := (lineStart_eq hline).2
  omega

theorem lineStop_le_length (h : l < d.lineCount) : d.lineStop l ≤ d.length := by
  obtain ⟨line, hline⟩ := getElem?_lines h
  obtain ⟨before, after, htext, hbefore, hstop⟩ := text_split hline
  rw [d.length_eq, htext, List.length_append, List.length_append]
  omega

/-- What comes behind a line, if anything does, starts behind its line break. -/
theorem lineStart_succ (hline : d.lines[l]? = some line) :
    d.lineStart (l + 1) = d.lineStop l + line.ending.length := by
  obtain ⟨hstart, hstop⟩ := lineStart_eq hline
  rw [lineStart_eq_length_take, hstop, hstart, List.take_add_one, hline]
  simp [Line.chars, Nat.add_assoc]

/-- The line break of a line is what stands between its stop and the next start. -/
theorem between_eq_ending (hline : d.lines[l]? = some line) :
    d.between (d.lineStop l) (d.lineStart (l + 1)) = line.ending := by
  obtain ⟨before, after, htext, hbefore, hstop⟩ := text_split hline
  have hfront : (before ++ line.text).length = d.lineStop l := by
    rw [List.length_append, hbefore, hstop]
  rw [between, lineStart_succ hline, Nat.add_sub_cancel_left, htext, ← List.append_assoc, ← hfront,
    List.drop_left, List.take_left]

theorem isLineEnding_ending (h : l + 1 < d.lineCount) (hline : d.lines[l]? = some line) :
    IsLineEnding line.ending := by
  have hchain := isChain_splitLines d.text
  rw [← d.lines_eq, List.isChain_iff_getElem] at hchain
  obtain ⟨hlt, rfl⟩ := List.getElem?_eq_some_iff.mp hline
  exact hchain l (d.lineCount_eq ▸ h)

/-- **One line break stands between a line and the next.** -/
theorem isLineEnding_between (h : l + 1 < d.lineCount) :
    d.lineStop l < d.lineStart (l + 1) ∧
      IsLineEnding (d.between (d.lineStop l) (d.lineStart (l + 1))) := by
  obtain ⟨line, hline⟩ := getElem?_lines (Nat.lt_of_succ_lt h)
  have hending := isLineEnding_ending h hline
  have hnext := lineStart_succ hline
  have hpos := List.length_pos_iff.mpr hending.ne_nil
  exact ⟨by omega, (between_eq_ending hline).symm ▸ hending⟩

/-! ### Offsets and lines -/

theorem lineStart_lt (hml : m < l) (h : l < d.lineCount) : d.lineStart m < d.lineStart l :=
  pairwise_iff_getElem?.mp d.pairwise_starts m l _ _ hml (getElem?_starts (hml.trans h))
    (getElem?_starts h)

theorem lineStart_le (hml : m ≤ l) (h : l < d.lineCount) : d.lineStart m ≤ d.lineStart l := by
  rcases Nat.eq_or_lt_of_le hml with rfl | hlt
  · exact Nat.le_refl _
  · exact (lineStart_lt hlt h).le

/-- Later lines stop later. -/
theorem lineStop_le (hml : m ≤ l) (h : l < d.lineCount) : d.lineStop m ≤ d.lineStop l := by
  rcases Nat.eq_or_lt_of_le hml with rfl | hlt
  · exact Nat.le_refl _
  · calc d.lineStop m ≤ d.lineStart (m + 1) := (isLineEnding_between (by omega)).1.le
      _ ≤ d.lineStart l := lineStart_le hlt h
      _ ≤ d.lineStop l := lineStart_le_lineStop h

/-- A line is looked up by its start. -/
theorem lineOf_lineStart (h : l < d.lineCount) : d.lineOf (d.lineStart l) = l :=
  lineOf_eq ⟨h, Nat.le_refl _, fun _ hs => lt_of_mem_startsAfter h hs⟩

/-- The offset lies in what a line shows, or at its end. -/
structure InContent (d : Document) (l o : Nat) : Prop where
  line_lt : l < d.lineCount
  start_le : d.lineStart l ≤ o
  le_stop : o ≤ d.lineStop l

theorem inContent_lineStart (h : l < d.lineCount) : d.InContent l (d.lineStart l) :=
  ⟨h, Nat.le_refl _, lineStart_le_lineStop h⟩

theorem InContent.le_length (h : d.InContent l o) : o ≤ d.length :=
  h.le_stop.trans (lineStop_le_length h.line_lt)

/-- The starts ahead of a line are those of the next line and of later ones. -/
theorem startsAfter_bounds (h : l < d.lineCount) {s : Nat} (hs : s ∈ d.startsAfter l) :
    l + 1 < d.lineCount ∧ d.lineStart (l + 1) ≤ s := by
  obtain ⟨m, hm, rfl⟩ := mem_starts.mp (List.mem_of_mem_drop (d.startsAfter_eq_drop l ▸ hs))
  have hlm : l < m := by
    by_contra hml
    have := lineStart_le (Nat.le_of_not_lt hml) h
    have := lt_of_mem_startsAfter h hs
    omega
  exact ⟨by omega, lineStart_le hlm hm⟩

/-- A line holds what it shows. -/
theorem InContent.onLine (h : d.InContent l o) : d.OnLine l o := by
  refine ⟨h.line_lt, h.start_le, fun s hs => ?_⟩
  obtain ⟨hl, hle⟩ := startsAfter_bounds h.line_lt hs
  calc o ≤ d.lineStop l := h.le_stop
    _ < d.lineStart (l + 1) := (isLineEnding_between hl).1
    _ ≤ s := hle

/-- An offset in front of a line, but not in a line break, comes before the stop of the line
before. -/
theorem InContent.le_lineStop (h : d.InContent m o) (hl : l + 1 < d.lineCount)
    (ho : o < d.lineStart (l + 1)) : o ≤ d.lineStop l := by
  have hml : m ≤ l := by
    by_contra hlt
    have hstart : d.lineStart (l + 1) ≤ d.lineStart m := lineStart_le (by omega) h.line_lt
    have := h.start_le
    omega
  exact h.le_stop.trans (lineStop_le hml (Nat.lt_of_succ_lt hl))

end Document

end RowLayout
