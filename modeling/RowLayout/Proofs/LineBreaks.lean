import RowLayout.Proofs.LineContents

/-!
# Lines tile the text

A text is cut at its line breaks and nowhere else: no line shows a character that breaks lines, one
break stands between a line and the next, and a carriage return that is a break of its own has no
line feed behind it. This decides the whole cut, and so where lines start and stop, what they show
and on which line an offset lies all follow from the same list of lines.

The length of the break at the end of a line can also be found again from the last two characters
of the line alone. A line feed there might seem to belong to a carriage return that is still part
of what the line shows; but nothing that a line shows breaks lines.

## Main definitions

* `WellCut` — lines as they are cut out of a text
* `breakLength` — the length of the line break at the end of some characters

## Main results

* `wellCut_splitLines` — the lines of a text are well cut
* `breakLength_chars` — the last two characters of a line tell how long its break is
* `Document.lineOf_eq_iff` — the offsets that lie on a line
* `Document.lines_tile_text` — the lines of a document and the places between them
-/

namespace RowLayout

/-! ### Well-cut lines -/

/-- None of the characters that the line shows breaks lines. -/
def Line.Plain (l : Line) : Prop := ∀ c ∈ l.text, isLineBreak c = false

/-- Lines as they are cut out of a text: none of them shows a character that breaks lines, one whole
break stands behind each of them but the last, and none behind that. -/
inductive WellCut : List Line → Prop
  | last {text : List Char} (hplain : Line.Plain ⟨text, []⟩) : WellCut [⟨text, []⟩]
  | cons {l next : Line} {rest : List Line} (hplain : l.Plain) (hending : IsLineEnding l.ending)
    (hwhole : l.ending = ['\r'] → next.isLoneLineFeed = false) (hrest : WellCut (next :: rest)) :
    WellCut (l :: next :: rest)

theorem Line.plain_nil (ending : List Char) : Line.Plain ⟨[], ending⟩ := by simp [Plain]

theorem Line.Plain.cons {l : Line} {c : Char} (h : l.Plain) (hc : isLineBreak c = false)
    (ending : List Char) : Line.Plain ⟨c :: l.text, ending⟩ := by
  intro d hd
  rcases List.mem_cons.mp hd with rfl | hd
  · exact hc
  · exact h d hd

/-- One more character in front leaves lines well cut. -/
theorem wellCut_consChar (c : Char) {lines : List Line} (h : WellCut lines) :
    WellCut (consChar c lines) := by
  cases h with
  | last hplain =>
    simp only [consChar, Line.isLoneLineFeed]
    split
    · next hjoin => simp at hjoin
    · split
      · next hbreak =>
        exact .cons (Line.plain_nil _) (Or.inr ⟨c, hbreak, rfl⟩) (fun _ => by
          simp [Line.isLoneLineFeed]) (.last hplain)
      · next hbreak => exact .last (hplain.cons (by simpa using hbreak) [])
  | @cons l next rest hplain hending hwhole hrest =>
    simp only [consChar]
    split
    · next hjoin =>
      obtain ⟨hc, -⟩ := (Bool.and_eq_true _ _).mp hjoin
      obtain rfl : c = '\r' := by simpa using hc
      exact .cons (Line.plain_nil _) (Or.inl rfl) (fun h => absurd h (by decide)) hrest
    · next hjoin =>
      split
      · next hbreak =>
        -- a carriage return is a break of its own only where no line feed follows
        refine .cons (Line.plain_nil _) (Or.inr ⟨c, hbreak, rfl⟩) (fun h => ?_)
          (.cons hplain hending hwhole hrest)
        obtain rfl : c = '\r' := by simpa using h
        simpa using hjoin
      · next hbreak => exact .cons (hplain.cons (by simpa using hbreak) _) hending hwhole hrest

/-- **The lines of a text are well cut.** -/
theorem wellCut_splitLines (text : List Char) : WellCut (splitLines text) := by
  induction text with
  | nil => exact .last (Line.plain_nil [])
  | cons c text ih => exact wellCut_consChar c ih

namespace WellCut

variable {lines : List Line} {l next : Line} {n : Nat}

theorem plain (h : WellCut lines) (hl : lines[n]? = some l) : l.Plain := by
  induction h generalizing n with
  | last hplain =>
    cases n with
    | zero => exact Option.some.inj hl ▸ hplain
    | succ n => simp at hl
  | cons hplain _ _ _ ih =>
    cases n with
    | zero => exact Option.some.inj hl ▸ hplain
    | succ n => exact ih hl

/-- The last line is not ended. -/
theorem ending_of_last (h : WellCut lines) (hl : lines[n]? = some l)
    (hlast : lines[n + 1]? = none) : l.ending = [] := by
  induction h generalizing n with
  | last hplain =>
    cases n with
    | zero => rw [← Option.some.inj hl]
    | succ n => simp at hl
  | cons _ _ _ _ ih =>
    cases n with
    | zero => simp at hlast
    | succ n => exact ih hl hlast

theorem whole (h : WellCut lines) (hl : lines[n]? = some l) (hnext : lines[n + 1]? = some next)
    (hreturn : l.ending = ['\r']) : next.isLoneLineFeed = false := by
  induction h generalizing n with
  | last hplain => simp at hnext
  | cons _ _ hwhole _ ih =>
    cases n with
    | zero =>
      obtain rfl := Option.some.inj hl
      obtain rfl := Option.some.inj hnext
      exact hwhole hreturn
    | succ n => exact ih hl hnext

end WellCut

/-! ### Line breaks found again -/

/-- The length of the line break at the end of some characters, as the last two of them tell it. -/
def breakLength (chars : List Char) : Nat :=
  match chars.reverse with
  | '\n' :: '\r' :: _ => 2
  | c :: _ => if isLineBreak c then 1 else 0
  | [] => 0

/-- Behind characters that break no lines the break is found again whatever it is. -/
theorem breakLength_chars {l : Line} (hplain : l.Plain)
    (hending : l.ending = [] ∨ IsLineEnding l.ending) :
    breakLength l.chars = l.ending.length := by
  have hlast : ∀ c ∈ l.text.reverse.head?, isLineBreak c = false := fun c hc =>
    hplain c (List.mem_reverse.mp (List.mem_of_mem_head? hc))
  rw [breakLength, Line.chars, List.reverse_append]
  rcases hending with hnil | hreturn | ⟨c, hc, hone⟩
  · rw [hnil, List.reverse_nil, List.nil_append]
    split
    · next hfeed =>
      rw [hfeed] at hlast
      exact absurd (hlast '\n' rfl) (by decide)
    · next c rest _ hcons =>
      rw [hcons] at hlast
      simp [hlast c rfl]
    · rfl
  · rw [hreturn]
    rfl
  · rw [hone, List.reverse_singleton, List.singleton_append]
    split
    · next hfeed =>
      obtain ⟨-, hrest⟩ := List.cons.inj hfeed
      rw [hrest] at hlast
      exact absurd (hlast '\r' rfl) (by decide)
    · next hcons =>
      obtain ⟨rfl, -⟩ := List.cons.inj hcons
      simp [hc]
    · next hnil => cases hnil

/-- A line that is not a lone line feed does not begin with one. -/
theorem head?_chars_ne {l : Line} (hplain : l.Plain)
    (hending : l.ending = [] ∨ IsLineEnding l.ending) (hlone : l.isLoneLineFeed = false) :
    l.chars.head? ≠ some '\n' := by
  obtain ⟨text, ending⟩ := l
  intro hhead
  cases text with
  | cons c text =>
    obtain rfl : c = '\n' := Option.some.inj hhead
    exact absurd (hplain '\n' List.mem_cons_self) (by decide)
  | nil =>
    rcases hending with rfl | rfl | ⟨c, -, rfl⟩
    · cases hhead
    · exact absurd hhead (by decide)
    · obtain rfl : c = '\n' := Option.some.inj hhead
      exact absurd hlone (by decide)

/-! ### Documents -/

namespace Document

variable {d : Document} {l m o : Nat} {line : Line}

theorem wellCut (d : Document) : WellCut d.lines := d.lines_eq ▸ wellCut_splitLines d.text

theorem lineText_eq (hline : d.lines[l]? = some line) : d.lineText l = some line.text := by
  rw [lineText, hline, Option.map_some]

/-- Only the last line may be without a line break. -/
theorem ending_cases (hline : d.lines[l]? = some line) :
    line.ending = [] ∨ IsLineEnding line.ending := by
  rcases Nat.lt_or_ge (l + 1) d.lineCount with hl | hl
  · exact Or.inr (isLineEnding_ending hl hline)
  · exact Or.inl (d.wellCut.ending_of_last hline (List.getElem?_eq_none (d.lineCount_eq ▸ hl)))

/-- Past the last line there is only the end of the text. -/
theorem line_of_le (h : d.lineCount ≤ l) :
    d.lineStart l = d.length ∧ d.lineStop l = d.length ∧ d.lineText l = none := by
  have hspan : d.spans[l]? = none := List.getElem?_eq_none h
  have hline : d.lines[l]? = none := List.getElem?_eq_none (d.lineCount_eq ▸ h)
  simp [lineStart, lineStop, lineText, hspan, hline]

/-- The last line stops at the end of the text. -/
theorem lineStop_last (h : l + 1 = d.lineCount) : d.lineStop l = d.length := by
  obtain ⟨line, hline⟩ := getElem?_lines (d := d) (l := l) (by omega)
  have hnone : d.lines[l + 1]? = none := List.getElem?_eq_none (by rw [h, lineCount_eq])
  have hnext := lineStart_succ hline
  rw [d.wellCut.ending_of_last hline hnone, (line_of_le (l := l + 1) h.ge).1] at hnext
  simpa using hnext.symm

/-- **The characters of a line,** its break included, stand between its start and the next one. -/
theorem between_eq_chars (hline : d.lines[l]? = some line) :
    d.between (d.lineStart l) (d.lineStart (l + 1)) = line.chars := by
  obtain ⟨before, after, htext, hbefore, hstop⟩ := text_split hline
  have hlength : d.lineStart (l + 1) - d.lineStart l = line.chars.length := by
    rw [lineStart_succ hline, hstop, Line.chars, List.length_append]
    omega
  rw [between, hlength, htext, ← hbefore, List.drop_left, ← List.append_assoc, ← Line.chars,
    List.take_left]

/-- The lines with the breaks between them, one after the other. -/
theorem flatMap_lines_eq (d : Document) :
    ((List.range d.lineCount).flatMap fun l =>
      (d.lineText l).getD [] ++ d.between (d.lineStop l) (d.lineStart (l + 1))) = d.text := by
  have hlines : (List.range d.lineCount).map (fun l =>
      (d.lineText l).getD [] ++ d.between (d.lineStop l) (d.lineStart (l + 1))) =
        d.lines.map Line.chars := by
    refine List.ext_getElem? fun l => ?_
    rw [List.getElem?_map, List.getElem?_map]
    rcases Nat.lt_or_ge l d.lineCount with hl | hl
    · obtain ⟨line, hline⟩ := getElem?_lines hl
      rw [List.getElem?_range hl, hline, Option.map_some, Option.map_some, lineText_eq hline,
        between_eq_ending hline]
      rfl
    · rw [List.getElem?_eq_none (by simpa using hl),
        List.getElem?_eq_none (d.lineCount_eq ▸ hl), Option.map_none, Option.map_none]
  rw [List.flatMap_def, hlines, ← List.flatMap_def, d.lines_eq, flatten_splitLines]

/-- A carriage return that is a line break of its own has no line feed behind it. -/
theorem not_lineFeed_of_return (hl : l + 1 < d.lineCount)
    (hreturn : d.between (d.lineStop l) (d.lineStart (l + 1)) = ['\r']) :
    d.text[d.lineStart (l + 1)]? ≠ some '\n' := by
  obtain ⟨line, hline⟩ := getElem?_lines (Nat.lt_of_succ_lt hl)
  obtain ⟨next, hnext⟩ := getElem?_lines hl
  rw [between_eq_ending hline] at hreturn
  have hlone := d.wellCut.whole hline hnext hreturn
  have hhead := head?_chars_ne (d.wellCut.plain hnext) (ending_cases hnext) hlone
  intro hfeed
  have hlt : d.lineStart (l + 1) < d.length := by
    rw [d.length_eq]
    exact (List.getElem?_eq_some_iff.mp hfeed).1
  -- the text goes on behind the carriage return, so the next line has a first character
  have hnonempty : d.lineStart (l + 1) < d.lineStart (l + 1 + 1) := by
    rcases Nat.lt_or_ge (l + 1 + 1) d.lineCount with h | h
    · exact lineStart_lt (by omega) h
    · exact hlt.trans_eq (line_of_le h).1.symm
  have hchars := between_eq_chars hnext
  rw [← hchars, between, List.head?_take, if_neg (by omega), List.head?_drop] at hhead
  exact hhead hfeed

/-- **The line of an offset** is the last one that starts at or before it. Offsets past the text are
taken as its end. -/
theorem lineOf_eq_iff (d : Document) (o l : Nat) :
    d.lineOf o = l ↔ d.lineStart l ≤ min o d.length ∧
      (l + 1 = d.lineCount ∨ min o d.length < d.lineStart (l + 1)) := by
  have hmin : d.lineOf o = d.lineOf (min o d.length) := by
    rw [lineOf, lineOf, Nat.min_assoc, Nat.min_self]
  rw [hmin]
  constructor
  · rintro rfl
    obtain ⟨hlt, hstart, hafter⟩ := d.onLine_lineOf (min o d.length)
    refine ⟨hstart, (Nat.eq_or_lt_of_le hlt).imp_right fun hnext => hafter _ ?_⟩
    rw [startsAfter_eq_drop, drop_starts hnext]
    exact List.mem_cons_self
  · rintro ⟨hstart, hstop⟩
    have hlt : l < d.lineCount := by
      by_contra hge
      have hlast := (line_of_le (Nat.le_of_not_lt hge)).1
      have hpast : d.lineStart (l + 1) = d.length := (line_of_le (by omega)).1
      omega
    refine lineOf_eq ⟨hlt, hstart, fun s hs => ?_⟩
    obtain ⟨hnext, hle⟩ := startsAfter_bounds hlt hs
    omega

/-- **Logical lines tile the text.** What the lines show and the characters between them make up the
text. A line shows no character that breaks lines, and as many characters as lie between its start
and its stop. One whole line break stands between a line and the next, and nothing behind the last
line. The break is also what the last two characters of the line say it is. Lines start at
increasing offsets from zero on, and the line of an offset is the last one that starts at or before
it. Past the last line there is only the end of the text. -/
theorem lines_tile_text (d : Document) :
    ((List.range d.lineCount).flatMap fun l =>
      (d.lineText l).getD [] ++ d.between (d.lineStop l) (d.lineStart (l + 1))) = d.text ∧
    (∀ l < d.lineCount, ∃ text, d.lineText l = some text ∧
      (∀ c ∈ text, isLineBreak c = false) ∧ d.lineStart l + text.length = d.lineStop l) ∧
    (∀ l, l + 1 < d.lineCount →
      IsLineEnding (d.between (d.lineStop l) (d.lineStart (l + 1))) ∧
      (d.between (d.lineStop l) (d.lineStart (l + 1)) = ['\r'] →
        d.text[d.lineStart (l + 1)]? ≠ some '\n')) ∧
    (∀ l, l + 1 = d.lineCount →
      d.lineStop l = d.length ∧ d.between (d.lineStop l) (d.lineStart (l + 1)) = []) ∧
    (∀ l < d.lineCount,
      d.lineStart (l + 1) - breakLength (d.between (d.lineStart l) (d.lineStart (l + 1))) =
        d.lineStop l) ∧
    d.lineStart 0 = 0 ∧
    (∀ l m, m < l → l < d.lineCount → d.lineStart m < d.lineStart l) ∧
    (∀ o l, d.lineOf o = l ↔ d.lineStart l ≤ min o d.length ∧
      (l + 1 = d.lineCount ∨ min o d.length < d.lineStart (l + 1))) ∧
    (∀ l, d.lineCount ≤ l →
      d.lineStart l = d.length ∧ d.lineStop l = d.length ∧ d.lineText l = none) := by
  refine ⟨d.flatMap_lines_eq, fun l hl => ?shows, fun l hl => ?gap, fun l hl => ?last,
    fun l hl => ?found, d.lineStart_zero, fun _ _ => lineStart_lt, d.lineOf_eq_iff,
    fun _ => line_of_le⟩
  case shows =>
    obtain ⟨line, hline⟩ := getElem?_lines hl
    exact ⟨line.text, lineText_eq hline, d.wellCut.plain hline, (lineStart_eq hline).2.symm⟩
  case gap => exact ⟨(isLineEnding_between hl).2, not_lineFeed_of_return hl⟩
  case last =>
    have hstop := lineStop_last hl
    have hnext := (line_of_le (l := l + 1) hl.ge).1
    exact ⟨hstop, by rw [between, hstop, hnext, Nat.sub_self, List.take_zero]⟩
  case found =>
    obtain ⟨line, hline⟩ := getElem?_lines hl
    rw [between_eq_chars hline, breakLength_chars (d.wellCut.plain hline) (ending_cases hline),
      lineStart_succ hline, Nat.add_sub_cancel]

/-- Where breaks touch, a carriage return is joined to the line feed behind it and to nothing else,
and an offset inside that break lies on the line that it ends. -/
theorem lines_tile_touching_breaks :
    let d := ofText ['\r', '\r', '\n', '\n', '\r', '\u0085', 'a', '\u2028']
    d.lineCount = 7 ∧
      ((List.range 7).flatMap fun l =>
        (d.lineText l).getD [] ++ d.between (d.lineStop l) (d.lineStart (l + 1))) = d.text ∧
      IsLineEnding (d.between (d.lineStop 0) (d.lineStart 1)) ∧
      d.between (d.lineStop 1) (d.lineStart 2) = ['\r', '\n'] ∧
      breakLength (d.between (d.lineStart 3) (d.lineStart 4)) = 1 ∧
      d.lineOf 2 = 1 ∧ d.lineOf 100 = 6 := by
  intro d
  obtain ⟨htext, -, hgap, -, -, -, -, hline, -⟩ := lines_tile_text d
  exact ⟨rfl, htext, (hgap 0 (by decide)).1, rfl, rfl, (hline 2 1).mpr (by decide),
    (hline 100 6).mpr (by decide)⟩

end Document

end RowLayout
