import Mathlib.Data.List.Chain
import RowLayout.Proofs.InitialStretch

/-!
# Where lines start

The lines of a document start at strictly increasing offsets, the first of them at the front of
the text. This is because every line but the last is ended by a line break, and a line break has
at least one character. So every offset lies on exactly one line.

## Main definitions

* `IsLineEnding` — what ends a line that is followed by another one
* `Document.starts` — the starts of all lines
* `Document.OnLine` — an offset lies on a line: at or after its start, and before the next one

## Main results

* `Document.pairwise_starts` — line starts increase
* `Document.lineOf_eq`, `Document.onLine_lineOf` — looking up the line of an offset finds the one
  line that it lies on
* `Document.startsAfter_eq_cons` — the starts ahead of a line are taken off one by one
-/

namespace RowLayout

/-! ### Line breaks -/

/-- One line break: a character that ends a line, or a carriage return and the line feed after
it. -/
def IsLineEnding (chars : List Char) : Prop :=
  chars = ['\r', '\n'] ∨ ∃ c, isLineBreak c = true ∧ chars = [c]

theorem IsLineEnding.ne_nil {chars : List Char} (h : IsLineEnding chars) : chars ≠ [] := by
  rcases h with rfl | ⟨c, -, rfl⟩ <;> simp

/-- Every line that is followed by another one is ended by a line break. -/
theorem isChain_consChar (c : Char) {lines : List Line}
    (h : lines.IsChain fun l _ => IsLineEnding l.ending) :
    (consChar c lines).IsChain fun l _ => IsLineEnding l.ending := by
  cases lines with
  | nil => exact .singleton _
  | cons l rest =>
    simp only [consChar]
    split
    · next hjoin =>
      obtain ⟨hc, -⟩ := (Bool.and_eq_true _ _).mp hjoin
      obtain rfl : c = '\r' := by simpa using hc
      cases rest with
      | nil => exact .singleton _
      | cons l' rest => exact .cons_cons (Or.inl rfl) (List.isChain_cons_cons.mp h).2
    · split
      · next hbreak => exact .cons_cons (Or.inr ⟨c, hbreak, rfl⟩) h
      · cases rest with
        | nil => exact .singleton _
        | cons l' rest =>
          obtain ⟨hl, hrest⟩ := List.isChain_cons_cons.mp h
          exact .cons_cons hl hrest

theorem isChain_splitLines (text : List Char) :
    (splitLines text).IsChain fun l _ => IsLineEnding l.ending := by
  induction text with
  | nil => exact .singleton _
  | cons c text ih => exact isChain_consChar c ih

/-! ### Spans -/

theorem le_start_of_mem_spansFrom {lines : List Line} {start : Nat} {span : Span}
    (h : span ∈ spansFrom start lines) : start ≤ span.start := by
  induction lines generalizing start with
  | nil => simp [spansFrom] at h
  | cons l rest ih =>
    rcases List.mem_cons.mp h with rfl | h
    · exact Nat.le_refl _
    · have := ih h
      omega

/-- Consecutive lines, all but the last ended, start at increasing offsets. -/
theorem pairwise_spansFrom {lines : List Line}
    (h : lines.IsChain fun l _ => IsLineEnding l.ending) (start : Nat) :
    (spansFrom start lines).Pairwise (·.start < ·.start) := by
  induction lines generalizing start with
  | nil => exact .nil
  | cons l rest ih =>
    refine List.pairwise_cons.mpr ⟨fun span hspan => ?_, ih h.of_cons _⟩
    cases rest with
    | nil => simp [spansFrom] at hspan
    | cons l' rest =>
      have hend : 0 < l.ending.length :=
        List.length_pos_iff.mpr (List.isChain_cons_cons.mp h).1.ne_nil
      have := le_start_of_mem_spansFrom hspan
      dsimp only
      omega

theorem start_le_of_mem_spansFrom {lines : List Line} {start : Nat} {span : Span}
    (h : span ∈ spansFrom start lines) :
    span.start ≤ start + (lines.flatMap Line.chars).length := by
  induction lines generalizing start with
  | nil => simp [spansFrom] at h
  | cons l rest ih =>
    simp only [List.flatMap_cons, List.length_append, Line.chars]
    rcases List.mem_cons.mp h with rfl | h
    · dsimp only
      omega
    · have := ih h
      omega

namespace Document

variable {d : Document} {line offset : Nat}

/-! ### The starts of all lines -/

/-- The offsets at which lines start, in order. -/
def starts (d : Document) : List Nat := d.spans.map Span.start

@[simp]
theorem length_starts (d : Document) : d.starts.length = d.lineCount := by
  simp [starts, lineCount]

theorem startsAfter_eq_drop (d : Document) (line : Nat) :
    d.startsAfter line = d.starts.drop (line + 1) := by
  rw [startsAfter, starts, List.map_drop]

theorem getElem?_starts (h : line < d.lineCount) : d.starts[line]? = some (d.lineStart line) := by
  have hspan : d.spans[line]? = some d.spans[line] := List.getElem?_eq_getElem h
  simp [starts, lineStart, hspan]

theorem mem_starts : offset ∈ d.starts ↔ ∃ line < d.lineCount, offset = d.lineStart line := by
  rw [List.mem_iff_getElem?]
  constructor
  · rintro ⟨line, hline⟩
    have hlt : line < d.lineCount := by
      rw [← length_starts]
      exact (List.getElem?_eq_some_iff.mp hline).1
    rw [getElem?_starts hlt] at hline
    exact ⟨line, hlt, (Option.some.inj hline).symm⟩
  · rintro ⟨line, hlt, rfl⟩
    exact ⟨line, getElem?_starts hlt⟩

/-- Lines start at increasing offsets. -/
theorem pairwise_starts (d : Document) : d.starts.Pairwise (· < ·) := by
  rw [starts, d.spans_eq, d.lines_eq, List.pairwise_map]
  exact pairwise_spansFrom (isChain_splitLines d.text) 0

theorem pairwise_startsAfter (d : Document) (line : Nat) :
    (d.startsAfter line).Pairwise (· < ·) := by
  rw [startsAfter_eq_drop]
  exact d.pairwise_starts.sublist (List.drop_sublist _ _)

theorem drop_starts (h : line < d.lineCount) :
    d.starts.drop line = d.lineStart line :: d.startsAfter line := by
  have hlt : line < d.starts.length := by simpa using h
  have hget := getElem?_starts h
  rw [List.getElem?_eq_getElem hlt, Option.some.injEq] at hget
  rw [List.drop_eq_getElem_cons hlt, hget, startsAfter_eq_drop]

theorem lt_of_mem_startsAfter (h : line < d.lineCount) (ho : offset ∈ d.startsAfter line) :
    d.lineStart line < offset := by
  have hpair := d.pairwise_starts.sublist (List.drop_sublist line _)
  rw [drop_starts h, List.pairwise_cons] at hpair
  exact hpair.1 offset ho

theorem le_length_of_mem_starts (h : offset ∈ d.starts) : offset ≤ d.length := by
  rw [starts, d.spans_eq, d.lines_eq] at h
  obtain ⟨span, hspan, rfl⟩ := List.mem_map.mp h
  have hle := start_le_of_mem_spansFrom hspan
  rwa [flatten_splitLines, Nat.zero_add, ← d.length_eq] at hle

/-- The first line starts at the front of the text. -/
theorem lineStart_zero (d : Document) : d.lineStart 0 = 0 := by
  rw [lineStart, d.spans_eq, d.lines_eq]
  cases hlines : splitLines d.text with
  | nil => exact absurd hlines (splitLines_ne_nil d.text)
  | cons l rest => rfl

theorem zero_mem_starts (d : Document) : 0 ∈ d.starts :=
  mem_starts.mpr ⟨0, d.lineCount_pos, d.lineStart_zero.symm⟩

/-- The next line start is that of the next line, and the others come after that line. -/
theorem startsAfter_eq_cons {s : Nat} {rest : List Nat} (h : d.startsAfter line = s :: rest) :
    line + 1 < d.lineCount ∧ d.lineStart (line + 1) = s ∧ d.startsAfter (line + 1) = rest := by
  rw [startsAfter_eq_drop] at h
  have hlt : line + 1 < d.lineCount := by
    by_contra hge
    rw [List.drop_eq_nil_of_le (by simpa using hge)] at h
    exact List.cons_ne_nil _ _ h.symm
  rw [drop_starts hlt, List.cons.injEq] at h
  exact ⟨hlt, h⟩

/-! ### The line of an offset -/

/-- The offset lies on the line, its line break included. The last line holds all offsets after
its start. -/
structure OnLine (d : Document) (line offset : Nat) : Prop where
  line_lt : line < d.lineCount
  start_le : d.lineStart line ≤ offset
  lt_of_mem : ∀ s ∈ d.startsAfter line, offset < s

theorem onLine_zero (d : Document) : d.OnLine 0 0 := by
  refine ⟨d.lineCount_pos, d.lineStart_zero.le, fun s hs => ?_⟩
  exact d.lineStart_zero ▸ lt_of_mem_startsAfter d.lineCount_pos hs

theorem lineOf_eq_countP (d : Document) (offset : Nat) :
    d.lineOf offset = d.starts.countP (· ≤ offset) - 1 := by
  have hle : d.spans.Pairwise (·.start ≤ ·.start) := by
    have := d.pairwise_starts
    rw [starts, List.pairwise_map] at this
    exact this.imp Nat.le_of_lt
  have hcount := countWhile_eq_countP (pairwise_upTo hle (min offset d.length))
  rw [countWhile] at hcount
  rw [lineOf, hcount, starts, List.countP_map]
  congr 1
  refine List.countP_congr fun span hspan => ?_
  have := le_length_of_mem_starts (d := d) (List.mem_map_of_mem hspan)
  simp only [decide_eq_true_eq, Function.comp_apply]
  omega

/-- An offset is looked up to the line that it lies on. -/
theorem lineOf_eq (h : d.OnLine line offset) : d.lineOf offset = line := by
  have hsplit := List.take_append_drop line d.starts
  rw [drop_starts h.line_lt] at hsplit
  have hfront : ∀ s ∈ d.starts.take line, s ≤ offset := by
    have hpair := d.pairwise_starts
    rw [← hsplit, List.pairwise_append] at hpair
    intro s hs
    have := hpair.2.2 s hs _ List.mem_cons_self
    have := h.start_le
    omega
  have hback : ∀ s ∈ d.startsAfter line, ¬ s ≤ offset :=
    fun s hs => Nat.not_le.mpr (h.lt_of_mem s hs)
  have hlength : (d.starts.take line).length = line := by
    rw [List.length_take, length_starts]
    exact Nat.min_eq_left h.line_lt.le
  rw [lineOf_eq_countP, ← hsplit, List.countP_append,
    List.countP_cons_of_pos (by simpa using h.start_le),
    List.countP_eq_length.mpr (by simpa using hfront),
    List.countP_eq_zero.mpr (by simpa using hback), hlength]
  omega

/-- Every offset lies on a line, and is looked up to it. -/
theorem onLine_lineOf (d : Document) (offset : Nat) : d.OnLine (d.lineOf offset) offset := by
  have hle : d.starts.Pairwise (id · ≤ id ·) := d.pairwise_starts.imp Nat.le_of_lt
  have hmem := @mem_dropWhile_upTo _ id _ hle offset
  have hfront := takeWhile_eq_filter (pairwise_upTo hle offset)
  have hcount := countWhile_eq_countP (pairwise_upTo hle offset)
  have hsplit := List.takeWhile_append_dropWhile (p := (id · ≤ offset)) (l := d.starts)
  rw [countWhile] at hcount
  generalize d.starts.takeWhile (id · ≤ offset) = front at *
  generalize d.starts.dropWhile (id · ≤ offset) = back at *
  have hpos : 0 < front.length := by
    rw [hfront]
    exact List.length_pos_of_mem (a := 0) (by simp [d.zero_mem_starts])
  have hline : d.lineOf offset + 1 = front.length := by
    rw [lineOf_eq_countP, hcount]
    exact Nat.sub_add_cancel (hcount ▸ hpos)
  have hlt : d.lineOf offset < d.lineCount := by
    rw [← length_starts, ← hsplit, List.length_append]
    omega
  refine ⟨hlt, ?_, fun s hs => ?_⟩
  · have hget := getElem?_starts hlt
    rw [← hsplit, List.getElem?_append_left (by omega)] at hget
    have := List.mem_of_getElem? hget
    rw [hfront, List.mem_filter] at this
    simpa using this.2
  · rw [startsAfter_eq_drop, hline, ← hsplit, List.drop_left, hmem] at hs
    exact hs.2

end Document

end RowLayout
