import RowLayout.Proofs.GreedyRows

/-!
# Where words are broken

A line that is cut after blanks is cut inside a word only where the row has no blank at all, so
that the word fills the row from its start. Such a row is full: with the next character the word
would pass the edge of the viewport. So a word that has room on a continuation row is never broken.
For a row that is cut inside a word begins in that word, and if it does not begin where the word
does, the word was broken before; the first time it would be broken, it stands at the start of a
row, where it has room.

## Main definitions

* `Span.IsWord` — the longest stretches without blanks

## Main results

* `words_kept_whole` — a word is broken only on a row without blanks, and not if it has room
-/

namespace RowLayout

variable {width indent tab r n m p : Nat} {text : List Char} {points : List Nat} {word : Span}

/-- The characters of a span are a word: none of them is blank, and the word ends on both sides at
a blank or an end of the line. -/
structure Span.IsWord (text : List Char) (word : Span) : Prop where
  start_lt_stop : word.start < word.stop
  stop_le : word.stop ≤ text.length
  unbroken : Unbroken text word.start word.stop
  start : word.start = 0 ∨ AfterBlank text word.start
  stop : word.stop = text.length ∨ ∃ c, text[word.stop]? = some c ∧ isBlank c = true

/-- Every point cuts a full row, which begins at the point before it. -/
theorem RowRule.Rows.cut_of_getElem? {rule : RowRule} (h : rule.Rows r n points) {k s : Nat}
    (hs : (r :: points)[k]? = some s) (hp : points[k]? = some p) :
    ∃ m, s < m ∧ rule.Full s m ∧ rule.CutsAt s m p := by
  induction h generalizing k with
  | last => simp at hp
  | @cut r n m q points hfirst hcut _ ih =>
    cases k with
    | zero =>
      obtain rfl : r = s := by simpa using hs
      obtain rfl : q = p := by simpa using hp
      exact ⟨m, hfirst.lt, hfirst.full, hcut⟩
    | succ k => exact ih (by simpa using hs) (by simpa using hp)

/-- A word that has room on a continuation row is not broken on a row that does not begin inside
it. -/
theorem Span.IsWord.not_cut (hword : word.IsWord text)
    (hroom : word.cells tab text + indent ≤ width) (hr : ¬ (word.start < r ∧ r < word.stop))
    (hrm : r < m) (hfull : (wordRule width indent tab text).Full r m)
    (hcut : (wordRule width indent tab text).CutsAt r m p) :
    ¬ (word.start < p ∧ p < word.stop) := by
  rintro ⟨hstart, hstop⟩
  rcases hcut with ⟨hb, -⟩ | ⟨rfl, hunbroken⟩
  · have hle := hb.le_of_unbroken hword.unbroken (Nat.le_of_lt hstop)
    omega
  · have hle : word.start ≤ r := by
      rcases hword.start with hzero | hb
      · omega
      · exact hb.le_of_unbroken hunbroken (Nat.le_of_lt hstart)
    -- the row begins with the word, and the word has room on it
    obtain rfl : r = word.start := by omega
    have hcells : (Span.mk word.start (p + 1)).cells tab text ≤ word.cells tab text :=
      Span.cells_mono tab text (Nat.le_refl _) hstop
    have hindented : (Span.mk word.start (p + 1)).indented indent ≤ indent :=
      Span.indented_le indent _
    have hpast := hfull.2
    rw [Span.reach] at hpast
    omega

theorem Span.IsWord.not_cut_of_rows (hword : word.IsWord text)
    (hroom : word.cells tab text + indent ≤ width)
    (h : (wordRule width indent tab text).Rows r n points)
    (hr : ¬ (word.start < r ∧ r < word.stop)) (hp : p ∈ points) :
    ¬ (word.start < p ∧ p < word.stop) := by
  induction h with
  | last => simp at hp
  | @cut r n m q points hfirst hcut _ ih =>
    have hq := hword.not_cut hroom hr hfirst.lt hfirst.full hcut
    rcases List.mem_cons.mp hp with rfl | hp
    · exact hq
    · exact ih hq hp

/-- **A word is broken only where it must be.** A row that is cut, but not behind a blank, has no
blank, and no room for the next character either. And no word is broken that has room on a
continuation row. -/
theorem words_kept_whole (hwidth : 0 < width) (hcells : textWidth tab text + width ≤ maxCells)
    (indent : WrapIndent) :
    (∀ k s p : Nat, (0 :: wrapPoints .word indent width tab text)[k]? = some s →
        (wrapPoints .word indent width tab text)[k]? = some p →
        AfterBlank text p ∨ (Unbroken text s p ∧
          width < (Span.mk s (p + 1)).reach (indent.cells width tab text) tab text)) ∧
      ∀ word : Span, word.IsWord text →
        word.cells tab text + indent.cells width tab text ≤ width →
        ∀ p ∈ wrapPoints .word indent width tab text, ¬ (word.start < p ∧ p < word.stop) := by
  have hrows := rows_wordPoints (indent.cells_lt hwidth tab text) hcells
  rw [wrapPoints, if_neg (Nat.ne_of_gt hwidth)]
  constructor
  · intro k s p hs hp
    obtain ⟨m, -, hfull, ⟨hb, -⟩ | ⟨rfl, hunbroken⟩⟩ := hrows.cut_of_getElem? hs hp
    · exact .inl hb
    · exact .inr ⟨hunbroken, hfull.2⟩
  · intro word hword hroom p hp
    exact hword.not_cut_of_rows hroom hrows (by omega) hp

/-- Two words, of which the second has no room behind the first. -/
def twoWords : List Char := ['a', ' ', 'b', 'b', 'b', 'b']

theorem isWord_twoWords : (Span.mk 2 6).IsWord twoWords := by
  refine ⟨by decide, by decide, fun k c hstart hstop hc => ?_, .inr ⟨1, ' ', rfl, rfl, by decide⟩,
    .inl rfl⟩
  simp only at hstart hstop
  obtain rfl : c = 'b' := by
    obtain rfl | rfl | rfl | rfl : k = 2 ∨ k = 3 ∨ k = 4 ∨ k = 5 := by omega
    all_goals simpa [twoWords] using hc.symm
  decide

/-- The second word is as wide as the viewport, and is kept whole. -/
theorem twoWords_keptWhole :
    0 < 4 ∧ textWidth 4 twoWords + 4 ≤ maxCells ∧ wrapPoints .word .none 4 4 twoWords = [2] ∧
      (AfterBlank twoWords 2 ∨ (Unbroken twoWords 0 2 ∧
        4 < (Span.mk 0 3).reach (WrapIndent.none.cells 4 4 twoWords) 4 twoWords)) ∧
      ∀ p ∈ wrapPoints .word .none 4 4 twoWords, ¬ (2 < p ∧ p < 6) := by
  have hcells : textWidth 4 twoWords + 4 ≤ maxCells := by decide +kernel
  have hpoints : wrapPoints .word .none 4 4 twoWords = [2] := by decide +kernel
  have hroom : (Span.mk 2 6).cells 4 twoWords + WrapIndent.none.cells 4 4 twoWords ≤ 4 := by
    decide +kernel
  obtain ⟨hrows, hwords⟩ := words_kept_whole (by decide) hcells .none
  rw [hpoints] at hrows
  refine ⟨by decide, hcells, hpoints, hrows 0 0 2 rfl rfl, ?_⟩
  exact hwords ⟨2, 6⟩ isWord_twoWords hroom

end RowLayout
