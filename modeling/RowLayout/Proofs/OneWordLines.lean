import RowLayout.Proofs.GreedyRows

/-!
# Lines of one word

On a line without blanks there is nothing to cut behind but characters, so cutting it after blanks
comes down to cutting it between characters. The two scans get there in different ways. One cuts a
row as soon as it reaches the edge of the viewport, the other when the next character would pass
it, and one lets a row that keeps to the indentation take whatever comes next.

The first difference shows only behind an exactly full row, where characters without cells would
follow. The second shows only at a character that does not fit beside the indentation: a row can
keep to the indentation with several characters on it if it is the first row of the line, which is
not indented. Where neither occurs, both rules find the same rows full, and the line is cut at the
same points. Without an indentation a character may even be wider than the viewport.

## Main definitions

* `RowRule.Agrees` — two rules find the same rows full, and cut them at the same place

## Main results

* `RowRule.Agrees.points_eq` — rules that agree cut a line at the same points
* `wordRule_agrees_charRule` — the rules for both ways to cut agree on a line of one word
* `oneWord_cut_alike` — such a line is cut at the same points in both ways
-/

namespace RowLayout

/-! ### Rules that agree -/

namespace RowRule

variable {rule other : RowRule} {r n m m' : Nat} {points others : List Nat}

/-- Two rules find the same rows full, and cut a full row at the same place. A row has taken the
character it begins with before it is looked at. -/
structure Agrees (rule other : RowRule) : Prop where
  full : ∀ {r n : Nat}, r < n → (rule.Full r n ↔ other.Full r n)
  cut : ∀ {r n p q : Nat}, rule.CutsAt r n p → other.CutsAt r n q → p = q

/-- A row is found full at one character only. -/
theorem FirstFull.unique (h : rule.FirstFull r n m) (h' : rule.FirstFull r n m') : m = m' := by
  rcases Nat.lt_trichotomy m m' with hlt | heq | hlt
  · exact absurd h.full (h'.room m h.le h.lt hlt)
  · exact heq
  · exact absurd h'.full (h.room m' h'.le h'.lt hlt)

theorem Agrees.firstFull (hagree : rule.Agrees other) (h : other.FirstFull r n m) :
    rule.FirstFull r n m where
  le := h.le
  lt := h.lt
  full := (hagree.full h.lt).mpr h.full
  room k hnk hrk hkm hfull := h.room k hnk hrk hkm ((hagree.full hrk).mp hfull)

/-- **Rules that agree cut a line at the same points.** -/
theorem Agrees.points_eq (hagree : rule.Agrees other) (h : rule.Rows r n points)
    (h' : other.Rows r n others) : points = others := by
  induction h generalizing others with
  | last hroom =>
    cases h' with
    | last => rfl
    | cut hfirst' =>
      have hfirst := hagree.firstFull hfirst'
      exact absurd hfirst.full (hroom _ hfirst.le hfirst.lt)
  | cut hfirst hcut _ ih =>
    cases h' with
    | last hroom' =>
      have hfull := (hagree.full hfirst.lt).mp hfirst.full
      exact absurd hfull (hroom' _ hfirst.le hfirst.lt)
    | cut hfirst' hcut' hrest' =>
      obtain rfl := hfirst.unique (hagree.firstFull hfirst')
      obtain rfl := hagree.cut hcut hcut'
      rw [ih hrest']

end RowRule

/-! ### One word -/

variable {width indent tab r n p : Nat} {text : List Char}

/-- On a line without blanks no place is behind one. -/
theorem not_afterBlank (hblank : ∀ c ∈ text, isBlank c = false) (i : Nat) :
    ¬ AfterBlank text i := by
  rintro ⟨j, c, -, hc, hc'⟩
  rw [hblank c (List.mem_of_getElem? hc)] at hc'
  cases hc'

/-- On a line without blanks there is no tab, so a character is as wide at one cell as at
another. -/
theorem cellWidth_of_not_blank {c : Char} (hblank : isBlank c = false) (cell : Nat) :
    cellWidth tab cell c = charWidth c := by
  refine cellWidth_of_ne_tab ?_ tab cell
  rintro rfl
  exact absurd hblank (by decide)

/-- A row that has taken a character reaches further than one that is empty. -/
theorem Span.reach_pos (hpos : ∀ c ∈ text, 0 < charWidth c)
    (hblank : ∀ c ∈ text, isBlank c = false) (hrn : r < n) (hn : n ≤ text.length)
    (indent : Nat) : 0 < (Span.mk r n).reach indent tab text := by
  have hc : text[r]? = some text[r] := List.getElem?_eq_getElem (Nat.lt_of_lt_of_le hrn hn)
  have hmem : text[r] ∈ text := List.mem_of_getElem? hc
  calc 0 < charWidth text[r] := hpos _ hmem
    _ = cellWidth tab (cellAt tab text r) text[r] :=
      (cellWidth_of_not_blank (hblank _ hmem) _).symm
    _ ≤ (Span.mk r (r + 1)).reach indent tab text := by
      rw [← Span.reach_add_width (Nat.le_refl r) hc indent]
      exact Nat.le_add_left _ _
    _ ≤ (Span.mk r n).reach indent tab text := Span.reach_mono tab text hrn indent

/-- **On a line of one word the rules for both ways to cut agree,** if there is no indentation, or
room for every character beside it. -/
theorem wordRule_agrees_charRule (hindent : indent < width)
    (hblank : ∀ c ∈ text, isBlank c = false) (hpos : ∀ c ∈ text, 0 < charWidth c)
    (hroom : indent = 0 ∨ ∀ c ∈ text, charWidth c ≤ width - indent) :
    (wordRule width indent tab text).Agrees (charRule width indent tab text) where
  full := by
    intro r n hrn
    refine and_congr_right fun hn => ?_
    have hc : text[n]? = some text[n] := List.getElem?_eq_getElem hn
    have hmem : text[n] ∈ text := List.mem_of_getElem? hc
    have hreach : (Span.mk r n).reach indent tab text + charWidth text[n] =
        (Span.mk r (n + 1)).reach indent tab text := by
      rw [← Span.reach_add_width (Nat.le_of_lt hrn) hc indent,
        cellWidth_of_not_blank (hblank _ hmem)]
    have hchar := hpos _ hmem
    constructor
    · intro hpast
      -- the row is past the indentation, so it need not take the character
      have hkept : indent < (Span.mk r n).reach indent tab text := by
        rcases hroom with hnone | hroom
        · rw [hnone]
          exact Span.reach_pos hpos hblank hrn (Nat.le_of_lt hn) 0
        · have hbeside := hroom _ hmem
          omega
      exact Or.inr ⟨hkept, hpast⟩
    · rintro (hedge | ⟨-, hpast⟩)
      · omega
      · exact hpast
  cut := by
    rintro r n p q (⟨hb, -⟩ | ⟨rfl, -⟩) rfl
    · exact absurd hb (not_afterBlank hblank p)
    · rfl

/-- **A line of one word is cut alike after blanks and between characters,** if each of its
characters takes cells, and there is no indentation or room for every character beside it. -/
theorem oneWord_cut_alike (hwidth : 0 < width) (hcells : textWidth tab text + width ≤ maxCells)
    (indent : WrapIndent) (hblank : ∀ c ∈ text, isBlank c = false)
    (hpos : ∀ c ∈ text, 0 < charWidth c)
    (hroom : indent.cells width tab text = 0 ∨
      ∀ c ∈ text, charWidth c ≤ width - indent.cells width tab text) :
    wrapPoints .word indent width tab text = wrapPoints .char indent width tab text := by
  have hsum : (cellWidths tab 0 text).sum ≤ maxCells := sum_cellWidths_le (by omega)
  have hindent := indent.cells_lt hwidth tab text
  have hagree : (wordRule width (indent.cells width tab text) tab text).Agrees
      (charRule width (indent.cells width tab text) tab text) :=
    wordRule_agrees_charRule hindent hblank hpos hroom
  simp only [wrapPoints, if_neg (Nat.ne_of_gt hwidth)]
  exact hagree.points_eq (rows_wordPoints hindent hcells) (rows_charPoints hindent (by omega) hsum)

/-- One word, in which every other character is wide. -/
def mixedWord : List Char := ['a', '世', 'b', '界', 'c']

/-- The first row is exactly full, and on the second one the wide character would pass the edge. -/
theorem mixedWord_cut_alike :
    0 < 3 ∧ textWidth 4 mixedWord + 3 ≤ maxCells ∧ (∀ c ∈ mixedWord, isBlank c = false) ∧
      (∀ c ∈ mixedWord, 0 < charWidth c) ∧
      (∀ c ∈ mixedWord, charWidth c ≤ 3 - (WrapIndent.fixedCells 1).cells 3 4 mixedWord) ∧
      wrapPoints .word (.fixedCells 1) 3 4 mixedWord = [2, 3, 4] ∧
      wrapPoints .char (.fixedCells 1) 3 4 mixedWord = [2, 3, 4] := by
  have hcells : textWidth 4 mixedWord + 3 ≤ maxCells := by decide +kernel
  have hchars : ∀ c ∈ mixedWord, isBlank c = false ∧ 0 < charWidth c ∧
      charWidth c ≤ 3 - (WrapIndent.fixedCells 1).cells 3 4 mixedWord := by
    simp only [mixedWord, List.forall_mem_cons, List.not_mem_nil, false_imp_iff, implies_true]
    decide +kernel
  have hblank : ∀ c ∈ mixedWord, isBlank c = false := fun c hc => (hchars c hc).1
  have hpos : ∀ c ∈ mixedWord, 0 < charWidth c := fun c hc => (hchars c hc).2.1
  have hroom : ∀ c ∈ mixedWord,
      charWidth c ≤ 3 - (WrapIndent.fixedCells 1).cells 3 4 mixedWord :=
    fun c hc => (hchars c hc).2.2
  have hword : wrapPoints .word (.fixedCells 1) 3 4 mixedWord = [2, 3, 4] := by decide +kernel
  refine ⟨by decide, hcells, hblank, hpos, hroom, hword, ?_⟩
  rw [← hword]
  exact (oneWord_cut_alike (by decide) hcells _ hblank hpos (Or.inr hroom)).symm

end RowLayout
