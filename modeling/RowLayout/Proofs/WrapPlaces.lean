import RowLayout.Wrap.SoftWrap

/-!
# Where soft wraps stand

Both scans cut a line at ever later places, never in front of its first character and never behind
its last one. So the soft wraps of a line lie strictly inside it, and those of a document, taken
line after line, are in order.

A cut puts at most one point in front of those that follow. What has to be shown of each kind of
cut is therefore one step from the end of the scan backwards: if the points that follow rise from
the place where the new row may be cut at the earliest, then all points rise from the place where
the present row may be.

## Main definitions

* `Rising` — points that increase strictly, from some place on
* `CharScan.earliest` — where the present row may be cut at the earliest
* `Document.CutAt` — a line of a document is cut at an offset
* `Document.WrapsTo` — a line of a document goes on at a soft wrap

## Main results

* `rising_wrapPoints`, `lt_of_mem_wrapPoints` — the wrap points of a line lie inside it, in order
* `SoftWrap.pairwise_ofDocument` — the soft wraps of a document are in order
* `SoftWrap.mem_ofDocument` — they are those to which a line goes on and which no fold hides
-/

namespace RowLayout

/-! ### Rising points -/

/-- The points increase strictly, and none of them comes before `least`. -/
def Rising (least : Nat) (points : List Nat) : Prop :=
  points.Pairwise (· < ·) ∧ ∀ p ∈ points, least ≤ p

namespace Rising

variable {least least' p : Nat} {points : List Nat}

theorem nil (least : Nat) : Rising least [] := ⟨List.Pairwise.nil, by simp⟩

theorem mono (hle : least ≤ least') (h : Rising least' points) : Rising least points :=
  ⟨h.1, fun p hp => Nat.le_trans hle (h.2 p hp)⟩

theorem cons (hle : least ≤ p) (h : Rising (p + 1) points) : Rising least (p :: points) := by
  refine ⟨List.pairwise_cons.mpr ⟨fun q hq => h.2 q hq, h.1⟩, fun q hq => ?_⟩
  rcases List.mem_cons.mp hq with rfl | hq
  · exact hle
  · have := h.2 q hq
    omega

end Rising

/-! ### Cutting between characters -/

namespace CharScan

variable {width tab indent w p : Nat} {more : Bool} {points : List Nat} {s : CharScan}

/-- The index at which the present row may be cut at the earliest: in front of the next character,
or behind it if the row is still empty. -/
def earliest (indent : Nat) (s : CharScan) : Nat :=
  if indent < s.used then s.index else s.index + 1

theorem index_le_earliest (indent : Nat) (s : CharScan) : s.index ≤ s.earliest indent := by
  rw [earliest]
  split <;> omega

theorem earliest_le_succ (indent : Nat) (s : CharScan) : s.earliest indent ≤ s.index + 1 := by
  rw [earliest]
  split <;> omega

@[simp]
theorem index_cutBefore (width indent w : Nat) (s : CharScan) :
    (s.cutBefore width indent w).2.index = s.index := by
  rw [cutBefore]
  split <;> rfl

@[simp]
theorem index_cutAfter (width indent : Nat) (more : Bool) (s : CharScan) :
    (s.cutAfter width indent more).2.index = s.index := by
  rw [cutAfter]
  split <;> rfl

@[simp]
theorem index_put (w : Nat) (s : CharScan) : (s.put w).index = s.index + 1 := rfl

theorem rising_cutBefore (h : Rising ((s.cutBefore width indent w).2.earliest indent) points) :
    Rising (s.earliest indent) ((s.cutBefore width indent w).1 ++ points) := by
  by_cases hcut : width < low64 (s.used + w) ∧ indent < s.used
  · rw [cutBefore, if_pos hcut] at h ⊢
    refine Rising.cons ?_ ?_
    · simp [earliest, hcut.2]
    · simpa [earliest] using h
  · rw [cutBefore, if_neg hcut] at h ⊢
    exact h

theorem rising_cutAfter (h : Rising ((s.cutAfter width indent more).2.earliest indent) points) :
    Rising s.index ((s.cutAfter width indent more).1 ++ points) := by
  by_cases hcut : width ≤ s.used ∧ more = true
  · rw [cutAfter, if_pos hcut] at h ⊢
    exact Rising.cons (Nat.le_refl _) (by simpa [earliest] using h)
  · rw [cutAfter, if_neg hcut] at h ⊢
    exact h.mono (index_le_earliest ..)

/-- The cuts of a scan come one after the other. -/
theorem rising_points (width tab indent : Nat) (line : List Char) (s : CharScan) :
    Rising (s.earliest indent) (s.points width tab indent line) := by
  induction line generalizing s with
  | nil => exact Rising.nil _
  | cons c rest ih =>
    rw [points, List.append_assoc]
    refine rising_cutBefore ((rising_cutAfter (ih _)).mono ?_)
    rw [index_put]
    exact earliest_le_succ ..

/-- The cuts of a scan come before the end of the line. -/
theorem lt_of_mem_points {line : List Char} (hp : p ∈ s.points width tab indent line) :
    p < s.index + line.length := by
  induction line generalizing s with
  | nil => simp [points] at hp
  | cons c rest ih =>
    rw [points, List.mem_append, List.mem_append] at hp
    rw [List.length_cons]
    rcases hp with (hp | hp) | hp
    · rw [cutBefore] at hp
      split at hp
      · obtain rfl : p = s.index := by simpa using hp
        omega
      · simp at hp
    · -- behind the last character there is no cut
      rw [cutAfter] at hp
      split at hp
      · next hcut =>
        obtain rfl : p = s.index + 1 := by simpa using hp
        have : 0 < rest.length := List.length_pos_iff.mpr (by simpa using hcut.2)
        omega
      · simp at hp
    · have := ih hp
      simp only [index_cutAfter, index_put, index_cutBefore] at this
      omega

end CharScan

/-! ### Cutting after blanks -/

namespace WordScan

variable {width tab indent w p : Nat} {points : List Nat} {s : WordScan}

/-- The last blank of the row is behind the next character. -/
def BlankBehind (s : WordScan) : Prop := ∀ place ∈ s.blank, place.index ≤ s.here.index

theorem rising_cutAtBlank (h : Rising ((s.cutAtBlank width indent w).2.row.index + 1) points) :
    Rising (s.row.index + 1) ((s.cutAtBlank width indent w).1 ++ points) := by
  cases hblank : s.blank with
  | none =>
    simp only [cutAtBlank, hblank] at h ⊢
    exact h
  | some place =>
    simp only [cutAtBlank, hblank] at h ⊢
    by_cases hcut : ¬ s.fits width indent w ∧ s.row.index < place.index
    · rw [if_pos hcut] at h ⊢
      exact Rising.cons hcut.2 h
    · rw [if_neg hcut] at h ⊢
      exact h

theorem rising_cutHere (h : Rising ((s.cutHere width indent w).2.row.index + 1) points) :
    Rising (s.row.index + 1) ((s.cutHere width indent w).1 ++ points) := by
  by_cases hcut : ¬ s.fits width indent w ∧ s.row.index < s.here.index
  · rw [cutHere, if_pos hcut] at h ⊢
    exact Rising.cons hcut.2 h
  · rw [cutHere, if_neg hcut] at h ⊢
    exact h

/-- The cuts of a scan come one after the other, and after the start of the present row. -/
theorem rising_points (width tab indent : Nat) (line : List Char) (s : WordScan) :
    Rising (s.row.index + 1) (s.points width tab indent line) := by
  induction line generalizing s with
  | nil => exact Rising.nil _
  | cons c rest ih =>
    rw [points, List.append_assoc]
    exact rising_cutAtBlank (rising_cutHere (ih _))

theorem cutAtBlank_behind (hs : s.BlankBehind) (width indent w : Nat) :
    (s.cutAtBlank width indent w).2.here = s.here ∧
      (s.cutAtBlank width indent w).2.BlankBehind ∧
      ∀ p ∈ (s.cutAtBlank width indent w).1, p ≤ s.here.index := by
  rw [cutAtBlank]
  split
  · next place hblank =>
    split
    · refine ⟨rfl, by simp [cutAt, BlankBehind], fun p hp => ?_⟩
      obtain rfl : p = place.index := by simpa [cutAt] using hp
      exact hs place hblank
    · exact ⟨rfl, hs, by simp⟩
  · exact ⟨rfl, hs, by simp⟩

theorem cutHere_behind (hs : s.BlankBehind) (width indent w : Nat) :
    (s.cutHere width indent w).2.here = s.here ∧ (s.cutHere width indent w).2.BlankBehind ∧
      ∀ p ∈ (s.cutHere width indent w).1, p ≤ s.here.index := by
  rw [cutHere]
  split
  · exact ⟨rfl, by simp [cutAt, BlankBehind], by simp [cutAt]⟩
  · exact ⟨rfl, hs, by simp⟩

theorem put_behind (hs : s.BlankBehind) (c : Char) (w : Nat) : (s.put c w).BlankBehind := by
  intro place hplace
  simp only [put] at hplace ⊢
  split at hplace
  · obtain rfl := Option.some.inj hplace
    exact Nat.le_refl _
  · exact Nat.le_succ_of_le (hs place hplace)

/-- The cuts of a scan come before the end of the line. -/
theorem lt_of_mem_points {line : List Char} (hs : s.BlankBehind)
    (hp : p ∈ s.points width tab indent line) : p < s.here.index + line.length := by
  induction line generalizing s with
  | nil => simp [points] at hp
  | cons c rest ih =>
    obtain ⟨hhere, hbehind, hfirst⟩ :=
      cutAtBlank_behind hs width indent (cellWidth tab s.here.cell c)
    obtain ⟨hhere', hbehind', hsecond⟩ :=
      cutHere_behind hbehind width indent (cellWidth tab s.here.cell c)
    rw [points, List.mem_append, List.mem_append] at hp
    rw [List.length_cons]
    rcases hp with (hp | hp) | hp
    · have := hfirst p hp
      omega
    · have := hsecond p hp
      rw [hhere] at this
      omega
    · have := ih (put_behind hbehind' c _) hp
      simp only [put, hhere', hhere] at this
      omega

end WordScan

/-! ### Wrap points -/

section WrapPoints

variable (mode : WrapMode) (indent : WrapIndent) (width tab : Nat) (line : List Char)

/-- **The wrap points of a line rise,** and none stands in front of its first character. -/
theorem rising_wrapPoints : Rising 1 (wrapPoints mode indent width tab line) := by
  by_cases hwidth : width = 0
  · subst hwidth
    rw [wrapPoints_zero]
    exact Rising.nil _
  · cases mode with
    | none => simpa using Rising.nil 1
    | char =>
      simp only [wrapPoints, if_neg hwidth]
      exact CharScan.rising_points width tab _ line .start
    | word =>
      simp only [wrapPoints, if_neg hwidth]
      exact WordScan.rising_points width tab _ line .start

variable {mode indent width tab line}

/-- **The wrap points of a line stand in front of one of its characters.** -/
theorem lt_of_mem_wrapPoints {p : Nat} (hp : p ∈ wrapPoints mode indent width tab line) :
    p < line.length := by
  by_cases hwidth : width = 0
  · simp [hwidth] at hp
  · cases mode with
    | none => simp at hp
    | char =>
      simp only [wrapPoints, if_neg hwidth] at hp
      simpa [CharScan.start] using CharScan.lt_of_mem_points hp
    | word =>
      simp only [wrapPoints, if_neg hwidth] at hp
      have hstart : WordScan.start.BlankBehind := by simp [WordScan.BlankBehind, WordScan.start]
      simpa [WordScan.start] using WordScan.lt_of_mem_points hstart hp

/-- A line that is cut at all is cut because wrapping is on. -/
theorem on_of_mem_wrapPoints {p : Nat} (hp : p ∈ wrapPoints mode indent width tab line) :
    0 < width ∧ mode ≠ .none := by
  constructor
  · refine Nat.pos_of_ne_zero fun h => ?_
    simp [h] at hp
  · rintro rfl
    simp at hp

end WrapPoints

/-! ### The soft wraps of a document -/

/-- A line of the document is cut at an offset: one of its wrap points is there. -/
def Document.CutAt (d : Document) (s : Settings) (o : Nat) : Prop :=
  ∃ l text p, d.lineText l = some text ∧
    p ∈ wrapPoints s.wrapMode s.wrapIndent s.viewportWidth.toNat s.tabCells text ∧
    o = d.lineStart l + p

/-- A line of the document goes on at a soft wrap: it is cut there, and the row that begins there
has the indentation of the line's continuation rows. -/
def Document.WrapsTo (d : Document) (s : Settings) (l : Nat) (w : SoftWrap) : Prop :=
  ∃ text p, d.lineText l = some text ∧
    p ∈ wrapPoints s.wrapMode s.wrapIndent s.viewportWidth.toNat s.tabCells text ∧
    w = ⟨d.lineStart l + p, s.wrapIndent.cells s.viewportWidth.toNat s.tabCells text⟩

theorem Document.cutAt_iff {d : Document} {s : Settings} {o : Nat} :
    d.CutAt s o ↔ ∃ l w, d.WrapsTo s l w ∧ w.offset = o := by
  constructor
  · rintro ⟨l, text, p, htext, hp, rfl⟩
    exact ⟨l, _, ⟨text, p, htext, hp, rfl⟩, rfl⟩
  · rintro ⟨l, w, ⟨text, p, htext, hp, rfl⟩, rfl⟩
    exact ⟨l, text, p, htext, hp, rfl⟩

/-- If a line is cut, wrapping is on. -/
theorem Document.CutAt.wrapping {d : Document} {s : Settings} {o : Nat} (h : d.CutAt s o) :
    0 < s.viewportWidth.toNat ∧ s.wrapMode ≠ .none := by
  obtain ⟨l, text, p, -, hp, -⟩ := h
  exact on_of_mem_wrapPoints hp

namespace SoftWrap

variable {s : Settings} {folds : FoldSet} {d : Document} {w : SoftWrap}

/-- The soft wraps of one line lie strictly inside it, in order. -/
theorem pairwise_ofLine (s : Settings) (start : Nat) (line : List Char) :
    (ofLine s start line).Pairwise (·.offset < ·.offset) ∧
      ∀ w ∈ ofLine s start line, start < w.offset ∧ w.offset < start + line.length := by
  obtain ⟨hpair, hpos⟩ :=
    rising_wrapPoints s.wrapMode s.wrapIndent s.viewportWidth.toNat s.tabCells line
  refine ⟨List.pairwise_map.mpr (hpair.imp fun hlt => Nat.add_lt_add_left hlt start), ?_⟩
  intro w hw
  obtain ⟨p, hp, rfl⟩ := List.mem_map.mp hw
  have := hpos p hp
  have := lt_of_mem_wrapPoints hp
  simp only
  omega

/-- Line after line, the soft wraps go up. -/
theorem pairwise_flatMap_lines (s : Settings) (folds : FoldSet) (start : Nat)
    (lines : List Line) :
    ((lines.zip (spansFrom start lines)).flatMap fun (line, span) =>
        (ofLine s span.start line.text).filter fun w => !folds.hides w.offset).Pairwise
          (·.offset < ·.offset) ∧
      ∀ w ∈ (lines.zip (spansFrom start lines)).flatMap fun (line, span) =>
        (ofLine s span.start line.text).filter fun w => !folds.hides w.offset,
        start < w.offset := by
  induction lines generalizing start with
  | nil => simp
  | cons l rest ih =>
    obtain ⟨hpair, hinside⟩ := pairwise_ofLine s start l.text
    obtain ⟨hrest, habove⟩ := ih (start + l.text.length + l.ending.length)
    rw [spansFrom, List.zip_cons_cons, List.flatMap_cons]
    constructor
    · refine List.pairwise_append.mpr ⟨hpair.filter _, hrest, fun w hw w' hw' => ?_⟩
      have := (hinside w ((List.mem_filter.mp hw).1)).2
      have := habove w' hw'
      omega
    · intro w hw
      rcases List.mem_append.mp hw with hw | hw
      · exact (hinside w ((List.mem_filter.mp hw).1)).1
      · have := habove w hw
        omega

/-- **The soft wraps of a document are in order.** -/
theorem pairwise_ofDocument (d : Document) (folds : FoldSet) (s : Settings) :
    (ofDocument d folds s).Pairwise (·.offset < ·.offset) := by
  rw [ofDocument, d.spans_eq]
  exact (pairwise_flatMap_lines s folds 0 d.lines).1

theorem pos_of_mem_ofDocument (hw : w ∈ ofDocument d folds s) : 0 < w.offset := by
  rw [ofDocument, d.spans_eq] at hw
  exact (pairwise_flatMap_lines s folds 0 d.lines).2 w hw

/-- **The soft wraps of a document are those to which a line goes on** and which no fold hides. -/
theorem mem_ofDocument :
    w ∈ ofDocument d folds s ↔ (∃ l, d.WrapsTo s l w) ∧ folds.hides w.offset = false := by
  simp only [ofDocument, List.mem_flatMap, Prod.exists, List.mem_filter, Bool.not_eq_true']
  constructor
  · rintro ⟨line, span, hzip, hw, hshown⟩
    obtain ⟨l, hl⟩ := List.getElem?_of_mem hzip
    obtain ⟨hline, hspan⟩ := List.getElem?_zip_eq_some.mp hl
    obtain ⟨p, hp, rfl⟩ := List.mem_map.mp hw
    refine ⟨⟨l, line.text, p, ?_, hp, ?_⟩, hshown⟩
    · simp [Document.lineText, hline]
    · simp [Document.lineStart, hspan]
  · rintro ⟨⟨l, text, p, htext, hp, rfl⟩, hshown⟩
    obtain ⟨line, hline, rfl⟩ := Option.map_eq_some_iff.mp htext
    have hlt : l < d.spans.length := by
      rw [d.spans_eq, length_spansFrom]
      exact (List.getElem?_eq_some_iff.mp hline).1
    have hspan : d.spans[l]? = some d.spans[l] := List.getElem?_eq_getElem hlt
    have hstart : d.lineStart l = d.spans[l].start := by simp [Document.lineStart, hspan]
    refine ⟨line, d.spans[l], ?_, ?_, hshown⟩
    · exact List.mem_of_getElem? (List.getElem?_zip_eq_some.mpr ⟨hline, hspan⟩)
    · rw [hstart]
      exact List.mem_map.mpr ⟨p, hp, rfl⟩

/-- **The soft wraps of a document stand where a line is cut** and no fold hides the cut. -/
theorem exists_mem_ofDocument {o : Nat} :
    (∃ w ∈ ofDocument d folds s, w.offset = o) ↔ d.CutAt s o ∧ folds.hides o = false := by
  simp only [mem_ofDocument, Document.cutAt_iff]
  constructor
  · rintro ⟨w, ⟨⟨l, hw⟩, hshown⟩, rfl⟩
    exact ⟨⟨l, w, hw, rfl⟩, hshown⟩
  · rintro ⟨⟨l, w, hw, rfl⟩, hshown⟩
    exact ⟨w, ⟨⟨l, hw⟩, hshown⟩, rfl⟩

end SoftWrap

end RowLayout
