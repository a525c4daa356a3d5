import RowLayout.Proofs.InlayShift
import RowLayout.Proofs.RebuiltViews

/-!
# The row below the last one

The height of all rows together is found by going down past the last row, in another way than a
walk goes down from one row to the next. It is nevertheless where a further row would begin. To see
this, let the text be followed by a line feed: this ends its last line, and behind it comes a line
on which nothing stands. Everything else stays. Lines begin where they began and show what they
showed, so they are cut at the same places, and no region reaches the new line. All inlays lie in
front of it, so the last row has the inlays that it had when it was the last one, and the new row
begins at the bottom of its band.

A text that ends with a carriage return is different: the line feed becomes part of its last line
break, and no line is added.

## Main definitions

* `Document.GainsLine` — a document has one more line than another one, with nothing on it
* `View.GainsLine` — the same for views that have the same settings, folds and inlays

## Main results

* `splitLines_append_lineFeed` — what a line feed behind a text does to its lines
* `View.GainsLine.map_start_rows`, `map_y_rows` — the rows with the one more line
* `View.totalHeight_is_top_of_row_below` — every view, and the view with the row below
-/

namespace RowLayout

/-! ### A line feed behind a text -/

/-- A character in front of a text has to do with its first line only. -/
theorem consChar_append (c : Char) {lines : List Line} (h : lines ≠ []) (more : List Line) :
    consChar c (lines ++ more) = consChar c lines ++ more := by
  obtain ⟨l, rest, rfl⟩ := List.exists_cons_of_ne_nil h
  simp only [List.cons_append, consChar]
  split
  · rfl
  · split <;> rfl

/-- **A line feed behind a text** ends its last line, unless it joins a carriage return, and an
empty line follows. -/
theorem splitLines_append_lineFeed {text : List Char} (h : text.getLast? ≠ some '\r') :
    ∃ before last, splitLines text = before ++ [⟨last, []⟩] ∧
      splitLines (text ++ ['\n']) = before ++ [⟨last, ['\n']⟩, Line.blank] := by
  induction text with
  | nil => exact ⟨[], [], rfl, rfl⟩
  | cons c text ih =>
    have hrest : text.getLast? ≠ some '\r' := by
      intro hcr
      rw [List.getLast?_cons, hcr] at h
      exact h rfl
    obtain ⟨before, last, hlines, hlines'⟩ := ih hrest
    rw [List.cons_append, splitLines_cons, splitLines_cons, hlines, hlines']
    by_cases hbefore : before = []
    · -- the text is one line, and `c` either joins it or stands on a line of its own
      subst hbefore
      have htext : text = last := by
        simpa [hlines, Line.chars] using (flatten_splitLines text).symm
      have hjoin : ¬ (c == '\r' && Line.isLoneLineFeed ⟨last, ['\n']⟩) = true := by
        intro hjoin
        obtain ⟨hc, hlone⟩ := (Bool.and_eq_true _ _).mp hjoin
        obtain rfl : last = [] := by simpa [Line.isLoneLineFeed] using hlone
        obtain rfl : c = '\r' := by simpa using hc
        exact h (by rw [htext]; rfl)
      have hopen : ¬ (c == '\r' && Line.isLoneLineFeed ⟨last, []⟩) = true := by
        simp [Line.isLoneLineFeed]
      simp only [List.nil_append, consChar, if_neg hjoin, if_neg hopen]
      split
      · exact ⟨[⟨[], [c]⟩], last, rfl, rfl⟩
      · exact ⟨[], c :: last, rfl, rfl⟩
    · exact ⟨consChar c before, last, consChar_append c hbefore _, consChar_append c hbefore _⟩

/-- Behind a carriage return a line feed adds no line. -/
example : (splitLines ['a', '\r']).length = (splitLines ['a', '\r', '\n']).length := by decide

/-! ### Documents with one more line -/

namespace Document

variable {d d' : Document} {s : Settings} {l o : Nat}

/-- The second document has one line more than the first, behind the others, on which nothing
stands. -/
structure GainsLine (d d' : Document) : Prop where
  length_eq : d'.length = d.length + 1
  lineCount_eq : d'.lineCount = d.lineCount + 1
  lineText_eq : ∀ l < d.lineCount, d'.lineText l = d.lineText l
  lineStart_eq : ∀ l < d.lineCount, d'.lineStart l = d.lineStart l
  lineText_last : d'.lineText d.lineCount = some []
  lineStart_last : d'.lineStart d.lineCount = d'.length

theorem lt_lineCount_of_lineText {text : List Char} (h : d.lineText l = some text) :
    l < d.lineCount := by
  obtain ⟨line, hline, -⟩ := Option.map_eq_some_iff.mp h
  rw [lineCount_eq]
  exact (List.getElem?_eq_some_iff.mp hline).1

/-- Up to the line that the line feed ends, lines show the same behind the same other lines. -/
theorem exists_getElem?_upTo {before : List Line} (last : List Char) (hl : l ≤ before.length) :
    ∃ line line' : Line, (before ++ [⟨last, []⟩])[l]? = some line ∧
      (before ++ [⟨last, ['\n']⟩, .blank])[l]? = some line' ∧ line'.text = line.text ∧
      (before ++ [⟨last, ['\n']⟩, Line.blank]).take l = (before ++ [Line.mk last []]).take l := by
  rw [List.take_append_of_le_length hl, List.take_append_of_le_length hl]
  rcases Nat.lt_or_eq_of_le hl with hlt | rfl
  · refine ⟨before[l], before[l], ?_, ?_, rfl, rfl⟩ <;>
      rw [List.getElem?_append_left hlt, List.getElem?_eq_getElem hlt]
  · exact ⟨⟨last, []⟩, ⟨last, ['\n']⟩, by simp, by simp, rfl, rfl⟩

/-- **A line feed adds a line to a document,** unless it joins a carriage return. -/
theorem gainsLine_of_text_eq (h : d.text.getLast? ≠ some '\r')
    (htext : d'.text = d.text ++ ['\n']) : d.GainsLine d' := by
  obtain ⟨before, last, hlines, hlines'⟩ := splitLines_append_lineFeed h
  rw [← d.lines_eq] at hlines
  rw [← htext, ← d'.lines_eq] at hlines'
  have hcount : d.lineCount = before.length + 1 := by simp [d.lineCount_eq, hlines]
  have hblank : d'.lines[d.lineCount]? = some .blank := by simp [hlines', hcount]
  have hold (l : Nat) (hl : l < d.lineCount) : ∃ line line', d.lines[l]? = some line ∧
      d'.lines[l]? = some line' ∧ line'.text = line.text ∧
      d'.lines.take l = d.lines.take l := by
    rw [hlines, hlines']
    exact exists_getElem?_upTo last (by omega)
  -- nothing but the empty line comes behind its start
  have hchars : (d'.lines.take d.lineCount).flatMap Line.chars = d'.text := by
    have hsplit : d'.lines = d'.lines.take d.lineCount ++ [.blank] := by
      simp [hlines', hcount, List.take_append]
    calc (d'.lines.take d.lineCount).flatMap Line.chars
        = (d'.lines.take d.lineCount ++ [Line.blank]).flatMap Line.chars := by
          simp [Line.chars, Line.blank]
      _ = d'.text := by rw [← hsplit, d'.lines_eq, flatten_splitLines]
  constructor
  case length_eq =>
    rw [d'.length_eq, htext, List.length_append, d.length_eq]
    rfl
  case lineCount_eq => simp [d'.lineCount_eq, hlines', hcount]
  case lineText_eq =>
    intro l hl
    obtain ⟨line, line', hline, hline', hsame, -⟩ := hold l hl
    rw [lineText, lineText, hline, hline', Option.map_some, Option.map_some, hsame]
  case lineStart_eq =>
    intro l hl
    obtain ⟨line, line', hline, hline', -, htake⟩ := hold l hl
    rw [(Document.lineStart_eq hline').1, (Document.lineStart_eq hline).1, htake]
  case lineText_last =>
    rw [lineText, hblank]
    rfl
  case lineStart_last => rw [(Document.lineStart_eq hblank).1, hchars, d'.length_eq]

namespace GainsLine

variable (h : d.GainsLine d')
include h

/-- A line starts where one started before, or behind the line feed. -/
theorem exists_lineStart_iff :
    (∃ l < d'.lineCount, o = d'.lineStart l) ↔
      (∃ l < d.lineCount, o = d.lineStart l) ∨ o = d.length + 1 := by
  have hlast : d'.lineStart d.lineCount = d.length + 1 := h.lineStart_last.trans h.length_eq
  rw [h.lineCount_eq]
  constructor
  · rintro ⟨l, hl, rfl⟩
    rcases Nat.lt_or_eq_of_le (Nat.le_of_lt_succ hl) with hlt | rfl
    · exact Or.inl ⟨l, hlt, h.lineStart_eq l hlt⟩
    · exact Or.inr hlast
  · rintro (⟨l, hl, rfl⟩ | rfl)
    · exact ⟨l, Nat.lt_succ_of_lt hl, (h.lineStart_eq l hl).symm⟩
    · exact ⟨d.lineCount, Nat.lt_succ_self _, hlast.symm⟩

/-- The line with nothing on it is not cut, and the others are cut where they were. -/
theorem cutAt_iff : d'.CutAt s o ↔ d.CutAt s o := by
  constructor
  · rintro ⟨l, text, p, htext, hp, rfl⟩
    have hl := lt_lineCount_of_lineText htext
    rw [h.lineCount_eq] at hl
    rcases Nat.lt_or_eq_of_le (Nat.le_of_lt_succ hl) with hlt | rfl
    · exact ⟨l, text, p, h.lineText_eq l hlt ▸ htext, hp, by rw [h.lineStart_eq l hlt]⟩
    · obtain rfl : [] = text := Option.some.inj (h.lineText_last.symm.trans htext)
      exact absurd (lt_of_mem_wrapPoints hp) (Nat.not_lt_zero p)
  · rintro ⟨l, text, p, htext, hp, rfl⟩
    have hl := lt_lineCount_of_lineText htext
    exact ⟨l, text, p, (h.lineText_eq l hl).trans htext, hp, by rw [h.lineStart_eq l hl]⟩

end GainsLine

end Document

/-! ### Looking up rows -/

/-- What does not pass at the end of a list is not found. -/
theorem lastWhile?_append_singleton {α : Type} {p : α → Bool} {x : α} (hx : ¬ p x = true)
    (xs : List α) : lastWhile? p (xs ++ [x]) = lastWhile? p xs := by
  have hcount : countWhile p (xs ++ [x]) = countWhile p xs := by
    induction xs with
    | nil => simp [countWhile_cons, hx]
    | cons y ys ih => rw [List.cons_append, countWhile_cons, countWhile_cons, ih]
  rw [lastWhile?, lastWhile?, hcount]

/-! ### Heights whatever the ids -/

theorem heightsOf_map_unnamed (kind : InlayKind) (inlays : List Inlay) :
    heightsOf kind (inlays.map Inlay.unnamed) = heightsOf kind inlays := by
  rw [heightsOf, heightsOf, List.filter_map, List.map_map]
  rfl

/-- The height of a band does not depend on the ids of its inlays. -/
theorem bandHeight_map_unnamed (lineHeight : Nat) (inlays : List Inlay) :
    bandHeight lineHeight (inlays.map Inlay.unnamed) = bandHeight lineHeight inlays := by
  simp only [bandHeight, rowHeight, blockHeight, heightsOf_map_unnamed]

/-! ### Views with one more line -/

namespace View

variable {v v' : View} {n m o : Nat} {row row' : Row}

/-- The second view has one line more than the first, with nothing on it, and the same settings,
fold regions and inlays. -/
structure GainsLine (v v' : View) : Prop where
  sound : v.Sound
  sound' : v'.Sound
  document : v.document.GainsLine v'.document
  settings_eq : v'.settings = v.settings
  regions_eq : v'.folds.regions = v.folds.regions
  inlays_perm : (v'.inlays.inlays.map Inlay.unnamed).Perm (v.inlays.inlays.map Inlay.unnamed)

namespace GainsLine

/-! ### Where the rows begin -/

theorem folded_iff (h : v.GainsLine v') : v'.Folded o ↔ v.Folded o := by
  rw [Folded, Folded, h.regions_eq]

/-- No region reaches the new line. -/
theorem not_folded (h : v.GainsLine v') : ¬ v'.Folded (v.document.length + 1) := by
  rw [h.folded_iff]
  rintro ⟨r, hr, -, -, hstop⟩
  have hwithin := h.sound.folds.laminar.within r hr
  omega

theorem breaksAt_iff (h : v.GainsLine v') :
    v'.BreaksAt o ↔ v.BreaksAt o ∨ o = v.document.length + 1 := by
  rw [BreaksAt, BreaksAt, h.settings_eq, h.document.cutAt_iff, h.document.exists_lineStart_iff]
  exact or_right_comm

/-- **The rows begin where they began,** and there is one more. -/
theorem map_start_rows (h : v.GainsLine v') :
    v'.rows.map Row.start = v.rows.map Row.start ++ [v.document.length + 1] := by
  obtain ⟨hpair, hiff⟩ := h.sound.starts_rows
  obtain ⟨hpair', hiff'⟩ := h.sound'.starts_rows
  have hwithin : ∀ start ∈ v.rows.map Row.start, start < v.document.length + 1 := by
    rintro _ hstart
    obtain ⟨row, hrow, rfl⟩ := List.mem_map.mp hstart
    obtain ⟨n, hn⟩ := List.getElem?_of_mem hrow
    exact Nat.lt_succ_of_le (h.sound.start_le_length hn)
  have hpairAll : (v.rows.map Row.start ++ [v.document.length + 1]).Pairwise (· < ·) :=
    List.pairwise_append.mpr ⟨hpair, List.pairwise_singleton _ _, by simpa using hwithin⟩
  refine hpair'.eq_of_mem_iff hpairAll fun o => ?_
  rw [hiff', List.mem_append, hiff, List.mem_singleton, h.breaksAt_iff, h.folded_iff]
  constructor
  · rintro ⟨hbreak | hlast, hshown⟩
    · exact Or.inl ⟨hbreak, hshown⟩
    · exact Or.inr hlast
  · rintro (⟨hbreak, hshown⟩ | rfl)
    · exact ⟨Or.inl hbreak, hshown⟩
    · exact ⟨Or.inr rfl, fun hfolded => h.not_folded (h.folded_iff.mpr hfolded)⟩

theorem length_rows_eq (h : v.GainsLine v') : v'.rows.length = v.rows.length + 1 := by
  simpa using congrArg List.length h.map_start_rows

theorem rowCount_eq (h : v.GainsLine v') : v'.rowCount = v.rowCount + 1 := by
  rw [h.sound'.rowCount_eq, h.sound.rowCount_eq, h.length_rows_eq]

/-! ### Which rows the inlays belong to -/

/-- All inlays are anchored in the text that is there without the new line. -/
theorem offset_le (h : v.GainsLine v') {i : Inlay} (hi : i ∈ v'.inlays.inlays) :
    i.offset ≤ v.document.length := by
  obtain ⟨j, hj, hsame⟩ := List.mem_map.mp (h.inlays_perm.mem_iff.mp (List.mem_map_of_mem hi))
  have hoffset : j.unnamed.offset = i.unnamed.offset := congrArg Inlay.offset hsame
  calc i.offset = j.offset := hoffset.symm
    _ ≤ v.document.length := h.sound.inlays.within j hj

theorem covers_iff (h : v.GainsLine v') (ho : o ≤ v.document.length) :
    v'.Covers m o ↔ v.Covers m o := by
  have hbelow : ¬ decide (v.document.length + 1 ≤ o) = true := by simpa using ho
  rw [h.sound'.covers_iff_starts, h.sound.covers_iff_starts, h.map_start_rows,
    lastWhile?_append_singleton (p := fun start => decide (start ≤ o)) hbelow]

/-- A row has the inlays that it had, the last one included. -/
theorem rowInlays_perm (h : v.GainsLine v') (hrow : v.rows[m]? = some row)
    (hrow' : v'.rows[m]? = some row') :
    ((v'.rowInlays m row').map Inlay.unnamed).Perm ((v.rowInlays m row).map Inlay.unnamed) := by
  have hcovers : v'.inlays.inlays.filter (fun i => decide (v'.Covers m i.offset)) =
      v'.inlays.inlays.filter (fun i => decide (v.Covers m i.offset)) :=
    List.filter_congr fun i hi => decide_eq_decide.mpr (h.covers_iff (h.offset_le hi))
  have hunnamed (inlays : List Inlay) :
      (inlays.filter fun i => decide (v.Covers m i.offset)).map Inlay.unnamed =
        (inlays.map Inlay.unnamed).filter fun i => decide (v.Covers m i.offset) := by
    rw [List.filter_map]
    rfl
  rw [rowInlays_eq_filter hrow', rowInlays_eq_filter hrow, hcovers, hunnamed, hunnamed]
  exact h.inlays_perm.filter _

/-! ### How far down the rows lie -/

theorem rowBottom_eq (h : v.GainsLine v') (hrow : v.rows[m]? = some row)
    (hrow' : v'.rows[m]? = some row') (hy : row'.y = row.y) :
    v'.rowBottom m = v.rowBottom m := by
  have hband : bandHeight v.settings.lineHeight.toNat (v'.rowInlays m row') =
      bandHeight v.settings.lineHeight.toNat (v.rowInlays m row) := by
    rw [← bandHeight_map_unnamed, bandHeight_perm (h.rowInlays_perm hrow hrow'),
      bandHeight_map_unnamed]
  rw [h.sound'.rowBottom_eq hrow', h.sound.rowBottom_eq hrow, h.settings_eq, hband, hy]

/-- **Rows lie where they lay.** -/
theorem y_eq (h : v.GainsLine v') (hrow : v.rows[m]? = some row)
    (hrow' : v'.rows[m]? = some row') : row'.y = row.y := by
  induction m generalizing row row' with
  | zero => rw [h.sound.y_zero hrow, h.sound'.y_zero hrow']
  | succ m ih =>
    obtain ⟨above, habove⟩ := exists_getElem?_of_le (Nat.le_succ m) hrow
    obtain ⟨above', habove'⟩ := exists_getElem?_of_le (Nat.le_succ m) hrow'
    have hbottom := h.rowBottom_eq habove habove' (ih habove habove')
    rwa [rowBottom_of_some hrow, rowBottom_of_some hrow'] at hbottom

/-- **The one more row lies at the bottom of the others.** -/
theorem map_y_rows (h : v.GainsLine v') :
    v'.rows.map Row.y = v.rows.map Row.y ++ [v.totalHeight] := by
  obtain ⟨front, back, hrows', hfront, hback⟩ := List.map_eq_append_iff.mp h.map_start_rows
  obtain ⟨extra, rfl, -⟩ := List.map_eq_singleton_iff.mp hback
  have hlength : front.length = v.rows.length := by simpa using congrArg List.length hfront
  have hold (m : Nat) (hm : m < front.length) : v'.rows[m]? = some front[m] := by
    rw [hrows', List.getElem?_append_left hm, List.getElem?_eq_getElem hm]
  have hfrontY : front.map Row.y = v.rows.map Row.y := by
    refine List.ext_getElem (by simpa using hlength) fun m hm hm' => ?_
    rw [List.length_map] at hm hm'
    rw [List.getElem_map, List.getElem_map]
    exact h.y_eq (List.getElem?_eq_getElem hm') (hold m hm)
  have hextraY : extra.y = v.totalHeight := by
    obtain ⟨k, last, hlast, hnone, -⟩ := h.sound.exists_last
    have hk := (List.getElem?_eq_some_iff.mp hlast).1
    have hk' := List.getElem?_eq_none_iff.mp hnone
    have hextra : v'.rows[k + 1]? = some extra := by
      have hindex : k + 1 = front.length := by omega
      rw [hrows', hindex, List.getElem?_concat_length]
    have hlast' := hold k (by omega)
    have hbottom := h.rowBottom_eq hlast hlast' (h.y_eq hlast hlast')
    rwa [rowBottom_of_some hextra, rowBottom_of_none hnone] at hbottom
  rw [hrows', List.map_append, hfrontY, List.map_singleton, hextraY]

end GainsLine

/-- A view that is built anew with a line feed behind the text has one line more. -/
theorem Sound.gainsLine (h : v.Sound) (h' : v'.Sound)
    (hcr : v.document.text.getLast? ≠ some '\r')
    (hrebuilt : v.RebuiltOver (v.document.text ++ ['\n']) v') : v.GainsLine v' where
  sound := h
  sound' := h'
  document := Document.gainsLine_of_text_eq hcr hrebuilt.text_eq
  settings_eq := hrebuilt.settings_eq
  regions_eq := hrebuilt.regions_eq
  inlays_perm := hrebuilt.inlays_perm

/-! ### The main statement -/

/-- **The total height is the top of the row that would follow.** Let the text of a view end with
anything but a carriage return, and let a line feed be put behind it. There is a view over that
text with the same settings, fold regions and inlays, and every such view has exactly one row more.
Its other rows begin at the same offsets and have the same tops, and the top of the one more row is
the total height of the view without it, also where 32 bits cannot express how far down it lies. -/
theorem totalHeight_is_top_of_row_below (h : v.Reachable)
    (hcr : v.document.text.getLast? ≠ some '\r') :
    (∃ w : View, w.Reachable ∧ v.RebuiltOver (v.document.text ++ ['\n']) w) ∧
      ∀ w : View, w.Reachable → v.RebuiltOver (v.document.text ++ ['\n']) w →
        w.rowCount = v.rowCount + 1 ∧
          w.rows.map Row.start = v.rows.map Row.start ++ [v.document.length + 1] ∧
          w.rows.map Row.y = v.rows.map Row.y ++ [v.totalHeight] := by
  constructor
  · refine h.exists_rebuilt ?_
    rw [v.document.length_eq, List.length_append]
    exact Nat.le_add_right _ _
  · intro w hw hrebuilt
    have hgains := h.sound.gainsLine hw.sound hcr hrebuilt
    exact ⟨hgains.rowCount_eq, hgains.map_start_rows, hgains.map_y_rows⟩

/-- Three lines, the last of which is folded away. The block inlay in the first line takes up most
of what 32 bits can express, and those at the end of the text do not fit any more. -/
def brimful : View :=
  threeLines.afterAll [.addInlay 1 4294967280 .block, .addFold 4 8 true, .addInlay 8 3 .block,
    .addInlay 8 30 .inline]

/-- The same with a line feed behind the text, and with the inlays added in another order. -/
def brimfulAndLine : View :=
  threeLines.afterAll [.setText (brimful.document.text ++ ['\n']), .addInlay 8 30 .inline,
    .addInlay 1 4294967280 .block, .addInlay 8 3 .block, .addFold 4 8 true]

theorem row_below_brimful :
    brimful.Reachable ∧ brimfulAndLine.Reachable ∧
      brimful.rows.map Row.y = [0, 4294967290] ∧ brimful.totalHeight = 4294967295 ∧
      brimfulAndLine.rows.map Row.start = [0, 3, 9] ∧
      brimfulAndLine.rows.map Row.y = [0, 4294967290, 4294967295] := by
  have hreachable : brimful.Reachable := reachable_threeLines _
  have hreachable' : brimfulAndLine.Reachable := reachable_threeLines _
  have hrebuilt : brimful.RebuiltOver (brimful.document.text ++ ['\n']) brimfulAndLine :=
    ⟨by decide +kernel, by decide +kernel, by decide +kernel, by decide +kernel⟩
  have hstart : brimful.rows.map Row.start = [0, 3] := by decide +kernel
  have hy : brimful.rows.map Row.y = [0, 4294967290] := by decide +kernel
  have htotal : brimful.totalHeight = 4294967295 := by decide +kernel
  have hlength : brimful.document.length = 8 := by decide +kernel
  obtain ⟨-, hbelow⟩ := totalHeight_is_top_of_row_below hreachable (by decide +kernel)
  obtain ⟨-, hstart', hy'⟩ := hbelow brimfulAndLine hreachable' hrebuilt
  rw [hstart, hlength] at hstart'
  rw [hy, htotal] at hy'
  exact ⟨hreachable, hreachable', hy, htotal, hstart', hy'⟩

end View

end RowLayout
