import RowLayout.Proofs.FoldRuns
import RowLayout.Proofs.InlayRuns
import RowLayout.Proofs.ViewRuns

/-!
# Edits that undo each other

An inlay that was added can be removed again, a fold can be toggled back, and the viewport can be
given the width that it had. Each such pair of edits lays the view out twice and leaves everything
as it was, because the layout follows from what the view is made from, whatever it was before; so
only that has to come back.

Two of these pairs depend on the history of the view. The id of a new inlay must not be that of
another one, or the wrong inlay might be removed. And a region that is toggled must remain the
innermost one at its offset, which is why regions are looked up by their ranges alone.

## Main definitions

* `View.InlaysFollow` — at most one change leads from the inlays of a view to those of another
* `View.withNextId` — a view that gives its next inlay another id

## Main results

* `InlaySet.Numbered.remove_add`, `FoldSet.updateAt_toggle_twice` — the two changes undone
* `View.Reachable.numbered` — ids are not used twice in a view that can be reached
* `View.Sound.relayout_eq` — laying out a sound view anew changes nothing
* `View.Sound.removeInlay_addInlay`, `toggleAt_toggleAt`, `setWidth_setWidth` — each pair of edits
* `View.edits_undone` — all three of them, in every view that can be reached
-/

namespace RowLayout

/-! ### Inlays put in and taken out -/

namespace InlaySet

variable {s : InlaySet}

/-- A new inlay is the only one with its id, so removing it leaves the others where they are. -/
theorem Numbered.remove_add (h : s.Numbered) (offset height : Nat) (kind : InlayKind) :
    (s.add offset height kind).remove s.nextId = some { s with nextId := s.nextId + 1 } := by
  have hfront : ∀ i ∈ s.inlays.takeWhile (·.offset ≤ offset),
      ¬ decide (i.id = s.nextId) = true := by
    intro i hi
    have hold := h.old i ((List.takeWhile_prefix _).mem hi)
    simpa using hold.ne
  have herase : (s.add offset height kind).inlays.eraseP (·.id = s.nextId) = s.inlays := by
    rw [InlaySet.add, insertAfter, List.eraseP_append_right _ hfront,
      List.eraseP_cons_of_pos (by simp), List.takeWhile_append_dropWhile]
  have hany : ((s.add offset height kind).inlays.any fun i => decide (i.id = s.nextId)) = true := by
    simp [InlaySet.add, insertAfter]
  rw [InlaySet.remove, if_pos hany, herase]
  rfl

end InlaySet

/-! ### Regions toggled twice -/

namespace FoldSet

open FoldRegion

variable {s t : FoldSet} {offset n : Nat}

/-- The innermost region at an offset is found by the ranges of the regions. -/
theorem innermostAt?_congr (h : s.regions.map expand = t.regions.map expand) (offset : Nat) :
    s.innermostAt? offset = t.innermostAt? offset := by
  have hranges (u : FoldSet) : u.innermostAt? offset =
      (((u.regions.map expand).zipIdx.filter (·.1.Contains offset)).getLast?).map (·.2) := by
    rw [innermostAt?, List.zipIdx_map, List.filter_map, List.getLast?_map, Option.map_map]
    rfl
  rw [hranges, hranges, h]

/-- **Toggling at an offset twice changes nothing,** as it finds the same region both times. -/
theorem updateAt_toggle_twice (h : s.updateAt toggle offset = some t) :
    t.updateAt toggle offset = some (ofRegions s.regions) := by
  obtain ⟨i, hi, rfl⟩ := Option.map_eq_some_iff.mp h
  have hsame : (ofRegions (s.regions.modify i toggle)).innermostAt? offset = some i := by
    rw [← hi]
    exact innermostAt?_congr (map_expand_modify expand_toggle s.regions i) offset
  have hback : (s.regions.modify i toggle).modify i toggle = s.regions := by
    have hid : toggle ∘ toggle = id := funext toggle_toggle
    rw [List.modify_modify_eq, hid, List.modify_id]
  rw [updateAt, hsame, Option.map_some]
  exact congrArg (fun regions => some (ofRegions regions)) hback

theorem Sound.ofRegions_eq (h : s.Sound n) : ofRegions s.regions = s := by
  rw [ofRegions, ← h.outermost_eq]

end FoldSet

namespace View

variable {v v' : View}

/-! ### The inlays of a view that can be reached -/

/-- The second view has the inlays of the first one, or what a single change makes of them. -/
def InlaysFollow (v w : View) : Prop :=
  w.inlays = v.inlays ∨ ∃ change, w.inlays = (v.inlays.apply change).2

theorem Change.inlaysFollow (h : v.Change v') : v.InlaysFollow v' := by
  cases h with
  | text text => exact Or.inr ⟨.clear, rfl⟩
  | addInlay _ height kind => exact Or.inr ⟨.add _ height kind, rfl⟩
  | @removeInlay id _ hremove => exact Or.inr ⟨.remove id, by rw [InlaySet.apply, hremove]; rfl⟩
  | clearInlays => exact Or.inr ⟨.clear, rfl⟩
  | nothing | settings | addFold | updateFoldAt | updateFolds => exact Or.inl rfl

/-- **An edit of a view makes at most one change to its inlays.** -/
theorem inlaysFollow_apply (v : View) (edit : ViewEdit) : v.InlaysFollow (v.apply edit).view :=
  (v.change_apply edit).inlaysFollow

theorem numbered_afterAll (h : v.inlays.Numbered) (edits : List ViewEdit) :
    (v.afterAll edits).inlays.Numbered := by
  induction edits generalizing v with
  | nil => exact h
  | cons edit edits ih =>
    refine ih ?_
    rcases inlaysFollow_apply v edit with hsame | ⟨change, hchange⟩
    · exact hsame ▸ h
    · exact hchange ▸ h.apply change

/-- **Inlays have ids of their own** in every view that can be reached. -/
theorem Reachable.numbered (h : v.Reachable) : v.inlays.Numbered := by
  obtain ⟨text, settings, start, edits, hstart, rfl⟩ := h
  obtain ⟨-, rfl⟩ := ofText_eq_ok_iff.mp hstart
  exact numbered_afterAll (InlaySet.numbered_of_nil rfl) edits

/-! ### Laying out anew -/

/-- Laying out a sound view anew changes nothing. -/
theorem Sound.relayout_eq (h : v.Sound) : v.relayout = v := by
  have hwrapped : { v with wraps := SoftWrap.ofDocument v.document v.folds v.settings } = v := by
    rw [← h.wraps_eq]
  rw [relayout, hwrapped, ← h.table_eq]

/-- Folds that are used in place of those of a sound view can be changed back. -/
theorem Sound.useFolds_back (h : v.Sound) (folds : FoldSet) :
    (v.useFolds folds).useFolds v.folds = v := h.relayout_eq

/-- Settings that are used in place of those of a sound view can be changed back. -/
theorem Sound.useSettings_back (h : v.Sound) (settings : Settings) :
    (v.useSettings settings).useSettings v.settings = v := h.relayout_eq

/-- The view with another id for its next inlay. -/
def withNextId (v : View) (id : Nat) : View :=
  { v with inlays := { v.inlays with nextId := id } }

/-- The id of the next inlay has no part in the layout. -/
theorem rows_withNextId (v : View) (id : Nat) :
    (v.withNextId id).rows = v.rows ∧ (v.withNextId id).totalHeight = v.totalHeight := ⟨rfl, rfl⟩

/-- Inlays that are used in place of those of a sound view can be changed back, all but the id of
the next one. -/
theorem Sound.useInlays_back (h : v.Sound) (inlays : InlaySet) (id : Nat) :
    (v.useInlays inlays).useInlays { v.inlays with nextId := id } = v.withNextId id :=
  congrArg (withNextId · id) h.relayout_eq

/-! ### The three pairs of edits -/

/-- An inlay that was added can be removed under the id that was answered. -/
theorem Sound.removeInlay_addInlay (h : v.Sound) (hids : v.inlays.Numbered) {offset height id : Nat}
    {kind : InlayKind} (hanswer : (v.apply (.addInlay offset height kind)).answer = .added id) :
    ((v.apply (.addInlay offset height kind)).view.apply (.removeInlay id)).answer = .found true ∧
      ((v.apply (.addInlay offset height kind)).view.apply (.removeInlay id)).view =
        v.withNextId (v.inlays.nextId + 1) := by
  by_cases hoffset : v.document.length < offset
  · simp only [View.apply, View.addInlay, if_pos hoffset, orRefused, unchanged] at hanswer
    cases hanswer
  · have hadd : v.addInlay offset height kind =
        .ok (v.useInlays (v.inlays.add offset height kind)) := if_neg hoffset
    simp only [View.apply, hadd, orRefused, relaid] at hanswer ⊢
    obtain rfl : v.inlays.nextId = id := ViewAnswer.added.inj hanswer
    have hremove : (v.useInlays (v.inlays.add offset height kind)).removeInlay v.inlays.nextId =
        some (v.withNextId (v.inlays.nextId + 1)) := by
      rw [← h.useInlays_back (v.inlays.add offset height kind)]
      exact congrArg (Option.map _) (hids.remove_add offset height kind)
    rw [hremove]
    exact ⟨rfl, rfl⟩

/-- A fold that was toggled is toggled back at the same offset. -/
theorem Sound.toggleAt_toggleAt (h : v.Sound) (offset : Nat) :
    ((v.apply (.toggleAt offset)).view.apply (.toggleAt offset)).answer =
        (v.apply (.toggleAt offset)).answer ∧
      ((v.apply (.toggleAt offset)).view.apply (.toggleAt offset)).view = v := by
  cases hupdate : v.folds.updateAt .toggle offset with
  | none =>
    have hnone : v.apply (.toggleAt offset) = v.unchanged (.found false) := by
      rw [View.apply, View.updateFoldAt, hupdate]
      rfl
    rw [hnone]
    exact ⟨congrArg ViewOutcome.answer hnone, congrArg ViewOutcome.view hnone⟩
  | some folds =>
    have hsome : v.apply (.toggleAt offset) = (v.useFolds folds).relaid (.found true) [] := by
      rw [View.apply, View.updateFoldAt, hupdate]
      rfl
    have hback : (v.useFolds folds).apply (.toggleAt offset) = v.relaid (.found true) [] := by
      have hfolds := FoldSet.updateAt_toggle_twice hupdate
      rw [h.folds.ofRegions_eq] at hfolds
      rw [View.apply, View.updateFoldAt]
      show orNotFound _ ((folds.updateAt .toggle offset).map _) = _
      rw [hfolds, Option.map_some, h.useFolds_back]
      rfl
    have hanswer := congrArg ViewOutcome.answer hback
    rw [hsome]
    exact ⟨hanswer, congrArg ViewOutcome.view hback⟩

/-- The width of the viewport can be changed back. -/
theorem Sound.setWidth_setWidth (h : v.Sound) (width : UInt64) :
    ((v.apply (.setWidth width)).view.apply (.setWidth v.settings.viewportWidth)).view = v := by
  by_cases hwidth : v.settings.viewportWidth = width
  · simp only [View.apply, if_pos hwidth, unchanged, if_true]
  · have hback : ¬ (v.useSettings (v.withWidth width)).settings.viewportWidth =
        v.settings.viewportWidth := fun heq => hwidth heq.symm
    simp only [View.apply, if_neg hwidth, relaid, if_neg hback]
    exact h.useSettings_back (v.withWidth width)

/-- **Edits that are undone leave a view as it was.** In every view that can be reached, an inlay
that was added is found under the id that was answered and can be removed, and then the view is what
it was before, but for the id of the next inlay. Toggling a fold at one offset twice, and changing
the width of the viewport and changing it back, leave the very same view. All of the layout and all
rows come back with it. -/
theorem edits_undone (h : v.Reachable) :
    (∀ (offset height : Nat) (kind : InlayKind) (id : Nat) (v' : View),
      (v.apply (.addInlay offset height kind)).answer = .added id →
      (v.apply (.addInlay offset height kind)).view = v' →
        (v'.apply (.removeInlay id)).answer = .found true ∧
          (v'.apply (.removeInlay id)).view = v.withNextId (v.inlays.nextId + 1) ∧
          (v'.apply (.removeInlay id)).view.rows = v.rows ∧
          (v'.apply (.removeInlay id)).view.totalHeight = v.totalHeight) ∧
      (∀ (offset : Nat) (v' : View), (v.apply (.toggleAt offset)).view = v' →
        (v'.apply (.toggleAt offset)).answer = (v.apply (.toggleAt offset)).answer ∧
          (v'.apply (.toggleAt offset)).view = v) ∧
      ∀ (width : UInt64) (v' : View), (v.apply (.setWidth width)).view = v' →
        (v'.apply (.setWidth v.settings.viewportWidth)).view = v := by
  refine ⟨?_, ?_, ?_⟩
  · rintro offset height kind id v' hanswer rfl
    obtain ⟨hfound, hview⟩ := h.sound.removeInlay_addInlay h.numbered hanswer
    refine ⟨hfound, hview, ?_⟩
    rw [hview]
    exact rows_withNextId v _
  · rintro offset v' rfl
    exact h.sound.toggleAt_toggleAt offset
  · rintro width v' rfl
    exact h.sound.setWidth_setWidth width

/-- Three lines under an open fold, the first two of them under a collapsed one as well, and an
inlay in what that hides. Another inlay was removed. -/
def halfOpen : View :=
  threeLines.afterAll [.addInlay 4 20 .block, .foldLines 0 2 false, .foldLines 0 1 true,
    .addInlay 4 30 .inline, .removeInlay 0]

theorem undone_in_halfOpen :
    halfOpen.rows.map Row.start = [0, 6] ∧
      (halfOpen.apply (.addInlay 4 5 .block)).answer = .added 2 ∧
      (halfOpen.afterAll [.addInlay 4 5 .block, .removeInlay 2]).rows = halfOpen.rows ∧
      (halfOpen.afterAll [.toggleAt 4]).rows.map Row.start = [0, 3, 6] ∧
      halfOpen.afterAll [.toggleAt 4, .toggleAt 4] = halfOpen ∧
      (halfOpen.afterAll [.setWidth 1]).rows.map Row.start = [0, 6, 7] ∧
      halfOpen.afterAll [.setWidth 1, .setWidth 2] = halfOpen := by
  obtain ⟨hadd, htoggle, hwidth⟩ := edits_undone (v := halfOpen) (reachable_threeLines _)
  have hanswer : (halfOpen.apply (.addInlay 4 5 .block)).answer = .added 2 := by decide +kernel
  refine ⟨by decide +kernel, hanswer, (hadd 4 5 .block 2 _ hanswer rfl).2.2.1, by decide +kernel,
    (htoggle 4 _ rfl).2, by decide +kernel, ?_⟩
  exact hwidth 1 _ rfl

end View

end RowLayout
