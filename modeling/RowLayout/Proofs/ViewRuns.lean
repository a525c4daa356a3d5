import RowLayout.Proofs.FoldFamily
import RowLayout.Proofs.RowStarts
import RowLayout.Proofs.WrapPlaces
import RowLayout.View.Edit

/-!
# Runs of a view

A view keeps soft wraps and a row table beside what they are made from, and every edit decides for
itself whether they have to be made anew. What is kept is nevertheless the same as if it were made
on the spot: an edit either changes nothing at all or ends by laying the view out.

## Main definitions

* `View.Change` — what an edit can make of a view
* `View.Sound` — the cached layout is fresh, and folds and inlays lie within the text
* `View.Reachable` — a view that a run of edits leads to
* `ViewAnswer.Failed` — the answers that say that nothing was done

## Main results

* `View.change_apply` — an edit makes one change to a view, or none
* `View.Sound.apply`, `View.Reachable.sound` — edits keep a view sound, and so do runs
* `View.Sound.regular` — the layout of a sound view is regular
* `View.layout_never_stale` — the cached layout is fresh after every run, and failed edits
  change nothing
-/

namespace RowLayout

/-! ### Inlays within a text -/

namespace InlaySet

variable {s t : InlaySet} {textLength : Nat}

/-- The inlays are ordered by offset and anchored in a text of the given length. -/
structure Sound (textLength : Nat) (s : InlaySet) : Prop where
  ordered : s.inlays.Pairwise (·.offset ≤ ·.offset)
  within : ∀ i ∈ s.inlays, i.offset ≤ textLength

theorem sound_of_nil (h : s.inlays = []) : s.Sound textLength where
  ordered := h ▸ List.Pairwise.nil
  within := by simp [h]

theorem sound_clear (s : InlaySet) : s.clear.Sound textLength := sound_of_nil rfl

theorem Sound.add {offset : Nat} (h : s.Sound textLength) (hoffset : offset ≤ textLength)
    (height : Nat) (kind : InlayKind) : (s.add offset height kind).Sound textLength where
  ordered := by
    refine pairwise_insertAfter h.ordered (fun i hi => ?_) (fun i hi => ?_)
    · simpa using List.mem_takeWhile_imp hi
    · exact ((mem_dropWhile_upTo h.ordered).mp hi).2.le
  within i hi := by
    rcases mem_insertAfter.mp hi with rfl | hi
    · exact hoffset
    · exact h.within i hi

theorem Sound.remove {id : Nat} (h : s.Sound textLength) (hremove : s.remove id = some t) :
    t.Sound textLength := by
  rw [InlaySet.remove] at hremove
  split at hremove
  · cases hremove
    exact ⟨h.ordered.sublist List.eraseP_sublist,
      fun i hi => h.within i (List.eraseP_sublist.subset hi)⟩
  · cases hremove

end InlaySet

/-! ### Answers -/

/-- The answers which say that nothing was done: a refusal, and that there was nothing to
change. -/
def ViewAnswer.Failed : ViewAnswer → Prop
  | .refused _ => True
  | .found changed => changed = false
  | .done | .accepted | .added _ => False

namespace View

variable {v v' : View}

/-! ### What an edit can do -/

/-- What an edit can make of a view: nothing, or one change to what the view is made from, after
which it is laid out anew. -/
inductive Change (v : View) : View → Prop
  | nothing : Change v v
  | text (text : List Char) : Change v (v.setText text)
  | settings {settings : Settings}
    (hvalid : v.settings.validate = .ok () → settings.validate = .ok ()) :
    Change v (v.useSettings settings)
  | addFold {r : FoldRegion} {folds : FoldSet}
    (hplain : r.placeholder = FoldRegion.defaultPlaceholder)
    (hadd : v.folds.add r v.document.length = .ok folds) : Change v (v.useFolds folds)
  | updateFoldAt {change : FoldRegion → FoldRegion} {offset : Nat} {folds : FoldSet}
    (hchange : ∀ r, (change r).expand = r.expand)
    (hupdate : v.folds.updateAt change offset = some folds) : Change v (v.useFolds folds)
  | updateFolds {change : FoldRegion → FoldRegion} (hchange : ∀ r, (change r).expand = r.expand) :
    Change v (v.updateFolds change)
  | addInlay {offset : Nat} (hoffset : offset ≤ v.document.length) (height : Nat)
    (kind : InlayKind) : Change v (v.useInlays (v.inlays.add offset height kind))
  | removeInlay {id : Nat} {inlays : InlaySet} (hremove : v.inlays.remove id = some inlays) :
    Change v (v.useInlays inlays)
  | clearInlays : Change v (v.useInlays v.inlays.clear)

section Outcomes

variable {P : View → Prop} (h : P v)
include h

/-- What holds of a view and of what an accepted change makes of it holds after the change. -/
theorem view_orRefused {result : Except LayoutError View}
    (hresult : ∀ v', result = .ok v' → P v') (answer : ViewAnswer) (before : List LogEvent) :
    P (v.orRefused answer before result).view := by
  cases result with
  | error e => exact h
  | ok v' => exact hresult v' rfl

theorem view_orNotFound {result : Option View} (hresult : ∀ v', result = some v' → P v') :
    P (v.orNotFound result).view := by
  cases result with
  | none => exact h
  | some v' => exact hresult v' rfl

end Outcomes

theorem change_addFold {r : FoldRegion} (hplain : r.placeholder = FoldRegion.defaultPlaceholder)
    (hadd : (v.folds.add r v.document.length).map v.useFolds = .ok v') : v.Change v' := by
  cases hfolds : v.folds.add r v.document.length with
  | error e =>
    rw [hfolds] at hadd
    cases hadd
  | ok folds =>
    rw [hfolds] at hadd
    cases hadd
    exact .addFold hplain hfolds

theorem change_foldLines {first last : Nat} {collapsed : Bool}
    (hadd : v.foldLines first last collapsed = .ok v') : v.Change v' := by
  simp only [View.foldLines, FoldSet.addLines] at hadd
  split at hadd
  · cases hadd
  · exact change_addFold rfl hadd

theorem change_updateFoldAt {change : FoldRegion → FoldRegion} {offset : Nat}
    (hchange : ∀ r, (change r).expand = r.expand)
    (hupdate : v.updateFoldAt change offset = some v') : v.Change v' := by
  obtain ⟨folds, hfolds, rfl⟩ := Option.map_eq_some_iff.mp hupdate
  exact .updateFoldAt hchange hfolds

theorem change_addInlay {offset height : Nat} {kind : InlayKind}
    (hadd : v.addInlay offset height kind = .ok v') : v.Change v' := by
  rw [View.addInlay] at hadd
  split at hadd
  · cases hadd
  · next hoffset =>
    cases hadd
    exact .addInlay (Nat.le_of_not_lt hoffset) height kind

/-- **An edit makes one change to a view,** or none. -/
theorem change_apply (v : View) (edit : ViewEdit) : v.Change (v.apply edit).view := by
  have hnothing : v.Change v := .nothing
  cases edit with
  | setText text => exact .text text
  | setSettings settings =>
    simp only [View.apply]
    split
    · exact hnothing
    · next hvalid =>
      split
      · exact hnothing
      · exact .settings fun _ => hvalid
  | setWidth width =>
    simp only [View.apply]
    split
    · exact hnothing
    · exact .settings id
  | addFold start stop collapsed =>
    exact view_orRefused hnothing (fun _ => change_addFold rfl) _ _
  | foldLines first last collapsed =>
    exact view_orRefused hnothing (fun _ => change_foldLines) _ _
  | collapseAt offset => exact view_orNotFound hnothing fun _ => change_updateFoldAt fun _ => rfl
  | expandAt offset => exact view_orNotFound hnothing fun _ => change_updateFoldAt fun _ => rfl
  | toggleAt offset => exact view_orNotFound hnothing fun _ => change_updateFoldAt fun _ => rfl
  | collapseAll => exact .updateFolds fun _ => rfl
  | expandAll => exact .updateFolds fun _ => rfl
  | addInlay offset height kind =>
    exact view_orRefused hnothing (fun _ => change_addInlay) _ _
  | removeInlay id =>
    refine view_orNotFound hnothing fun v' hremoved => ?_
    obtain ⟨inlays, hinlays, rfl⟩ := Option.map_eq_some_iff.mp hremoved
    exact .removeInlay hinlays
  | clearInlays =>
    simp only [View.apply]
    split
    · exact hnothing
    · exact .clearInlays

/-! ### Sound views -/

/-- The soft wraps and the row table are those that would be made now, and folds and inlays lie
within the text. -/
structure Sound (v : View) : Prop where
  wraps_eq : v.wraps = SoftWrap.ofDocument v.document v.folds v.settings
  table_eq : v.table = .ofLayout v.layout
  folds : v.folds.Sound v.document.length
  inlays : v.inlays.Sound v.document.length
  settings : v.settings.validate = .ok ()

/-- A view that has just been laid out is sound if what it was made from is. -/
theorem sound_relayout (hfolds : v.folds.Sound v.document.length)
    (hinlays : v.inlays.Sound v.document.length) (hsettings : v.settings.validate = .ok ()) :
    v.relayout.Sound := ⟨rfl, rfl, hfolds, hinlays, hsettings⟩

theorem ofText_eq_ok_iff {text : List Char} {settings : Settings} :
    ofText text settings = .ok v ↔ settings.validate = .ok () ∧ fresh text settings = v := by
  rw [ofText]
  cases settings.validate with
  | error e => simp [bind, Except.bind]
  | ok => simp [bind, Except.bind, pure, Except.pure]

theorem sound_ofText {text : List Char} {settings : Settings}
    (h : ofText text settings = .ok v) : v.Sound := by
  obtain ⟨hvalid, rfl⟩ := ofText_eq_ok_iff.mp h
  exact sound_relayout (FoldSet.sound_empty _) (InlaySet.sound_of_nil rfl) hvalid

/-! ### Sound views after an edit -/

theorem Sound.setText (h : v.Sound) (text : List Char) : (v.setText text).Sound :=
  sound_relayout (FoldSet.sound_empty _) (InlaySet.sound_clear _) h.settings

theorem Sound.useSettings {settings : Settings} (h : v.Sound)
    (hsettings : settings.validate = .ok ()) : (v.useSettings settings).Sound :=
  sound_relayout h.folds h.inlays hsettings

theorem Sound.useFolds {folds : FoldSet} (h : v.Sound) (hfolds : folds.Sound v.document.length) :
    (v.useFolds folds).Sound := sound_relayout hfolds h.inlays h.settings

theorem Sound.useInlays {inlays : InlaySet} (h : v.Sound)
    (hinlays : inlays.Sound v.document.length) : (v.useInlays inlays).Sound :=
  sound_relayout h.folds hinlays h.settings

theorem Sound.change (h : v.Sound) (hchange : v.Change v') : v'.Sound := by
  cases hchange with
  | nothing => exact h
  | text text => exact h.setText text
  | settings hvalid => exact h.useSettings (hvalid h.settings)
  | addFold _ hadd => exact h.useFolds (h.folds.add hadd)
  | updateFoldAt hchange hupdate => exact h.useFolds (h.folds.updateAt hchange hupdate)
  | updateFolds hchange => exact h.useFolds (h.folds.updateAll hchange)
  | addInlay hoffset height kind => exact h.useInlays (h.inlays.add hoffset height kind)
  | removeInlay hremove => exact h.useInlays (h.inlays.remove hremove)
  | clearInlays => exact h.useInlays (InlaySet.sound_clear _)

theorem Sound.addInlay {offset height : Nat} {kind : InlayKind} (h : v.Sound)
    (hadd : v.addInlay offset height kind = .ok v') : v'.Sound := h.change (change_addInlay hadd)

/-- **An edit keeps a view sound.** -/
theorem Sound.apply (h : v.Sound) (edit : ViewEdit) : (v.apply edit).view.Sound :=
  h.change (v.change_apply edit)

/-! ### Runs of edits -/

theorem Sound.afterAll (h : v.Sound) (edits : List ViewEdit) : (v.afterAll edits).Sound := by
  induction edits generalizing v with
  | nil => exact h
  | cons edit edits ih => exact ih (h.apply edit)

/-- A run of edits leads to the view from a view of some text. -/
def Reachable (v : View) : Prop :=
  ∃ text settings start edits, ofText text settings = .ok start ∧ start.afterAll edits = v

/-- **Every view that can be reached is sound.** -/
theorem Reachable.sound (h : v.Reachable) : v.Sound := by
  obtain ⟨text, settings, start, edits, hstart, rfl⟩ := h
  exact (sound_ofText hstart).afterAll edits

theorem Sound.mem_wraps (h : v.Sound) {w : SoftWrap} :
    w ∈ v.layout.wraps ↔ w ∈ SoftWrap.ofDocument v.document v.folds v.settings := by
  rw [← h.wraps_eq]
  rfl

/-- The layout of a sound view is regular. -/
theorem Sound.regular (h : v.Sound) : v.layout.Regular where
  folds := h.folds.pairwise_start
  wraps := by
    show v.wraps.Pairwise _
    rw [h.wraps_eq]
    exact SoftWrap.pairwise_ofDocument ..
  inlays := h.inlays.ordered
  wraps_pos w hw := SoftWrap.pos_of_mem_ofDocument (h.mem_wraps.mp hw)
  wraps_shown w hw := by
    by_contra hhidden
    have hhides := h.folds.hides_iff.mpr hhidden
    obtain ⟨-, hshown⟩ := SoftWrap.mem_ofDocument.mp (h.mem_wraps.mp hw)
    rw [hshown] at hhides
    cases hhides

/-- Sound views that agree in what they are made from have the same layout. -/
theorem Sound.layout_eq (h : v.Sound) (h' : v'.Sound) (htext : v.document.text = v'.document.text)
    (hsettings : v.settings = v'.settings) (hregions : v.folds.regions = v'.folds.regions)
    (hinlays : v.inlays.inlays = v'.inlays.inlays) : v.layout = v'.layout := by
  have hdocument : v.document = v'.document := by
    rw [v.document.eq_ofText, v'.document.eq_ofText, htext]
  have hfolds : v.folds = v'.folds := h.folds.eq_of_regions_eq h'.folds hregions
  have hwraps : v.wraps = v'.wraps := by
    rw [h.wraps_eq, h'.wraps_eq, hdocument, hfolds, hsettings]
  simp only [layout, hdocument, hfolds, hwraps, hinlays, hsettings]

/-- The rows of a sound view follow from its layout. -/
theorem Sound.rows_congr (h : v.Sound) (h' : v'.Sound) (hlayout : v.layout = v'.layout) :
    v.rows = v'.rows ∧ v.rowCount = v'.rowCount ∧ v.totalHeight = v'.totalHeight := by
  have htable : v.table = v'.table := by rw [h.table_eq, h'.table_eq, hlayout]
  have hdocument : v.document = v'.document := congrArg Layout.document hlayout
  refine ⟨?_, ?_, ?_⟩
  · simp only [rows, rowsFrom, cursorAt, measures, htable, hdocument, hlayout]
  · rw [rowCount, rowCount, htable]
  · rw [totalHeight, totalHeight, htable]

/-! ### Edits that fail -/

theorem view_orRefused_of_failed {answer : ViewAnswer} {before : List LogEvent}
    {result : Except LayoutError View} (hanswer : ¬ answer.Failed)
    (h : (v.orRefused answer before result).answer.Failed) :
    (v.orRefused answer before result).view = v := by
  cases result with
  | error e => rfl
  | ok v' => exact absurd h hanswer

theorem view_orNotFound_of_failed {result : Option View}
    (h : (v.orNotFound result).answer.Failed) : (v.orNotFound result).view = v := by
  cases result with
  | none => rfl
  | some v' => cases h

/-- **An edit that fails leaves the view as it was.** Edits whose answer can only be that they
were carried out are none of these. -/
theorem view_apply_of_failed {edit : ViewEdit} (h : (v.apply edit).answer.Failed) :
    (v.apply edit).view = v := by
  cases edit with
  | setText text => cases h
  | setSettings settings =>
    simp only [apply] at h ⊢
    split at h
    · rfl
    · split at h <;> cases h
  | setWidth width =>
    simp only [apply] at h
    split at h <;> cases h
  | addFold start stop collapsed => exact view_orRefused_of_failed id h
  | foldLines first last collapsed => exact view_orRefused_of_failed id h
  | collapseAt offset => exact view_orNotFound_of_failed h
  | expandAt offset => exact view_orNotFound_of_failed h
  | toggleAt offset => exact view_orNotFound_of_failed h
  | collapseAll => cases h
  | expandAll => cases h
  | addInlay offset height kind => exact view_orRefused_of_failed id h
  | removeInlay id => exact view_orNotFound_of_failed h
  | clearInlays =>
    simp only [apply] at h
    split at h <;> cases h

/-! ### The main statement -/

/-- **The cached layout of a view is never stale.** After every run of edits the soft wraps and
the row table are those made anew, and all folds and inlays lie within the text; so views that
agree in text, settings, fold regions and inlays have the same rows, whatever their histories. An
edit that fails changes nothing. -/
theorem layout_never_stale :
    (∀ v : View, v.Reachable →
      v.wraps = SoftWrap.ofDocument v.document v.folds v.settings ∧
        v.table = .ofLayout v.layout ∧
        (∀ r ∈ v.folds.regions, r.start < r.stop ∧ r.stop ≤ v.document.length) ∧
        ∀ i ∈ v.inlays.inlays, i.offset ≤ v.document.length) ∧
      (∀ v v' : View, v.Reachable → v'.Reachable → v.document.text = v'.document.text →
        v.settings = v'.settings → v.folds.regions = v'.folds.regions →
        v.inlays.inlays = v'.inlays.inlays →
        v.rows = v'.rows ∧ v.rowCount = v'.rowCount ∧ v.totalHeight = v'.totalHeight) ∧
      ∀ (v : View) (edit : ViewEdit), (v.apply edit).answer.Failed → (v.apply edit).view = v := by
  refine ⟨fun v hv => ?_, fun v v' hv hv' htext hsettings hregions hinlays => ?_, ?_⟩
  · have h := hv.sound
    exact ⟨h.wraps_eq, h.table_eq,
      fun r hr => ⟨h.folds.laminar.nonempty r hr, h.folds.laminar.within r hr⟩, h.inlays.within⟩
  · exact hv.sound.rows_congr hv'.sound
      (hv.sound.layout_eq hv'.sound htext hsettings hregions hinlays)
  · exact fun v edit h => view_apply_of_failed h

/-- Three lines, in rows of two cells. -/
def threeLines : View :=
  fresh ['a', 'b', '\n', 'c', 'd', '\n', 'e', 'f'] { lineHeight := 10, viewportWidth := 2 }

theorem reachable_threeLines (edits : List ViewEdit) : (threeLines.afterAll edits).Reachable :=
  ⟨_, _, threeLines, edits, ofText_eq_ok_iff.mpr ⟨rfl, rfl⟩, rfl⟩

/-- Two ways to fold the first two lines, and a fold that would cross theirs. -/
theorem rows_of_threeLines_folded :
    (threeLines.afterAll [.foldLines 0 1 true]).rows =
        (threeLines.afterAll [.addInlay 3 20 .block, .addFold 0 5 true, .removeInlay 0]).rows ∧
      ((threeLines.afterAll [.foldLines 0 1 true]).apply (.addFold 4 7 true)).answer =
        .refused (.overlappingFold 4 7) ∧
      ((threeLines.afterAll [.foldLines 0 1 true]).apply (.addFold 4 7 true)).view =
        threeLines.afterAll [.foldLines 0 1 true] := by
  have hrefused : ((threeLines.afterAll [.foldLines 0 1 true]).apply (.addFold 4 7 true)).answer =
      .refused (.overlappingFold 4 7) := by decide
  refine ⟨?_, hrefused, layout_never_stale.2.2 _ _ (by rw [hrefused]; trivial)⟩
  exact (layout_never_stale.2.1 _ _ (reachable_threeLines _) (reachable_threeLines _)
    (by decide) (by decide) (by decide) (by decide)).1

end View

end RowLayout
