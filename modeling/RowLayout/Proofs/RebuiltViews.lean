import RowLayout.Proofs.FoldOrder
import RowLayout.Proofs.UndoneEdits

/-!
# Views built anew

Whatever run of edits a view comes from, another run leads to the same folds and inlays without
any detour: over a text that is at least as long, all regions are added one after the other, and
then all inlays. Nothing of this is refused. The regions can stand together as they do in the view
already, in whatever order they come, and both regions and inlays lie within the text.

A region is added through a view with the usual placeholder. So the one thing that has to be known
of the run behind the view is that it never gave a region another one.

## Main definitions

* `Inlay.unnamed` — an inlay whatever its id
* `View.RebuiltOver` — a view has the settings, folds and inlays of another one, over some text

## Main results

* `View.Reachable.plain` — every region of a view has the usual placeholder
* `View.Reachable.exists_rebuilt` — a view can be built anew over every text that is long enough
-/

namespace RowLayout

open FoldRegion

/-! ### Regions with the usual placeholder -/

namespace FoldSet

variable {s t : FoldSet} {r : FoldRegion} {n : Nat}

/-- Every region has the usual placeholder. -/
def Plain (s : FoldSet) : Prop := ∀ r ∈ s.regions, r.placeholder = defaultPlaceholder

theorem plain_empty : empty.Plain := fun _ hr => absurd hr List.not_mem_nil

theorem Plain.add (h : s.Plain) (hr : r.placeholder = defaultPlaceholder)
    (hadd : s.add r n = .ok t) : t.Plain := by
  rw [FoldSet.add] at hadd
  split at hadd
  · cases hadd
  · split at hadd
    · cases hadd
    · cases hadd
      intro other hother
      rcases mem_insertAfter.mp hother with rfl | hother
      · exact hr
      · exact h other hother

/-- Opening and closing regions leaves them their placeholders. -/
theorem Plain.of_map_expand (h : s.Plain) (hsame : t.regions.map expand = s.regions.map expand) :
    t.Plain := by
  have hexpanded : ∀ r ∈ s.regions.map expand, r.placeholder = defaultPlaceholder :=
    List.forall_mem_map.mpr h
  rw [← hsame] at hexpanded
  exact List.forall_mem_map.mp hexpanded

section Updates

variable {change : FoldRegion → FoldRegion} (hchange : ∀ r, (change r).expand = r.expand)
include hchange

theorem Plain.updateAt {offset : Nat} (h : s.Plain) (hupdate : s.updateAt change offset = some t) :
    t.Plain := by
  obtain ⟨i, -, rfl⟩ := Option.map_eq_some_iff.mp hupdate
  exact h.of_map_expand (map_expand_modify hchange s.regions i)

theorem Plain.updateAll (h : s.Plain) : (s.updateAll change).Plain :=
  h.of_map_expand (map_expand_map hchange s.regions)

end Updates

end FoldSet

namespace View

variable {v v' w : View}

/-- An edit of a view adds no region with another placeholder. -/
theorem Change.plain (hchange : v.Change v') (h : v.folds.Plain) : v'.folds.Plain := by
  cases hchange with
  | text text => exact FoldSet.plain_empty
  | addFold hplain hadd => exact h.add hplain hadd
  | updateFoldAt hexpand hupdate => exact h.updateAt hexpand hupdate
  | updateFolds hexpand => exact h.updateAll hexpand
  | nothing | settings | addInlay | removeInlay | clearInlays => exact h

/-- **Every region of a view that can be reached has the usual placeholder.** -/
theorem Reachable.plain (h : v.Reachable) : v.folds.Plain := by
  obtain ⟨text, settings, start, edits, hstart, rfl⟩ := h
  obtain ⟨-, rfl⟩ := ofText_eq_ok_iff.mp hstart
  have hplain : (fresh text settings).folds.Plain := FoldSet.plain_empty
  generalize fresh text settings = v at hplain
  induction edits generalizing v with
  | nil => exact hplain
  | cons edit edits ih => exact ih _ ((v.change_apply edit).plain hplain)

end View

/-! ### Folds and inlays added one after the other -/

/-- The edit that adds the region to a view. -/
def FoldRegion.addEdit (r : FoldRegion) : ViewEdit := .addFold r.start r.stop r.collapsed

/-- The edit that adds the inlay to a view, under whatever id comes next. -/
def Inlay.addEdit (i : Inlay) : ViewEdit := .addInlay i.offset i.height i.kind

/-- The inlay whatever its id. -/
def Inlay.unnamed (i : Inlay) : Inlay := { i with id := 0 }

namespace InlaySet

/-- Add inlays one after the other, under the ids that come next. -/
def addAll (s : InlaySet) (inlays : List Inlay) : InlaySet :=
  inlays.foldl (fun s i => s.add i.offset i.height i.kind) s

theorem addAll_perm (inlays : List Inlay) (s : InlaySet) :
    ((s.addAll inlays).inlays.map Inlay.unnamed).Perm
      (inlays.map Inlay.unnamed ++ s.inlays.map Inlay.unnamed) := by
  induction inlays generalizing s with
  | nil => exact List.Perm.refl _
  | cons i rest ih =>
    have hadded : ((s.add i.offset i.height i.kind).inlays.map Inlay.unnamed).Perm
        (i.unnamed :: s.inlays.map Inlay.unnamed) := (insertAfter_perm ..).map Inlay.unnamed
    exact (ih _).trans ((hadded.append_left _).trans List.perm_middle)

end InlaySet

namespace View

variable {v w : View} {text : List Char}

/-- The second view is over the text, with the settings, the fold regions and the inlays of the
first. Inlays may have other ids, and those at the same offset may stand in another order. -/
structure RebuiltOver (v : View) (text : List Char) (w : View) : Prop where
  text_eq : w.document.text = text
  settings_eq : w.settings = v.settings
  regions_eq : w.folds.regions = v.folds.regions
  inlays_perm : (w.inlays.inlays.map Inlay.unnamed).Perm (v.inlays.inlays.map Inlay.unnamed)

theorem afterAll_append (v : View) (edits later : List ViewEdit) :
    v.afterAll (edits ++ later) = (v.afterAll edits).afterAll later := List.foldl_append

/-- Laying out a view for one set of folds leaves nothing behind when it is laid out for another. -/
theorem useFolds_useFolds (w : View) (folds later : FoldSet) :
    (w.useFolds folds).useFolds later = w.useFolds later := rfl

theorem useInlays_useInlays (w : View) (inlays later : InlaySet) :
    (w.useInlays inlays).useInlays later = w.useInlays later := rfl

/-- Regions that the folds of a view take in are added to the view. -/
theorem Sound.afterAll_addFolds (h : w.Sound) {regions : List FoldRegion} {folds : FoldSet}
    (hplain : ∀ r ∈ regions, r.placeholder = defaultPlaceholder)
    (hadd : w.folds.addAll regions w.document.length = .ok folds) :
    w.afterAll (regions.map addEdit) = w.useFolds folds := by
  induction regions generalizing w with
  | nil =>
    obtain rfl : w.folds = folds := Except.ok.inj hadd
    exact h.relayout_eq.symm
  | cons r rest ih =>
    obtain ⟨hr, hrest⟩ := List.forall_mem_cons.mp hplain
    rw [FoldSet.addAll, List.foldlM_cons] at hadd
    cases hfirst : w.folds.add r w.document.length with
    | error e =>
      rw [hfirst] at hadd
      cases hadd
    | ok added =>
      rw [hfirst] at hadd
      have hregion : FoldRegion.plain r.start r.stop r.collapsed = r := by
        rw [FoldRegion.plain, ← hr]
      have happly : (w.apply r.addEdit).view = w.useFolds added := by
        rw [FoldRegion.addEdit, View.apply, View.addFold, hregion, hfirst]
        rfl
      calc w.afterAll ((r :: rest).map addEdit)
          = (w.apply r.addEdit).view.afterAll (rest.map addEdit) := rfl
        _ = (w.useFolds added).afterAll (rest.map addEdit) := by rw [happly]
        _ = (w.useFolds added).useFolds folds := ih (h.useFolds (h.folds.add hfirst)) hrest hadd
        _ = w.useFolds folds := useFolds_useFolds w added folds

/-- Inlays that are anchored in the text are added to a view. -/
theorem Sound.afterAll_addInlays (h : w.Sound) {inlays : List Inlay}
    (hwithin : ∀ i ∈ inlays, i.offset ≤ w.document.length) :
    w.afterAll (inlays.map Inlay.addEdit) = w.useInlays (w.inlays.addAll inlays) := by
  induction inlays generalizing w with
  | nil => exact h.relayout_eq.symm
  | cons i rest ih =>
    obtain ⟨hi, hrest⟩ := List.forall_mem_cons.mp hwithin
    have happly : (w.apply i.addEdit).view =
        w.useInlays (w.inlays.add i.offset i.height i.kind) := by
      rw [Inlay.addEdit, View.apply, View.addInlay, if_neg (Nat.not_lt.mpr hi)]
      rfl
    calc w.afterAll ((i :: rest).map Inlay.addEdit)
        = (w.apply i.addEdit).view.afterAll (rest.map Inlay.addEdit) := rfl
      _ = (w.useInlays (w.inlays.add i.offset i.height i.kind)).afterAll
            (rest.map Inlay.addEdit) := by rw [happly]
      _ = (w.useInlays (w.inlays.add i.offset i.height i.kind)).useInlays
            ((w.inlays.add i.offset i.height i.kind).addAll rest) :=
          ih (h.useInlays (h.inlays.add hi i.height i.kind)) hrest
      _ = w.useInlays (w.inlays.addAll (i :: rest)) := useInlays_useInlays w _ _

/-- **A view can be built anew,** over every text that is as long as its own or longer. -/
theorem Reachable.exists_rebuilt (h : v.Reachable) (hlength : v.document.length ≤ text.length) :
    ∃ w, w.Reachable ∧ v.RebuiltOver text w := by
  have hsound := h.sound
  have hstart : ofText text v.settings = .ok (fresh text v.settings) :=
    ofText_eq_ok_iff.mpr ⟨hsound.settings, rfl⟩
  have hinside : ∀ r ∈ v.folds.regions, r.start < r.stop ∧ r.stop ≤ text.length := fun r hr =>
    ⟨hsound.folds.laminar.nonempty r hr, (hsound.folds.laminar.within r hr).trans hlength⟩
  obtain ⟨folds, hfolds, hfoldsSound, hperm⟩ :=
    FoldSet.exists_addAll_empty hinside hsound.folds.pairwise_compatible
  obtain rfl : folds = v.folds := hfoldsSound.eq_of_perm hsound.folds hperm
  have hfolded : (fresh text v.settings).afterAll (v.folds.regions.map addEdit) =
      (fresh text v.settings).useFolds v.folds :=
    (sound_ofText hstart).afterAll_addFolds h.plain hfolds
  have hwithin : ∀ i ∈ v.inlays.inlays, i.offset ≤ text.length := fun i hi =>
    (hsound.inlays.within i hi).trans hlength
  have hrebuilt : (fresh text v.settings).afterAll
      (v.folds.regions.map addEdit ++ v.inlays.inlays.map Inlay.addEdit) =
        ((fresh text v.settings).useFolds v.folds).useInlays
          (InlaySet.empty.addAll v.inlays.inlays) := by
    rw [afterAll_append, hfolded]
    exact ((sound_ofText hstart).useFolds hfoldsSound).afterAll_addInlays hwithin
  have hinlays : ((InlaySet.empty.addAll v.inlays.inlays).inlays.map Inlay.unnamed).Perm
      (v.inlays.inlays.map Inlay.unnamed) := by
    simpa only [InlaySet.empty, List.map_nil, List.append_nil] using
      InlaySet.addAll_perm v.inlays.inlays .empty
  exact ⟨_, ⟨text, v.settings, _, _, hstart, hrebuilt⟩, rfl, rfl, rfl, hinlays⟩

end View

end RowLayout
