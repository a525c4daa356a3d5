import Mathlib.Data.List.Sort
import RowLayout.Proofs.FoldRuns

/-!
# The outermost regions of a fold set

The regions that a fold set keeps for the layout are found in one pass, in which each collapsed
region is compared with nothing but the last one kept, and an offset is looked up by reading a
single one of them. Both are enough because the regions never cross: what is kept are exactly those
collapsed regions that lie in no other collapsed region, whether or not there are open regions
around or between them, and what any collapsed region hides is hidden by the last outermost region
that starts before it.

## Main definitions

* `FoldRegion.IsOutermost` — no other collapsed region of a list encloses a collapsed region

## Main results

* `FoldSet.Sound.mem_outermost_iff` — the regions kept are the outermost ones
* `FoldSet.Sound.outermost_eq_filter` — they stand in the order of the regions
* `FoldSet.outermost_answers_for_all` — what can be read off them after every run of changes
-/

namespace RowLayout

namespace FoldRegion

variable {a b : FoldRegion}

/-- The region is collapsed, and no other collapsed region of the list encloses it. -/
def IsOutermost (regions : List FoldRegion) (r : FoldRegion) : Prop :=
  r.collapsed = true ∧
    ∀ other ∈ regions, other.collapsed = true → other.Encloses r → other = r

instance (regions : List FoldRegion) : DecidablePred (IsOutermost regions) :=
  fun r => inferInstanceAs (Decidable (r.collapsed = true ∧
    ∀ other ∈ regions, other.collapsed = true → other.Encloses r → other = r))

instance : Std.Asymm Precedes where
  asymm a b hab hba := by
    simp only [Precedes] at hab hba
    omega

theorem Encloses.sameRange (hab : a.Encloses b) (hba : b.Encloses a) : a.SameRange b := by
  simp only [Encloses, SameRange] at *
  omega

end FoldRegion

open FoldRegion

theorem Laminar.pairwise_precedes {textLength : Nat} {regions : List FoldRegion}
    (h : Laminar textLength regions) : regions.Pairwise Precedes := h.leads.imp fun hab => hab.1

/-- No two regions of a family have the same range. -/
theorem Laminar.eq_of_sameRange {textLength : Nat} {regions : List FoldRegion} {a b : FoldRegion}
    (h : Laminar textLength regions) (ha : a ∈ regions) (hb : b ∈ regions)
    (hsame : a.SameRange b) : a = b := by
  simp only [SameRange] at hsame
  refine eq_of_pairwise h.pairwise_precedes ha hb ?_ ?_
  all_goals
    simp only [Precedes]
    omega

namespace FoldSet

variable {s : FoldSet} {a b r : FoldRegion} {n o k : Nat}

/-! ### Which regions are kept -/

/-- Of the regions kept, none encloses another. -/
theorem Sound.eq_of_encloses (h : s.Sound n) (ha : a ∈ s.outermost) (hb : b ∈ s.outermost)
    (hab : a.Encloses b) : a = b := by
  have hasize := h.laminar.nonempty a (h.mem_regions ha).1
  have hbsize := h.laminar.nonempty b (h.mem_regions hb).1
  simp only [Encloses] at hab
  exact eq_of_pairwise h.pairwise_outermost ha hb (by omega) (by omega)

/-- Every collapsed region lies in one that is kept. -/
theorem Sound.exists_encloses (h : s.Sound n) (hr : r ∈ s.regions)
    (hcollapsed : r.collapsed = true) : ∃ top ∈ s.outermost, top.Encloses r := by
  rcases enclosed_of_mem none (List.mem_filter.mpr ⟨hr, hcollapsed⟩) with
    ⟨top, htop, -⟩ | ⟨top, htop, hencloses⟩
  · cases htop
  · exact ⟨top, h.outermost_eq ▸ htop, hencloses⟩

/-- **The regions kept are the outermost ones.** -/
theorem Sound.mem_outermost_iff (h : s.Sound n) :
    r ∈ s.outermost ↔ r ∈ s.regions ∧ r.IsOutermost s.regions := by
  constructor
  · intro hr
    obtain ⟨hmem, hcollapsed⟩ := h.mem_regions hr
    refine ⟨hmem, hcollapsed, ?_⟩
    intro other hother hclosed hencloses
    -- what is kept around the other region encloses this one too, so it is this one
    obtain ⟨top, htop, haround⟩ := h.exists_encloses hother hclosed
    obtain rfl : top = r := h.eq_of_encloses htop hr (haround.trans hencloses)
    exact h.laminar.eq_of_sameRange hother hmem (hencloses.sameRange haround)
  · rintro ⟨hmem, hcollapsed, hlone⟩
    obtain ⟨top, htop, hencloses⟩ := h.exists_encloses hmem hcollapsed
    obtain ⟨htopMem, htopCollapsed⟩ := h.mem_regions htop
    exact hlone top htopMem htopCollapsed hencloses ▸ htop

/-- **The outermost regions stand in the order of all regions.** Two parts of the ordered list of
regions with the same members are the same. -/
theorem Sound.outermost_eq_filter (h : s.Sound n) :
    s.outermost = s.regions.filter fun r => r.IsOutermost s.regions := by
  have hregions := h.laminar.pairwise_precedes
  have hkept : s.outermost.Pairwise Precedes := by
    rw [h.outermost_eq]
    exact hregions.sublist ((outermostAfter_sublist none _).trans List.filter_sublist)
  refine hkept.eq_of_mem_iff (hregions.filter _) ?_
  intro r
  rw [h.mem_outermost_iff, List.mem_filter, decide_eq_true_eq]

/-! ### Looking an offset up -/

theorem Sound.lastBefore?_eq_some_iff (h : s.Sound n) :
    s.lastBefore? o = some k ↔
      (∃ r, s.outermost[k]? = some r ∧ r.start < o) ∧
        ∀ (j : Nat) (r : FoldRegion), s.outermost[j]? = some r → r.start < o → j ≤ k := by
  rw [lastBefore?, lastRegionBefore?,
    lastWhile?_eq_some_iff_last (pairwise_before h.pairwise_start o)]
  simp only [decide_eq_true_eq]

theorem Sound.lastBefore?_eq_none_iff (h : s.Sound n) :
    s.lastBefore? o = none ↔ ∀ r ∈ s.outermost, ¬ r.start < o := by
  rw [lastBefore?, lastRegionBefore?,
    lastWhile?_eq_none_iff_forall (pairwise_before h.pairwise_start o)]
  simp only [decide_eq_true_eq]

/-- **A fold set hides what one of its collapsed regions hides,** nested or not. -/
theorem Sound.hides_iff_exists (h : s.Sound n) :
    s.hides o = true ↔ ∃ r ∈ s.regions, r.collapsed = true ∧ r.Hides o := by
  rw [h.hides_iff, h.shown_outermost]
  simp only [not_forall, Classical.not_not, exists_prop]

/-! ### The main statement -/

/-- **The outermost regions answer for all.** After every run of changes the regions kept are
those collapsed regions that lie in no other collapsed region, in order, and each has ended where
the next one starts. An offset is looked up to the last of them that starts before it, if there is
one, and it is found hidden exactly if some collapsed region, nested or not, hides it. -/
theorem outermost_answers_for_all (h : s.Reachable) :
    s.outermost = s.regions.filter (fun r => r.IsOutermost s.regions) ∧
      s.outermost.Pairwise (·.stop ≤ ·.start) ∧
      ∀ o : Nat,
        (∀ k : Nat, s.lastBefore? o = some k ↔
          (∃ r, s.outermost[k]? = some r ∧ r.start < o) ∧
            ∀ (j : Nat) (r : FoldRegion), s.outermost[j]? = some r → r.start < o → j ≤ k) ∧
        (s.lastBefore? o = none ↔ ∀ r ∈ s.outermost, ¬ r.start < o) ∧
        (s.hides o = true ↔ ∃ r ∈ s.regions, r.collapsed = true ∧ r.Hides o) := by
  obtain ⟨n, hsound⟩ := h.sound
  refine ⟨hsound.outermost_eq_filter, hsound.pairwise_outermost, ?_⟩
  intro o
  refine ⟨?_, ?_, ?_⟩
  · intro k
    exact hsound.lastBefore?_eq_some_iff
  · exact hsound.lastBefore?_eq_none_iff
  · exact hsound.hides_iff_exists

/-- Collapsed regions in an open one with which they share the start and the stop. Two of them
touch, and in one of these lie further ones, the innermost of them behind an open one. -/
def terraces : FoldSet :=
  empty.afterAll ([(0, 40, false), (14, 18, false), (15, 17, true), (12, 20, true), (10, 20, true),
    (0, 10, true), (30, 40, true)].map fun (start, stop, collapsed) =>
      (.ofText [], .add (.plain start stop collapsed) 40))

theorem outermost_of_terraces :
    terraces.Reachable ∧
      terraces.outermost = [.plain 0 10 true, .plain 10 20 true, .plain 30 40 true] ∧
      terraces.outermost = terraces.regions.filter (fun r => r.IsOutermost terraces.regions) ∧
      terraces.lastBefore? 16 = some 1 ∧ terraces.lastBefore? 0 = none ∧
      terraces.hides 16 = true := by
  have hreachable : terraces.Reachable := ⟨_, rfl⟩
  have houtermost :
      terraces.outermost = [.plain 0 10 true, .plain 10 20 true, .plain 30 40 true] := by decide
  obtain ⟨hfilter, -, hlookup⟩ := outermost_answers_for_all hreachable
  refine ⟨hreachable, houtermost, hfilter, by decide, (hlookup 0).2.1.mpr ?_,
    (hlookup 16).2.2.mpr ⟨.plain 15 17 true, by decide, rfl, by decide⟩⟩
  exact fun r _ => Nat.not_lt_zero r.start

end FoldSet

end RowLayout
