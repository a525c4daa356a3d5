import RowLayout.Proofs.Scan

/-!
# Families of folds

The regions of a fold set never cross: of two regions the later one lies in the earlier one or
begins where that has ended. Every change keeps it so, because an addition that would break it is
refused and all other changes leave the ranges alone.

The layout reads nothing but the outermost collapsed regions. As the family has no crossings these
lie one behind the other, and whatever a collapsed region hides, however deep it is nested, the
outermost region around it hides as well.

## Main definitions

* `FoldRegion.Leads` — one region may stand before another
* `Laminar` — the regions of a list do so in order, and lie in a text
* `FoldSet.Sound` — a fold set whose outermost regions are those of a laminar family

## Main results

* `FoldSet.Sound.add`, `Sound.updateAt`, `Sound.updateAll` — changes keep a fold set sound
* `FoldSet.Sound.shown_outermost` — the outermost regions hide what any collapsed region hides
* `FoldSet.Sound.hides_iff` — so does the look-up that reads only one of them
-/

namespace RowLayout

namespace FoldRegion

variable {a b c r : FoldRegion}

/-- One region may stand before another: it precedes it, and they do not cross. -/
def Leads (a b : FoldRegion) : Prop := a.Precedes b ∧ ¬ a.Crosses b

theorem Precedes.trans (hab : a.Precedes b) (hbc : b.Precedes c) : a.Precedes c := by
  simp only [Precedes] at *
  omega

/-- Two regions are in one order or the other, unless they have the same range. -/
theorem precedes_of_not (h : ¬ a.Precedes b) (hne : ¬ a.SameRange b) : b.Precedes a := by
  simp only [Precedes, SameRange] at *
  omega

/-- A region lies in one that leads it, or begins where that has ended. -/
theorem Leads.encloses_or_stop_le (h : a.Leads b) : a.Encloses b ∨ a.stop ≤ b.start := by
  obtain ⟨hprecedes, hcrosses⟩ := h
  simp only [Precedes, Crosses, Encloses] at *
  omega

theorem Leads.start_le (h : a.Leads b) : a.start ≤ b.start := by
  rcases h.1 with h | h <;> omega

/-- What a region hides is hidden by all that enclose it. -/
theorem Encloses.hides {o : Nat} (h : a.Encloses b) (ho : b.Hides o) : a.Hides o := by
  simp only [Encloses, Hides] at *
  omega

end FoldRegion

open FoldRegion

/-! ### Laminar families -/

/-- The regions of a list stand in order, without crossings, and each of them covers something of
a text of the given length. -/
structure Laminar (textLength : Nat) (regions : List FoldRegion) : Prop where
  leads : regions.Pairwise Leads
  nonempty : ∀ r ∈ regions, r.start < r.stop
  within : ∀ r ∈ regions, r.stop ≤ textLength

namespace Laminar

variable {textLength : Nat} {regions : List FoldRegion} {r : FoldRegion}

theorem nil (textLength : Nat) : Laminar textLength [] where
  leads := List.Pairwise.nil
  nonempty := by simp
  within := by simp

theorem sublist {kept : List FoldRegion} (h : Laminar textLength regions)
    (hkept : kept.Sublist regions) : Laminar textLength kept where
  leads := h.leads.sublist hkept
  nonempty r hr := h.nonempty r (hkept.subset hr)
  within r hr := h.within r (hkept.subset hr)

/-- A region that crosses and repeats no other one has a place in the family. -/
theorem insertAfter (h : Laminar textLength regions) (hnonempty : r.start < r.stop)
    (hwithin : r.stop ≤ textLength)
    (hfree : ∀ other ∈ regions, ¬ other.Crosses r ∧ ¬ other.SameRange r) :
    Laminar textLength (insertAfter (·.Precedes r) r regions) := by
  have hstretch : regions.Pairwise fun a b =>
      decide (b.Precedes r) = true → decide (a.Precedes r) = true := by
    refine h.leads.imp fun {a b} hab hb => ?_
    simp only [decide_eq_true_eq] at hb ⊢
    exact hab.1.trans hb
  refine ⟨pairwise_insertAfter h.leads (fun other hother => ?_) (fun other hother => ?_), ?_, ?_⟩
  · have hmem := (List.takeWhile_prefix _).mem hother
    have hprecedes : other.Precedes r := by simpa using List.mem_takeWhile_imp hother
    exact ⟨hprecedes, (hfree other hmem).1⟩
  · rw [dropWhile_eq_filter hstretch, List.mem_filter] at hother
    obtain ⟨hmem, hother⟩ := hother
    obtain ⟨hcrosses, hsame⟩ := hfree other hmem
    exact ⟨precedes_of_not (by simpa using hother) hsame, fun h => hcrosses (crosses_comm.mp h)⟩
  · intro other hother
    rcases mem_insertAfter.mp hother with rfl | hother
    · exact hnonempty
    · exact h.nonempty other hother
  · intro other hother
    rcases mem_insertAfter.mp hother with rfl | hother
    · exact hwithin
    · exact h.within other hother

/-- Whether the regions of a family are collapsed makes no difference. -/
theorem map_expand_iff :
    Laminar textLength (regions.map expand) ↔ Laminar textLength regions := by
  have hleads : (regions.map expand).Pairwise Leads ↔ regions.Pairwise Leads := List.pairwise_map
  constructor
  · rintro ⟨h, hnonempty, hwithin⟩
    exact ⟨hleads.mp h, List.forall_mem_map.mp hnonempty, List.forall_mem_map.mp hwithin⟩
  · rintro ⟨h, hnonempty, hwithin⟩
    exact ⟨hleads.mpr h, List.forall_mem_map.mpr hnonempty, List.forall_mem_map.mpr hwithin⟩

end Laminar

/-! ### Outermost regions -/

section Outermost

variable {textLength : Nat} {last r : FoldRegion} {regions : List FoldRegion}

theorem outermostAfter_sublist (last : Option FoldRegion) (regions : List FoldRegion) :
    (outermostAfter last regions).Sublist regions := by
  induction regions generalizing last with
  | nil => exact List.Sublist.slnil
  | cons r rest ih =>
    rw [outermostAfter]
    split
    · exact (ih last).cons r
    · exact (ih (some r)).cons_cons r

/-- What is kept after a region begins where that has ended. -/
theorem stop_le_of_mem_outermostAfter (h : Laminar textLength (last :: regions)) :
    ∀ r ∈ outermostAfter (some last) regions, last.stop ≤ r.start := by
  intro kept hkept
  induction regions with
  | nil => simp [outermostAfter] at hkept
  | cons r rest ih =>
    obtain ⟨hlast, hrest⟩ := List.pairwise_cons.mp h.leads
    rw [outermostAfter, Option.any_some] at hkept
    split at hkept
    · exact ih (h.sublist (List.Sublist.cons_cons _ (List.sublist_cons_self ..))) hkept
    · next hencloses =>
      have hstop : last.stop ≤ r.start :=
        (hlast r List.mem_cons_self).encloses_or_stop_le.resolve_left (by simpa using hencloses)
      rcases List.mem_cons.mp hkept with rfl | hkept
      · exact hstop
      · have hmem := (outermostAfter_sublist _ _).subset hkept
        exact hstop.trans ((List.pairwise_cons.mp hrest).1 kept hmem).start_le

/-- The regions kept lie one behind the other. -/
theorem pairwise_outermostAfter (last : Option FoldRegion) (h : Laminar textLength regions) :
    (outermostAfter last regions).Pairwise (·.stop ≤ ·.start) := by
  induction regions generalizing last with
  | nil => exact List.Pairwise.nil
  | cons r rest ih =>
    have hrest := h.sublist (List.sublist_cons_self r rest)
    rw [outermostAfter]
    split
    · exact ih last hrest
    · exact List.pairwise_cons.mpr ⟨stop_le_of_mem_outermostAfter h, ih (some r) hrest⟩

/-- Every region is kept, or enclosed by the one kept last before it. -/
theorem enclosed_of_mem (last : Option FoldRegion) (hr : r ∈ regions) :
    (∃ top ∈ last, top.Encloses r) ∨ ∃ top ∈ outermostAfter last regions, top.Encloses r := by
  induction regions generalizing last with
  | nil => simp at hr
  | cons first rest ih =>
    rw [outermostAfter]
    split
    · next hencloses =>
      rcases List.mem_cons.mp hr with rfl | hr
      · exact Or.inl (by simpa [Option.any_eq_true] using hencloses)
      · exact ih last hr
    · rcases List.mem_cons.mp hr with rfl | hr
      · exact Or.inr ⟨r, List.mem_cons_self, Nat.le_refl _, Nat.le_refl _⟩
      · rcases ih (some first) hr with ⟨top, htop, hencloses⟩ | ⟨top, htop, hencloses⟩
        · obtain rfl : first = top := Option.some.inj htop
          exact Or.inr ⟨first, List.mem_cons_self, hencloses⟩
        · exact Or.inr ⟨top, List.mem_cons_of_mem _ htop, hencloses⟩

end Outermost

/-! ### Sound fold sets -/

namespace FoldSet

variable {s t : FoldSet} {r : FoldRegion} {textLength : Nat}

/-- The regions are a laminar family in a text of the given length, and the outermost regions
are up to date. -/
structure Sound (textLength : Nat) (s : FoldSet) : Prop where
  laminar : Laminar textLength s.regions
  outermost_eq : s.outermost = outermostCollapsed s.regions

theorem sound_empty (textLength : Nat) : empty.Sound textLength := ⟨.nil textLength, rfl⟩

theorem sound_ofRegions {regions : List FoldRegion} (h : Laminar textLength regions) :
    (ofRegions regions).Sound textLength := ⟨h, rfl⟩

/-- Sound fold sets with the same regions are the same. -/
theorem Sound.eq_of_regions_eq {n : Nat} (hs : s.Sound textLength) (ht : t.Sound n)
    (h : s.regions = t.regions) : s = t := by
  have houtermost : s.outermost = t.outermost := by rw [hs.outermost_eq, ht.outermost_eq, h]
  obtain ⟨regions, outermost⟩ := s
  simp_all

/-- What is added to a sound fold set is neither empty nor reaches past the text, and crosses and
repeats nothing, or it is refused. -/
theorem Sound.add (h : s.Sound textLength) (hadd : s.add r textLength = .ok t) :
    t.Sound textLength := by
  rw [FoldSet.add] at hadd
  split at hadd
  · cases hadd
  · next hrange =>
    split at hadd
    · cases hadd
    · next hfree =>
      cases hadd
      have hfree : ∀ other ∈ s.regions, ¬ other.Crosses r ∧ ¬ other.SameRange r := by
        simpa [not_or] using hfree
      exact sound_ofRegions (h.laminar.insertAfter (by omega) (by omega) hfree)

section Updates

variable {change : FoldRegion → FoldRegion} (hchange : ∀ r, (change r).expand = r.expand)
include hchange

theorem map_expand_map (regions : List FoldRegion) :
    (regions.map change).map expand = regions.map expand := by
  simp [hchange]

theorem map_expand_modify (regions : List FoldRegion) (i : Nat) :
    (regions.modify i change).map expand = regions.map expand := by
  induction regions generalizing i with
  | nil => simp
  | cons r rest ih => cases i <;> simp [hchange, ih]

/-- Opening and closing a region keeps a fold set sound. -/
theorem Sound.updateAt {offset : Nat} (h : s.Sound textLength)
    (hupdate : s.updateAt change offset = some t) : t.Sound textLength := by
  obtain ⟨i, -, rfl⟩ := Option.map_eq_some_iff.mp hupdate
  refine sound_ofRegions (Laminar.map_expand_iff.mp ?_)
  rw [map_expand_modify hchange]
  exact Laminar.map_expand_iff.mpr h.laminar

/-- Opening and closing all regions keeps a fold set sound. -/
theorem Sound.updateAll (h : s.Sound textLength) : (s.updateAll change).Sound textLength := by
  refine sound_ofRegions (Laminar.map_expand_iff.mp ?_)
  rw [map_expand_map hchange]
  exact Laminar.map_expand_iff.mpr h.laminar

end Updates

/-! ### What a sound fold set hides -/

theorem Sound.mem_regions (h : s.Sound textLength) (hr : r ∈ s.outermost) :
    r ∈ s.regions ∧ r.collapsed = true := by
  rw [h.outermost_eq] at hr
  simpa using (outermostAfter_sublist _ _).subset hr

theorem Sound.pairwise_outermost (h : s.Sound textLength) :
    s.outermost.Pairwise (·.stop ≤ ·.start) :=
  h.outermost_eq ▸ pairwise_outermostAfter none (h.laminar.sublist List.filter_sublist)

theorem Sound.pairwise_start (h : s.Sound textLength) :
    s.outermost.Pairwise (·.start ≤ ·.start) := by
  refine h.pairwise_outermost.imp_of_mem fun {a b} ha _ hab => ?_
  have := h.laminar.nonempty a (h.mem_regions ha).1
  omega

/-- An outermost region has ended where a later one starts. -/
theorem Sound.stop_le_start {a b : FoldRegion} {i k : Nat} (h : s.Sound textLength) (hik : i < k)
    (ha : s.outermost[i]? = some a) (hb : s.outermost[k]? = some b) : a.stop ≤ b.start := by
  obtain ⟨hi, rfl⟩ := List.getElem?_eq_some_iff.mp ha
  obtain ⟨hk, rfl⟩ := List.getElem?_eq_some_iff.mp hb
  exact List.pairwise_iff_getElem.mp h.pairwise_outermost i k hi hk hik

/-- **The outermost regions hide what any collapsed region hides,** however deep it is nested. -/
theorem Sound.shown_outermost (h : s.Sound textLength) {o : Nat} :
    Shown s.outermost o ↔ ∀ r ∈ s.regions, r.collapsed = true → ¬ r.Hides o := by
  constructor
  · intro hshown r hr hcollapsed hhides
    rcases enclosed_of_mem none (List.mem_filter.mpr ⟨hr, hcollapsed⟩) with
      ⟨top, htop, -⟩ | ⟨top, htop, hencloses⟩
    · cases htop
    · exact hshown top (h.outermost_eq ▸ htop) (hencloses.hides hhides)
  · intro hregions top htop
    obtain ⟨hmem, hcollapsed⟩ := h.mem_regions htop
    exact hregions top hmem hcollapsed

/-- The last region that starts before an offset hides it, or none does: the regions before have
ended where that one starts. -/
theorem Sound.hides_iff (h : s.Sound textLength) {o : Nat} :
    s.hides o = true ↔ ¬ Shown s.outermost o := by
  have hbefore := pairwise_before h.pairwise_start o
  rw [hides, lastBefore?, lastRegionBefore?]
  cases hlast : lastWhile? (fun r : FoldRegion => decide (r.start < o)) s.outermost with
  | none =>
    have hnone : Shown s.outermost o := by
      intro r hr hhides
      have := (lastWhile?_eq_none_iff_forall hbefore).mp hlast r hr
      simp [hhides.1] at this
    simpa using hnone
  | some k =>
    obtain ⟨⟨r, hr, hstart⟩, hmax⟩ := (lastWhile?_eq_some_iff_last hbefore).mp hlast
    simp only [Option.bind_some, hr, Option.any_some, decide_eq_true_eq] at hstart ⊢
    constructor
    · exact fun hhides hshown => hshown r (List.mem_of_getElem? hr) hhides
    · intro hnot
      by_contra hhides
      refine hnot fun other hother hother' => ?_
      obtain ⟨i, hi⟩ := List.getElem?_of_mem hother
      rcases Nat.lt_or_eq_of_le (hmax i other hi (by simpa using hother'.1)) with hik | rfl
      · have hstop : other.stop ≤ r.start := h.stop_le_start hik hi hr
        have := hother'.2
        omega
      · exact hhides (Option.some.inj (hi.symm.trans hr) ▸ hother')

end FoldSet

end RowLayout
