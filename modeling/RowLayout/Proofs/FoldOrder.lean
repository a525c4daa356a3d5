import RowLayout.Proofs.OutermostFolds

/-!
# The order in which folds are added

A fold set keeps its regions in one order, whatever the order in which they came. Whether a region
is taken in depends on each of the others alone, and on both sides in the same way: two regions can
stand in one family or they cannot, and it does not matter which of them comes first. So regions
that can all stand together are taken in in every order, and as a sound fold set is known by the
regions that it has, it comes out the same each time.

For the same reason a region leaves nothing behind. A range belongs to one region only, so removing
it takes away the region that is meant, and what is left is known by the other regions.

## Main definitions

* `FoldRegion.Compatible` — two regions can stand in one family
* `FoldSet.addAll` — adding regions one after the other

## Main results

* `FoldSet.Sound.eq_of_perm` — sound fold sets that have the same regions are the same
* `FoldSet.Sound.exists_addAll` — regions that can stand together are all taken in
* `FoldSet.Sound.remove_of_perm` — removing a region leaves the others
* `FoldSet.folds_known_by_regions` — the order of additions, and removals, in every fold set
-/

namespace RowLayout

namespace FoldRegion

variable {a b : FoldRegion}

/-- The regions can stand in one family: their ranges differ, and they do not tangle. -/
def Compatible (a b : FoldRegion) : Prop := ¬ a.SameRange b ∧ ¬ a.Tangles b

theorem compatible_iff : a.Compatible b ↔ ¬ a.SameRange b ∧ ¬ a.Crosses b := by
  rw [Compatible, crosses_iff_tangles]

instance (a b : FoldRegion) : Decidable (a.Compatible b) :=
  decidable_of_iff _ compatible_iff.symm

theorem Compatible.symm (h : a.Compatible b) : b.Compatible a := by
  obtain ⟨hsame, hcrosses⟩ := compatible_iff.mp h
  refine compatible_iff.mpr ⟨fun hback => hsame ⟨hback.1.symm, hback.2.symm⟩, fun hback => ?_⟩
  exact hcrosses (crosses_comm.mp hback)

/-- Regions in order can stand together. -/
theorem Leads.compatible (h : a.Leads b) : a.Compatible b :=
  compatible_iff.mpr ⟨h.apart_or_nested.1, h.2⟩

end FoldRegion

open FoldRegion

namespace FoldSet

variable {s t : FoldSet} {r : FoldRegion} {regions others : List FoldRegion} {n m : Nat}

/-- Add regions one after the other to the folds of a text of the given length. A region that is
refused ends it. -/
def addAll (s : FoldSet) (regions : List FoldRegion) (textLength : Nat) :
    Except LayoutError FoldSet :=
  regions.foldlM (fun s r => s.add r textLength) s

/-- **Sound fold sets that have the same regions are the same.** -/
theorem Sound.eq_of_perm (hs : s.Sound n) (ht : t.Sound m) (h : s.regions.Perm t.regions) :
    s = t := by
  refine hs.eq_of_regions_eq ht ?_
  exact hs.laminar.pairwise_precedes.eq_of_mem_iff ht.laminar.pairwise_precedes fun _ => h.mem_iff

/-! ### Additions -/

/-- A region that the set has a place for, in the text, is taken in. -/
theorem Sound.exists_added (h : s.Sound n) (hinside : r.start < r.stop ∧ r.stop ≤ n)
    (hplace : s.Admits r) :
    ∃ t, s.add r n = .ok t ∧ t.Sound n ∧ t.regions.Perm (r :: s.regions) := by
  rcases add_cases s r n with ⟨hrange, -⟩ | ⟨-, hfull, -⟩ | ⟨-, -, hadd⟩
  · omega
  · exact absurd hplace hfull
  · exact ⟨_, hadd, h.add hadd, insertAfter_perm ..⟩

/-- **Regions that can stand together are all taken in,** if the set has a place for each. -/
theorem Sound.exists_addAll (h : s.Sound n)
    (hinside : ∀ r ∈ regions, r.start < r.stop ∧ r.stop ≤ n) (hpair : regions.Pairwise Compatible)
    (hplace : ∀ r ∈ regions, s.Admits r) :
    ∃ t, s.addAll regions n = .ok t ∧ t.Sound n ∧ t.regions.Perm (regions ++ s.regions) := by
  induction regions generalizing s with
  | nil => exact ⟨s, rfl, h, List.Perm.refl _⟩
  | cons r rest ih =>
    obtain ⟨hr, hrest⟩ := List.pairwise_cons.mp hpair
    obtain ⟨added, hadd, hsound, hperm⟩ :=
      h.exists_added (hinside r List.mem_cons_self) (hplace r List.mem_cons_self)
    have hplace' : ∀ r' ∈ rest, added.Admits r' := by
      intro r' hr' other hother
      rcases List.mem_cons.mp (hperm.mem_iff.mp hother) with rfl | hother
      · exact hr r' hr'
      · exact hplace r' (List.mem_cons_of_mem _ hr') other hother
    obtain ⟨t, ht, htsound, htperm⟩ :=
      ih hsound (fun r' hr' => hinside r' (List.mem_cons_of_mem _ hr')) hrest hplace'
    refine ⟨t, ?_, htsound, htperm.trans ?_⟩
    · rw [addAll, List.foldlM_cons, hadd]
      exact ht
    · exact (hperm.append_left rest).trans List.perm_middle

/-- Regions of a text that can stand together make up a fold set. -/
theorem exists_addAll_empty (hinside : ∀ r ∈ regions, r.start < r.stop ∧ r.stop ≤ n)
    (hpair : regions.Pairwise Compatible) :
    ∃ t, empty.addAll regions n = .ok t ∧ t.Sound n ∧ t.regions.Perm regions := by
  have hplace : ∀ r ∈ regions, empty.Admits r := fun _ _ _ hother => absurd hother List.not_mem_nil
  obtain ⟨t, ht, hsound, hperm⟩ := (sound_empty n).exists_addAll hinside hpair hplace
  exact ⟨t, ht, hsound, by simpa [empty] using hperm⟩

/-- Any two regions of a sound fold set can stand together. -/
theorem Sound.pairwise_compatible (h : s.Sound n) : s.regions.Pairwise Compatible :=
  h.laminar.leads.imp fun hab => hab.compatible

/-! ### Removals -/

/-- **Removing a region leaves the others.** -/
theorem Sound.remove_of_perm (h : s.Sound n) (hperm : s.regions.Perm (r :: others))
    (d : Document) :
    ∃ t, s.apply d (.remove r.start r.stop) = (.found true, t) ∧ t.Sound n ∧
      t.regions.Perm others := by
  have hr : r ∈ s.regions := hperm.mem_iff.mpr List.mem_cons_self
  have hany : (s.regions.any fun other => other.start = r.start ∧ other.stop = r.stop) = true :=
    List.any_eq_true.mpr ⟨r, hr, by simp⟩
  -- the range that is looked for is that of `r` alone
  obtain ⟨found, before, after, -, hrange, hsplit, herase⟩ :=
    List.exists_of_eraseP (p := fun other => other.start = r.start ∧ other.stop = r.stop) hr
      (by simp)
  have hsame : found.SameRange r := by simpa [SameRange] using hrange
  obtain rfl : found = r := h.laminar.eq_of_sameRange (by simp [hsplit]) hr hsame
  have hremove : s.remove found.start found.stop = some (ofRegions (before ++ after)) := by
    rw [FoldSet.remove, if_pos hany, herase]
  refine ⟨ofRegions (before ++ after), by rw [FoldSet.apply, hremove]; rfl, h.remove hremove, ?_⟩
  refine (List.perm_cons found).mp (List.perm_middle.symm.trans ?_)
  rw [← hsplit]
  exact hperm

/-! ### The main statement -/

/-- **A fold set is known by its regions.** Regions of a text that can stand together are taken in
one after the other in every order, and the fold set that comes of it is always the same. In every
fold set that a run of changes leads to, removing a region that has just been added gives back the
set as it was, and removing any of its regions gives the set to which the additions of all others
lead, in whatever order. -/
theorem folds_known_by_regions :
    (∀ (regions : List FoldRegion) (n : Nat), (∀ r ∈ regions, r.start < r.stop ∧ r.stop ≤ n) →
        regions.Pairwise Compatible →
        ∃ t : FoldSet, t.regions.Perm regions ∧
          ∀ reordered : List FoldRegion, reordered.Perm regions →
            empty.addAll reordered n = .ok t) ∧
      (∀ (s : FoldSet) (d : Document) (r : FoldRegion) (n : Nat), s.Reachable →
        (s.apply d (.add r n)).1 = .added →
        (s.apply d (.add r n)).2.apply d (.remove r.start r.stop) = (.found true, s)) ∧
      ∀ (s : FoldSet) (d : Document) (r : FoldRegion) (others : List FoldRegion), s.Reachable →
        s.regions.Perm (r :: others) →
        ∃ t : FoldSet, s.apply d (.remove r.start r.stop) = (.found true, t) ∧
          ∀ n : Nat, (∀ other ∈ others, other.stop ≤ n) → empty.addAll others n = .ok t := by
  refine ⟨?_, ?_, ?_⟩
  · intro regions n hinside hpair
    obtain ⟨t, -, ht, hperm⟩ := exists_addAll_empty hinside hpair
    refine ⟨t, hperm, fun reordered hreordered => ?_⟩
    have hpair' : reordered.Pairwise Compatible :=
      (hreordered.pairwise_iff fun hab => hab.symm).mpr hpair
    obtain ⟨t', hadd, ht', hperm'⟩ :=
      exists_addAll_empty (fun r hr => hinside r (hreordered.mem_iff.mp hr)) hpair'
    rw [hadd, ht'.eq_of_perm ht (hperm'.trans (hreordered.trans hperm.symm))]
  · intro s d r n hs hadded
    obtain ⟨k, hsound⟩ := hs.sound
    rcases apply_add_cases d s r n with ⟨-, happly⟩ | ⟨-, -, happly⟩ | ⟨-, -, happly⟩
    · rw [happly] at hadded
      cases hadded
    · rw [happly] at hadded
      cases hadded
    · obtain ⟨k', hsound'⟩ := hsound.apply d (.add r n)
      have hperm : (s.apply d (.add r n)).2.regions.Perm (r :: s.regions) := by
        rw [happly]
        exact insertAfter_perm ..
      obtain ⟨t, hremove, ht, hback⟩ := hsound'.remove_of_perm hperm d
      rw [hremove, ht.eq_of_perm hsound hback]
  · intro s d r others hs hperm
    obtain ⟨k, hsound⟩ := hs.sound
    obtain ⟨t, hremove, ht, hothers⟩ := hsound.remove_of_perm hperm d
    refine ⟨t, hremove, fun n hn => ?_⟩
    have hpair : others.Pairwise Compatible :=
      (hothers.pairwise_iff fun hab => hab.symm).mp ht.pairwise_compatible
    have hinside : ∀ other ∈ others, other.start < other.stop ∧ other.stop ≤ n :=
      fun other hother =>
        ⟨ht.laminar.nonempty other (hothers.mem_iff.mpr hother), hn other hother⟩
    obtain ⟨t', hadd, ht', hperm'⟩ := exists_addAll_empty hinside hpair
    rw [hadd, ht'.eq_of_perm ht (hperm'.trans hothers.symm)]

/-- Regions that begin together, stop together and touch. -/
def nestedRegions : List FoldRegion :=
  [.plain 0 40 false, .plain 12 20 true, .plain 0 10 true, .plain 10 20 false]

theorem nestedRegions_reordered :
    (∀ r ∈ nestedRegions, r.start < r.stop ∧ r.stop ≤ 40) ∧ nestedRegions.Pairwise Compatible ∧
      empty.addAll nestedRegions 40 = empty.addAll nestedRegions.reverse 40 ∧
      brackets.Reachable ∧ (brackets.apply (.ofText []) (.add (.plain 10 16 true) 16)).1 = .added ∧
      (brackets.apply (.ofText []) (.add (.plain 10 16 true) 16)).2.apply (.ofText [])
        (.remove 10 16) = (.found true, brackets) ∧
      (brackets.apply (.ofText []) (.remove 0 3)).1 = .found true ∧
      empty.addAll [.plain 20 30 false, .plain 12 14 true, .plain 10 20 true] 30 =
        .ok (brackets.apply (.ofText []) (.remove 0 3)).2 := by
  have hinside : ∀ r ∈ nestedRegions, r.start < r.stop ∧ r.stop ≤ 40 := by decide
  have hpair : nestedRegions.Pairwise Compatible := by decide
  have hreachable : brackets.Reachable := ⟨_, rfl⟩
  have hadded : (brackets.apply (.ofText []) (.add (.plain 10 16 true) 16)).1 = .added := by decide
  obtain ⟨hordered, hadd, hremove⟩ := folds_known_by_regions
  obtain ⟨t, -, ht⟩ := hordered nestedRegions 40 hinside hpair
  obtain ⟨u, hu, hothers⟩ := hremove brackets (.ofText []) (.plain 0 3 true)
    [.plain 20 30 false, .plain 12 14 true, .plain 10 20 true] hreachable (by decide)
  refine ⟨hinside, hpair, ?_, hreachable, hadded, hadd _ _ _ _ hreachable hadded, ?_, ?_⟩
  · rw [ht _ (List.Perm.refl _), ht _ (List.reverse_perm _)]
  · exact congrArg Prod.fst hu
  · exact (hothers 30 (by decide)).trans (congrArg (Except.ok ∘ Prod.snd) hu.symm)

end FoldSet

end RowLayout
