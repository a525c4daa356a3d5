import RowLayout.Proofs.OutermostFolds

/-!
# The innermost region at an offset

Folds are opened and closed at an offset, and what is meant is the innermost region there. It is
looked up as the last region of the list that holds the offset. That is right because of the order
of the list and because regions never cross: a region that lies in another one comes after it, also
if the two begin or stop together, so behind the last one that holds the offset there is none that
could lie in it.

Both ends of a region belong to it. Where one region has ended and the next one begins, the offset
between them is in both, and neither lies in the other. Then the second one is taken.

## Main definitions

* `FoldRegion.IsInnermostAt` — a region holds an offset, and no other one that does lies in it
* `FoldSet.ChangesInnermost` — what comes of a change at an offset

## Main results

* `FoldSet.offset_cases` — the last region that holds an offset is looked up and changed
* `FoldSet.Sound.innermostAt?_eq_upTo` — no region that starts behind the offset need be looked at
* `FoldSet.Sound.encloses_or_touches` — the other regions that hold it lie around that region, or
  have ended where it starts
* `FoldSet.offset_edits_change_innermost` — opening and closing at an offset, after every run
-/

namespace RowLayout

/-- If an element passes a test, there is a last one that does. -/
theorem exists_split_last {α : Type} {p : α → Prop} {xs : List α} (h : ∃ x ∈ xs, p x) :
    ∃ before x after, xs = before ++ x :: after ∧ p x ∧ ∀ y ∈ after, ¬ p y := by
  induction xs with
  | nil => simp at h
  | cons a rest ih =>
    by_cases hrest : ∃ x ∈ rest, p x
    · obtain ⟨before, x, after, rfl, hx, hafter⟩ := ih hrest
      exact ⟨a :: before, x, after, rfl, hx, hafter⟩
    · have ha : p a := by
        obtain ⟨x, hx, hpx⟩ := h
        rcases List.mem_cons.mp hx with rfl | hx
        · exact hpx
        · exact absurd ⟨x, hx, hpx⟩ hrest
      exact ⟨[], a, rest, rfl, ha, fun y hy hpy => hrest ⟨y, hy, hpy⟩⟩

namespace FoldRegion

variable {a b : FoldRegion} {o : Nat}

/-- The region holds the offset, and of the other regions of the list that hold it none lies in
this one. -/
def IsInnermostAt (regions : List FoldRegion) (o : Nat) (r : FoldRegion) : Prop :=
  r.Contains o ∧ ∀ other ∈ regions, other.Contains o → r.Encloses other → other = r

/-- The region with another state. -/
def withCollapsed (r : FoldRegion) (collapsed : Bool) : FoldRegion := { r with collapsed }

theorem expand_withCollapsed (r : FoldRegion) (collapsed : Bool) :
    (r.withCollapsed collapsed).expand = r.expand := rfl

/-- A region that leads another one at an offset of both lies around it, or has ended where the
other starts, which is at the offset. -/
theorem Leads.encloses_or_touches (h : a.Leads b) (ha : a.Contains o) (hb : b.Contains o) :
    a.Encloses b ∨ (a.stop = o ∧ b.start = o) := by
  refine h.encloses_or_stop_le.imp_right fun hstop => ?_
  have hupper := ha.2
  have hlower := hb.1
  omega

end FoldRegion

open FoldRegion

namespace FoldSet

variable {s : FoldSet} {r other : FoldRegion} {before after : List FoldRegion} {n o : Nat}

/-! ### The last region that holds an offset -/

theorem innermostAt?_of_split (h : s.regions = before ++ r :: after) (hr : r.Contains o)
    (hafter : ∀ other ∈ after, ¬ other.Contains o) : s.innermostAt? o = some before.length := by
  have hbehind : ((after.zipIdx (before.length + 1)).filter fun e => e.1.Contains o) = [] := by
    refine List.filter_eq_nil_iff.mpr ?_
    rintro ⟨other, i⟩ hother
    simpa using hafter other (List.fst_mem_of_mem_zipIdx hother)
  rw [innermostAt?, h, List.zipIdx_append, List.zipIdx_cons, List.filter_append,
    List.filter_cons_of_pos (by simpa using hr), Nat.zero_add, hbehind, List.getLast?_concat]
  rfl

/-- The look-up may stop at the first region that starts behind the offset, as all that come after
it start there as well. -/
theorem Sound.innermostAt?_eq_upTo (h : s.Sound n) (o : Nat) :
    s.innermostAt? o = (((s.regions.zipIdx.takeWhile (·.1.start ≤ o)).filter
      (·.1.Contains o)).getLast?).map (·.2) := by
  have hstarts : s.regions.Pairwise (·.start ≤ ·.start) :=
    h.laminar.leads.imp fun hab => hab.start_le
  have hordered : s.regions.zipIdx.Pairwise (·.1.start ≤ ·.1.start) := by
    rw [← List.zipIdx_map_fst 0 s.regions, List.pairwise_map] at hstarts
    exact hstarts
  have hbehind : (s.regions.zipIdx.dropWhile (·.1.start ≤ o)).filter (·.1.Contains o) = [] := by
    refine List.filter_eq_nil_iff.mpr fun e he => ?_
    have hstart := ((mem_dropWhile_upTo hordered).mp he).2
    rw [decide_eq_true_eq]
    exact fun hcontains => Nat.not_le.mpr hstart hcontains.1
  have hsplit := List.takeWhile_append_dropWhile (p := (·.1.start ≤ o)) (l := s.regions.zipIdx)
  calc s.innermostAt? o = ((s.regions.zipIdx.filter (·.1.Contains o)).getLast?).map (·.2) := rfl
    _ = _ := by rw [← hsplit, List.filter_append, hbehind, List.append_nil, hsplit]

/-- **At an offset the last region that holds it is looked up and changed,** if there is one. -/
theorem offset_cases (s : FoldSet) (o : Nat) :
    ((∀ r ∈ s.regions, ¬ r.Contains o) ∧ s.regionAt? o = none ∧
        ∀ change, s.updateAt change o = none) ∨
      ∃ before r after, s.regions = before ++ r :: after ∧ r.Contains o ∧
        (∀ other ∈ after, ¬ other.Contains o) ∧ s.regionAt? o = some r ∧
        ∀ change, s.updateAt change o = some (ofRegions (before ++ change r :: after)) := by
  by_cases hsome : ∃ r ∈ s.regions, r.Contains o
  · obtain ⟨before, r, after, hsplit, hr, hafter⟩ := exists_split_last hsome
    have hindex := innermostAt?_of_split hsplit hr hafter
    refine Or.inr ⟨before, r, after, hsplit, hr, hafter, ?_, fun change => ?_⟩
    · rw [regionAt?, hindex, hsplit]
      simp
    · have hmodify : s.regions.modify before.length change = before ++ change r :: after := by
        rw [hsplit, List.modify_eq_take_cons_drop (by simp)]
        simp [List.drop_append]
      rw [updateAt, hindex, Option.map_some, hmodify]
  · have hnone : ∀ r ∈ s.regions, ¬ r.Contains o := fun r hr hcontains =>
      hsome ⟨r, hr, hcontains⟩
    have hindex : s.innermostAt? o = none := by
      rw [innermostAt?, Option.map_eq_none_iff, List.getLast?_eq_none_iff,
        List.filter_eq_nil_iff]
      rintro ⟨r, i⟩ hr
      simpa using hnone r (List.fst_mem_of_mem_zipIdx hr)
    refine Or.inl ⟨hnone, ?_, fun change => ?_⟩
    · rw [regionAt?, hindex, Option.bind_none]
    · rw [updateAt, hindex, Option.map_none]

theorem regionAt?_eq_none_iff : s.regionAt? o = none ↔ ∀ r ∈ s.regions, ¬ r.Contains o := by
  rcases offset_cases s o with ⟨hnone, hregion, -⟩ | ⟨before, r, after, hsplit, hr, -, hregion, -⟩
  · exact iff_of_true hregion hnone
  · refine iff_of_false (by simp [hregion]) fun hnone => hnone r ?_ hr
    simp [hsplit]

/-- **The other regions that hold the offset lie around the one that is looked up,** or have ended
where that one starts. -/
theorem Sound.encloses_or_touches (h : s.Sound n) (hr : s.regionAt? o = some r)
    (hother : other ∈ s.regions) (ho : other.Contains o) :
    other.Encloses r ∨ (other.stop = o ∧ r.start = o) := by
  rcases offset_cases s o with ⟨-, hnone, -⟩ | ⟨before, r', after, hsplit, hr', hafter, hsome, -⟩
  · rw [hnone] at hr
    cases hr
  obtain rfl : r' = r := Option.some.inj (hsome.symm.trans hr)
  have hleads := h.laminar.leads
  rw [hsplit] at hleads hother
  rcases List.mem_append.mp hother with hbefore | hother
  · have hlead := (List.pairwise_append.mp hleads).2.2 other hbefore r' List.mem_cons_self
    exact hlead.encloses_or_touches ho hr'
  · rcases List.mem_cons.mp hother with rfl | hbehind
    · exact Or.inl ⟨Nat.le_refl _, Nat.le_refl _⟩
    · exact absurd ho (hafter other hbehind)

/-- The region that is looked up is an innermost one. -/
theorem Sound.isInnermostAt (h : s.Sound n) (hr : s.regionAt? o = some r) :
    r ∈ s.regions ∧ r.IsInnermostAt s.regions o := by
  obtain ⟨hmem, hcontains⟩ : r ∈ s.regions ∧ r.Contains o := by
    rcases offset_cases s o with ⟨-, hnone, -⟩ | ⟨before, r', after, hsplit, hr', -, hsome, -⟩
    · rw [hnone] at hr
      cases hr
    · obtain rfl : r' = r := Option.some.inj (hsome.symm.trans hr)
      exact ⟨by simp [hsplit], hr'⟩
  refine ⟨hmem, hcontains, fun other hother ho hinside => ?_⟩
  have hsize := h.laminar.nonempty other hother
  rcases h.encloses_or_touches hr hother ho with haround | ⟨hstop, hstart⟩
  · exact h.laminar.eq_of_sameRange hother hmem (haround.sameRange hinside)
  · have hlower := hinside.1
    omega

/-! ### Opening and closing at an offset -/

/-- What comes of a change at an offset by which the region there gets a state, that may depend on
the one it had. If no region holds the offset, nothing is found and nothing changes. Otherwise the
region that is looked up gets the state, the others remain what and where they were, and the
outermost regions are those of the list that comes of it. -/
structure ChangesInnermost (s : FoldSet) (o : Nat) (state : Bool → Bool)
    (outcome : FoldAnswer × FoldSet) : Prop where
  notFound : outcome = (.found false, s) ↔ ∀ r ∈ s.regions, ¬ r.Contains o
  found : ∀ r, s.regionAt? o = some r → ∃ before after, s.regions = before ++ r :: after ∧
    outcome.1 = .found true ∧
    outcome.2.regions = before ++ r.withCollapsed (state r.collapsed) :: after ∧
    outcome.2.outermost = outcome.2.regions.filter fun r => r.IsOutermost outcome.2.regions

theorem Sound.changesInnermost (h : s.Sound n) {change : FoldRegion → FoldRegion}
    {state : Bool → Bool} (hchange : ∀ r, change r = r.withCollapsed (state r.collapsed)) :
    s.ChangesInnermost o state (s.afterFinding (s.updateAt change o)) := by
  rcases offset_cases s o with ⟨hnone, hregion, hupdate⟩ |
    ⟨before, r, after, hsplit, hr, -, hregion, hupdate⟩
  · rw [hupdate change]
    refine ⟨iff_of_true rfl hnone, fun r hr => ?_⟩
    rw [hregion] at hr
    cases hr
  · have hexpand : ∀ r, (change r).expand = r.expand := fun r => by
      rw [hchange, expand_withCollapsed]
    have hsound := h.updateAt hexpand (hupdate change)
    rw [hupdate change]
    constructor
    · refine iff_of_false (fun heq => ?_) fun hnone => hnone r ?_ hr
      · cases congrArg Prod.fst heq
      · simp [hsplit]
    · intro r' hr'
      obtain rfl : r = r' := Option.some.inj (hregion.symm.trans hr')
      refine ⟨before, after, hsplit, rfl, ?_, hsound.outermost_eq_filter⟩
      rw [← hchange]
      rfl

/-! ### The main statement -/

/-- **Changes at an offset are changes of the innermost region there, and of no other.** After every
run of changes a region is found at an offset exactly if one holds it, and then it is one in which
no other region lies that holds the offset: all of these lie around it, or have ended where it
starts. Opening, closing and toggling at the offset give this region its new state. -/
theorem offset_edits_change_innermost (h : s.Reachable) (d : Document) (o : Nat) :
    (s.regionAt? o = none ↔ ∀ r ∈ s.regions, ¬ r.Contains o) ∧
      (∀ r, s.regionAt? o = some r → (r ∈ s.regions ∧ r.IsInnermostAt s.regions o) ∧
        ∀ other ∈ s.regions, other.Contains o →
          other.Encloses r ∨ (other.stop = o ∧ r.start = o)) ∧
      s.ChangesInnermost o (fun _ => true) (s.apply d (.collapseAt o)) ∧
      s.ChangesInnermost o (fun _ => false) (s.apply d (.expandAt o)) ∧
      s.ChangesInnermost o (fun collapsed => !collapsed) (s.apply d (.toggleAt o)) := by
  obtain ⟨n, hsound⟩ := h.sound
  refine ⟨regionAt?_eq_none_iff, ?_, ?_, ?_, ?_⟩
  · intro r hr
    exact ⟨hsound.isInnermostAt hr, fun other => hsound.encloses_or_touches hr⟩
  · exact hsound.changesInnermost fun _ => rfl
  · exact hsound.changesInnermost fun _ => rfl
  · exact hsound.changesInnermost fun _ => rfl

/-- Where two regions of the terraces touch, the second one is found. One of two that stop together
is opened, the inner one. Behind all of them nothing is toggled. -/
theorem innermost_in_terraces :
    terraces.Reachable ∧ terraces.regionAt? 10 = some (.plain 10 20 true) ∧
      (FoldRegion.plain 10 20 true).IsInnermostAt terraces.regions 10 ∧
      terraces.regionAt? 20 = some (.plain 12 20 true) ∧
      (∃ before after, terraces.regions = before ++ .plain 12 20 true :: after ∧
        (terraces.apply (.ofText []) (.expandAt 20)).2.regions =
          before ++ .plain 12 20 false :: after) ∧
      terraces.apply (.ofText []) (.toggleAt 41) = (.found false, terraces) := by
  have hreachable : terraces.Reachable := ⟨_, rfl⟩
  have htouch : terraces.regionAt? 10 = some (.plain 10 20 true) := by decide
  have hinner : terraces.regionAt? 20 = some (.plain 12 20 true) := by decide
  have hat := offset_edits_change_innermost hreachable (.ofText [])
  refine ⟨hreachable, htouch, ((hat 10).2.1 _ htouch).1.2, hinner, ?_, ?_⟩
  · obtain ⟨before, after, hsplit, -, hregions, -⟩ := (hat 20).2.2.2.1.found _ hinner
    exact ⟨before, after, hsplit, hregions⟩
  · exact (hat 41).2.2.2.2.notFound.mpr (by decide)

end FoldSet

end RowLayout
