import RowLayout.Proofs.FoldFamily

/-!
# Runs of a fold set

A fold set grows and shrinks by changes of nine kinds, and only one of them puts in a new region.
It looks at every region there is and lets the new one in exactly if the family can take it; so
what holds of the first, empty set holds of all. Each addition may name a text length of its own,
and each addition by lines a document of its own: the bound on the regions grows with them, but
how the regions lie to each other does not depend on it.

## Main definitions

* `FoldSet.afterAll`, `FoldSet.Reachable` — the sets that a run of changes leads to
* `FoldRegion.Apart`, `FoldRegion.Tangles` — regions without a common inner offset, and regions
  that have one though neither encloses the other
* `FoldSet.Admits` — what a set demands of a new region

## Main results

* `FoldSet.Sound.apply`, `FoldSet.Reachable.sound` — changes keep a fold set sound, and so do runs
* `FoldSet.add_cases` — the three answers to an addition, each with what it stands for
* `FoldSet.family_and_admission` — the family of every reachable set, and what it admits
-/

namespace RowLayout

namespace FoldRegion

variable {a b : FoldRegion}

/-! ### How two regions lie to each other -/

/-- The regions have no inner offset in common: one of them has ended where the other starts. -/
def Apart (a b : FoldRegion) : Prop := a.stop ≤ b.start ∨ b.stop ≤ a.start

/-- The regions have inner offsets in common, and neither of them encloses the other. -/
def Tangles (a b : FoldRegion) : Prop := ¬ a.Apart b ∧ ¬ a.Encloses b ∧ ¬ b.Encloses a

/-- Regions cross exactly if they overlap without being nested, whether or not they share a
start or a stop. -/
theorem crosses_iff_tangles : a.Crosses b ↔ a.Tangles b := by
  constructor
  · intro h
    simp only [Crosses, Tangles, Apart, Encloses] at *
    omega
  · rintro ⟨hapart, hab, hba⟩
    by_contra hcrosses
    rcases nested_or_apart hcrosses with h | h | h | h
    · exact hab h
    · exact hba h
    · exact hapart (Or.inl h)
    · exact hapart (Or.inr h)

/-- Regions in order have different ranges and are apart or nested. -/
theorem Leads.apart_or_nested (h : a.Leads b) :
    ¬ a.SameRange b ∧ (a.Apart b ∨ a.Encloses b ∨ b.Encloses a) := by
  constructor
  · have hprecedes := h.1
    simp only [Precedes, SameRange] at *
    omega
  · rcases h.encloses_or_stop_le with hencloses | hstop
    · exact Or.inr (Or.inl hencloses)
    · exact Or.inl (Or.inl hstop)

/-! ### Opening and closing

Neither touches anything but whether the region is collapsed. -/

theorem expand_collapse (r : FoldRegion) : r.collapse.expand = r.expand := rfl

theorem expand_expand (r : FoldRegion) : r.expand.expand = r.expand := rfl

theorem expand_toggle (r : FoldRegion) : r.toggle.expand = r.expand := rfl

end FoldRegion

open FoldRegion

theorem Laminar.mono {n m : Nat} {regions : List FoldRegion} (h : Laminar n regions)
    (hnm : n ≤ m) : Laminar m regions where
  leads := h.leads
  nonempty := h.nonempty
  within r hr := (h.within r hr).trans hnm

namespace FoldSet

variable {s t : FoldSet} {r : FoldRegion} {n m : Nat}

/-! ### Additions -/

/-- The set has a place for a region: there is no other one that it would tangle with or repeat. -/
def Admits (s : FoldSet) (r : FoldRegion) : Prop :=
  ∀ other ∈ s.regions, ¬ other.SameRange r ∧ ¬ other.Tangles r

/-- **The three answers to an addition.** The range is looked at first, then the other regions. -/
theorem add_cases (s : FoldSet) (r : FoldRegion) (n : Nat) :
    ((r.stop ≤ r.start ∨ n < r.stop) ∧
        s.add r n = .error (.invalidFoldRange r.start r.stop)) ∨
      ((r.start < r.stop ∧ r.stop ≤ n) ∧ ¬ s.Admits r ∧
        s.add r n = .error (.overlappingFold r.start r.stop)) ∨
      ((r.start < r.stop ∧ r.stop ≤ n) ∧ s.Admits r ∧
        s.add r n = .ok (ofRegions (insertAfter (·.Precedes r) r s.regions))) := by
  have hadmits : (s.regions.any fun other => other.Crosses r ∨ other.SameRange r) = true ↔
      ¬ s.Admits r := by
    simp only [Admits, List.any_eq_true, decide_eq_true_eq, crosses_iff_tangles, not_forall,
      not_and_or, not_not, exists_prop, or_comm]
  by_cases hrange : r.stop ≤ r.start ∨ n < r.stop
  · exact Or.inl ⟨hrange, by rw [add, if_pos hrange]⟩
  · have hinside : r.start < r.stop ∧ r.stop ≤ n := by omega
    by_cases hplace : s.Admits r
    · refine Or.inr (Or.inr ⟨hinside, hplace, ?_⟩)
      rw [add, if_neg hrange, if_neg (fun h => hadmits.mp h hplace)]
    · refine Or.inr (Or.inl ⟨hinside, hplace, ?_⟩)
      rw [add, if_neg hrange, if_pos (hadmits.mpr hplace)]

/-- A longer text admits all that a shorter one does. -/
theorem add_mono (h : s.add r n = .ok t) (hnm : n ≤ m) : s.add r m = .ok t := by
  rcases add_cases s r n with ⟨-, hadd⟩ | ⟨-, -, hadd⟩ | ⟨hinside, hplace, hadd⟩
  · rw [hadd] at h
    cases h
  · rw [hadd] at h
    cases h
  · rcases add_cases s r m with ⟨hrange, -⟩ | ⟨-, hfull, -⟩ | ⟨-, -, hadd'⟩
    · omega
    · exact absurd hplace hfull
    · rw [hadd', ← hadd, h]

/-! ### One change -/

theorem Sound.mono (h : s.Sound n) (hnm : n ≤ m) : s.Sound m := ⟨h.laminar.mono hnm, h.outermost_eq⟩

theorem Sound.remove {start stop : Nat} (h : s.Sound n) (hremove : s.remove start stop = some t) :
    t.Sound n := by
  rw [FoldSet.remove] at hremove
  split at hremove
  · cases hremove
    exact sound_ofRegions (h.laminar.sublist List.eraseP_sublist)
  · cases hremove

theorem Sound.afterAdding (h : s.Sound n) {result : Except LayoutError FoldSet}
    (hresult : ∀ t, result = .ok t → ∃ m, t.Sound m) : ∃ m, (s.afterAdding result).2.Sound m := by
  cases result with
  | error e => exact ⟨n, h⟩
  | ok t => exact hresult t rfl

theorem Sound.afterFinding (h : s.Sound n) {result : Option FoldSet}
    (hresult : ∀ t, result = some t → t.Sound n) : ∃ m, (s.afterFinding result).2.Sound m := by
  cases result with
  | none => exact ⟨n, h⟩
  | some t => exact ⟨n, hresult t rfl⟩

/-- What is added to a sound fold set leaves it sound in a text that holds both the old regions
and the new one. -/
theorem Sound.exists_add (h : s.Sound n) (hadd : s.add r m = .ok t) : ∃ k, t.Sound k :=
  ⟨max n m, (h.mono (Nat.le_max_left n m)).add (add_mono hadd (Nat.le_max_right n m))⟩

/-- **A change keeps a fold set sound,** in a text that may have to be longer. -/
theorem Sound.apply (h : s.Sound n) (d : Document) (edit : FoldEdit) :
    ∃ m, (s.apply d edit).2.Sound m := by
  cases edit with
  | add region textLength => exact h.afterAdding fun _ => h.exists_add
  | addLines first last collapsed =>
    refine h.afterAdding fun t ht => ?_
    simp only [FoldSet.addLines] at ht
    split at ht
    · cases ht
    · exact h.exists_add ht
  | remove start stop => exact h.afterFinding fun _ => h.remove
  | collapseAt offset => exact h.afterFinding fun _ ht => h.updateAt expand_collapse ht
  | expandAt offset => exact h.afterFinding fun _ ht => h.updateAt expand_expand ht
  | toggleAt offset => exact h.afterFinding fun _ ht => h.updateAt expand_toggle ht
  | collapseAll => exact ⟨n, h.updateAll fun _ => rfl⟩
  | expandAll => exact ⟨n, h.updateAll fun _ => rfl⟩
  | clear => exact ⟨n, sound_empty n⟩

/-! ### Runs of changes -/

/-- The set after a list of changes, each with the document whose lines it may name. -/
def afterAll (s : FoldSet) (changes : List (Document × FoldEdit)) : FoldSet :=
  changes.foldl (fun s change => (s.apply change.1 change.2).2) s

/-- A run of changes leads to the set from the empty one. -/
def Reachable (s : FoldSet) : Prop := ∃ changes, empty.afterAll changes = s

theorem Sound.afterAll (h : s.Sound n) (changes : List (Document × FoldEdit)) :
    ∃ m, (s.afterAll changes).Sound m := by
  induction changes generalizing s n with
  | nil => exact ⟨n, h⟩
  | cons change changes ih =>
    obtain ⟨m, hm⟩ := h.apply change.1 change.2
    exact ih hm

/-- **Every fold set that can be reached is sound** in some text. -/
theorem Reachable.sound (h : s.Reachable) : ∃ n, s.Sound n := by
  obtain ⟨changes, rfl⟩ := h
  exact (sound_empty 0).afterAll changes

/-! ### The main statement -/

/-- What an addition answers and leaves behind, as a change. -/
theorem apply_add_cases (d : Document) (s : FoldSet) (r : FoldRegion) (n : Nat) :
    ((r.stop ≤ r.start ∨ n < r.stop) ∧
        s.apply d (.add r n) = (.refused (.invalidFoldRange r.start r.stop), s)) ∨
      ((r.start < r.stop ∧ r.stop ≤ n) ∧ ¬ s.Admits r ∧
        s.apply d (.add r n) = (.refused (.overlappingFold r.start r.stop), s)) ∨
      ((r.start < r.stop ∧ r.stop ≤ n) ∧ s.Admits r ∧
        s.apply d (.add r n) =
          (.added, ofRegions (insertAfter (·.Precedes r) r s.regions))) := by
  simp only [apply]
  rcases add_cases s r n with ⟨hrange, hadd⟩ | ⟨hinside, hfull, hadd⟩ | ⟨hinside, hplace, hadd⟩
  · exact Or.inl ⟨hrange, by rw [hadd, afterAdding]⟩
  · exact Or.inr (Or.inl ⟨hinside, hfull, by rw [hadd, afterAdding]⟩)
  · exact Or.inr (Or.inr ⟨hinside, hplace, by rw [hadd, afterAdding]⟩)

theorem not_admits_iff :
    ¬ s.Admits r ↔ ∃ other ∈ s.regions, other.SameRange r ∨ other.Tangles r := by
  simp only [Admits, not_forall, not_and_or, not_not, exists_prop]

/-- **The regions of a fold set are a laminar family, and it takes in what keeps it one.** After
every run of changes no region is empty, the regions stand in order, the enclosing ones first, and
of any two the ranges differ and are apart or nested. An addition is refused for its range exactly
if that is empty or reaches past the text, and otherwise for the other regions exactly if it
repeats or tangles with one of them; what is not refused stands between the old regions, and a
refusal leaves them and the outermost ones as they were. -/
theorem family_and_admission (h : s.Reachable) :
    (∀ r ∈ s.regions, r.start < r.stop) ∧ s.regions.Pairwise Precedes ∧
      (s.regions.Pairwise fun a b =>
        ¬ a.SameRange b ∧ (a.Apart b ∨ a.Encloses b ∨ b.Encloses a)) ∧
      ∀ (d : Document) (r : FoldRegion) (n : Nat),
        ((s.apply d (.add r n)).1 = .refused (.invalidFoldRange r.start r.stop) ↔
          r.stop ≤ r.start ∨ n < r.stop) ∧
        ((s.apply d (.add r n)).1 = .refused (.overlappingFold r.start r.stop) ↔
          (r.start < r.stop ∧ r.stop ≤ n) ∧
            ∃ other ∈ s.regions, other.SameRange r ∨ other.Tangles r) ∧
        ((s.apply d (.add r n)).1 = .added ↔
          (r.start < r.stop ∧ r.stop ≤ n) ∧
            ∀ other ∈ s.regions, ¬ other.SameRange r ∧ ¬ other.Tangles r) ∧
        ((s.apply d (.add r n)).1 = .added →
          ∃ before after, s.regions = before ++ after ∧
            (s.apply d (.add r n)).2.regions = before ++ r :: after) ∧
        ((s.apply d (.add r n)).1 ≠ .added → (s.apply d (.add r n)).2 = s) := by
  obtain ⟨textLength, hsound⟩ := h.sound
  have hleads := hsound.laminar.leads
  refine ⟨hsound.laminar.nonempty, hleads.imp fun hab => hab.1,
    hleads.imp fun hab => hab.apart_or_nested, ?_⟩
  intro d r n
  rw [← not_admits_iff]
  change _ ∧ _ ∧ (_ ↔ _ ∧ s.Admits r) ∧ _
  rcases apply_add_cases d s r n with
    ⟨hrange, happly⟩ | ⟨hinside, hfull, happly⟩ | ⟨hinside, hplace, happly⟩
  · have hinside : ¬ (r.start < r.stop ∧ r.stop ≤ n) := by omega
    simp [happly, hrange, hinside]
  · have hrange : ¬ (r.stop ≤ r.start ∨ n < r.stop) := by omega
    simp [happly, hrange, hinside, hfull]
  · have hrange : ¬ (r.stop ≤ r.start ∨ n < r.stop) := by omega
    refine ⟨?_, ?_, ?_, fun _ => ?_, ?_⟩
    · simp [happly, hrange]
    · simp [happly, hplace]
    · simp [happly, hinside, hplace]
    · rw [happly]
      exact ⟨_, _, List.takeWhile_append_dropWhile.symm, rfl⟩
    · simp [happly]

/-- Regions that nest, touch and begin together, some of them over lines of a short text, after
one of them has been removed and another one closed. -/
def brackets : FoldSet :=
  empty.afterAll [(.ofText ['a', '\n', 'b'], .addLines 0 1 true),
    (.ofText [], .add (.plain 10 20 false) 100), (.ofText [], .add (.plain 12 18 true) 50),
    (.ofText [], .add (.plain 12 14 true) 20), (.ofText [], .add (.plain 20 30 false) 30),
    (.ofText [], .remove 12 18), (.ofText [], .toggleAt 11)]

theorem admission_to_brackets :
    brackets.Reachable ∧ brackets.outermost = [.plain 0 3 true, .plain 10 20 true] ∧
      (brackets.apply (.ofText []) (.add (.plain 13 25 true) 30)).1 =
        .refused (.overlappingFold 13 25) ∧
      (brackets.apply (.ofText []) (.add (.plain 13 25 true) 30)).2 = brackets ∧
      (brackets.apply (.ofText []) (.add (.plain 10 16 true) 16)).1 = .added := by
  have hreachable : brackets.Reachable := ⟨_, rfl⟩
  have hadmission := (family_and_admission hreachable).2.2.2 (.ofText [])
  have hrefused := (hadmission (.plain 13 25 true) 30).2.1.mpr
    ⟨by decide, .plain 12 14 true, by decide, Or.inr (crosses_iff_tangles.mp (by decide))⟩
  refine ⟨hreachable, by decide, hrefused, ?_, ?_⟩
  · exact (hadmission _ _).2.2.2.2 (by rw [hrefused]; decide)
  · refine (hadmission _ _).2.2.1.mpr ⟨by decide, fun other hother => ⟨?_, ?_⟩⟩
    · revert other
      decide
    · rw [← crosses_iff_tangles]
      revert other
      decide

end FoldSet

end RowLayout
