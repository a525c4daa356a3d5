import Mathlib.Data.Nat.Basic
import Mathlib.Order.Basic
import RowLayout.Proofs.InitialStretch
import RowLayout.Proofs.WrapPlaces

/-!
# Looking up soft wraps

A soft wrap is looked up by its offset in two ways: to find the one at an offset, and to find the
first one from an offset on. Each look-up is a binary search of its own, and what a binary search
comes to depends on where it probes the list. On soft wraps that stand at ever larger offsets both
come to the same index, the number of soft wraps before the offset, and that index is the initial
stretch that the look-ups are defined by.

Soft wraps at given offsets are put in order first, and repetitions are left out. Those of a
document are in order as its lines are, so a list of soft wraps stays in order however often it is
made anew.

## Main definitions

* `halve`, `bisect` — a binary search by comparisons
* `partitionPoint` — the same search by a test, for the end of the initial stretch that passes it
* `SoftWrap.afterRebuilds` — soft wraps that are made anew for one document after the other

## Main results

* `bisect_of_eq_zero`, `bisect_of_eq_succ`, `partitionPoint_eq` — what a binary search comes to in
  an ordered list
* `pairwise_eraseReps` — without repetitions an ordered list rises strictly
* `SoftWrap.search_eq_bisect` — the look-up of a soft wrap at an offset is a binary search
* `SoftWrap.lookups_agree` — what they answer, for all soft wraps that can be made
-/

namespace RowLayout

variable {α : Type}

/-! ### Binary searches -/

/-- Halve a stretch of `size` elements of a list, from index `base` on, until one is left. The upper
half goes if its first element lies behind what is looked for, and else the lower one. -/
def halve (cmp : α → Ordering) (xs : List α) (base size : Nat) : Nat :=
  if 1 < size then
    let middle := base + size / 2
    if xs[middle]?.map cmp = some .gt then halve cmp xs base (size - size / 2)
    else halve cmp xs middle (size - size / 2)
  else base
termination_by size

/-- Look an element up by comparisons that tell whether an element lies in front of it, behind it,
or is the one. -/
def bisect (cmp : α → Ordering) (xs : List α) : SoftWrap.Position :=
  let last := halve cmp xs 0 xs.length
  match xs[last]?.map cmp with
  | some .eq => .found last
  | some .lt => .absent (last + 1)
  | some .gt | none => .absent last

/-- The index that an answer names. -/
def SoftWrap.Position.index : SoftWrap.Position → Nat
  | .found i | .absent i => i

/-- Look up the end of the initial stretch that passes a test. No element is the one that is looked
for: those that pass lie in front of the end, and the others behind it. -/
def partitionPoint (p : α → Bool) (xs : List α) : Nat :=
  (bisect (fun x => if p x then .lt else .gt) xs).index

section Ordered

variable {cmp : α → Ordering} {xs : List α} {base size k : Nat}

/-- **Halving keeps the last element that does not lie behind** what is looked for, if there is one,
and the first element of the list if there is none. -/
theorem halve_eq (h : xs.Pairwise fun a b => (cmp b).isLE = true → (cmp a).isLE = true)
    (hbase : base < countWhile (fun x => (cmp x).isLE) xs ∨ base = 0)
    (hcount : countWhile (fun x => (cmp x).isLE) xs ≤ base + size)
    (hlength : base + size ≤ xs.length) :
    halve cmp xs base size = countWhile (fun x => (cmp x).isLE) xs - 1 := by
  fun_induction halve cmp xs base size with
  | case1 base size hsize middle hbehind ih =>
    have hmiddle : middle = base + size / 2 := rfl
    have hle : countWhile (fun x => (cmp x).isLE) xs ≤ middle := by
      refine Nat.le_of_not_lt fun hlt => ?_
      obtain ⟨x, hx, hpass⟩ := (lt_countWhile_iff h).mp hlt
      rw [hx, Option.map_some, Option.some.injEq] at hbehind
      simp [hbehind] at hpass
    exact ih hbase (by omega) (by omega)
  | case2 base size hsize middle hbehind ih =>
    have hmiddle : middle = base + size / 2 := rfl
    obtain ⟨x, hx⟩ : ∃ x, xs[middle]? = some x := ⟨_, List.getElem?_eq_getElem (by omega)⟩
    rw [hx, Option.map_some, Option.some.injEq] at hbehind
    have hlt : middle < countWhile (fun x => (cmp x).isLE) xs :=
      (lt_countWhile_iff h).mpr ⟨x, hx, Ordering.isLE_iff_ne_gt.mpr hbehind⟩
    exact ih (.inl hlt) (by omega) (by omega)
  | case3 base size hsize => omega

/-- **What a binary search comes to.** If every element lies behind what is looked for, the answer
is the front of the list. -/
theorem bisect_of_eq_zero (h : xs.Pairwise fun a b => (cmp b).isLE = true → (cmp a).isLE = true)
    (hcount : countWhile (fun x => (cmp x).isLE) xs = 0) : bisect cmp xs = .absent 0 := by
  have hlast : halve cmp xs 0 xs.length = 0 := by
    rw [halve_eq h (.inr rfl) (by omega) (by omega), hcount]
  cases xs with
  | nil => simp only [bisect, hlast, List.getElem?_nil, Option.map_none]
  | cons x rest =>
    have hx : cmp x = .gt := by
      rw [countWhile_cons] at hcount
      cases hcmp : cmp x <;> simp [hcmp] at hcount ⊢
    simp only [bisect, hlast, List.getElem?_cons_zero, Option.map_some, hx]

/-- Otherwise it depends on the last element that does not lie behind: the answer is that element,
if it is the one, or else the place behind it. -/
theorem bisect_of_eq_succ (h : xs.Pairwise fun a b => (cmp b).isLE = true → (cmp a).isLE = true)
    (hcount : countWhile (fun x => (cmp x).isLE) xs = k + 1) :
    bisect cmp xs = if xs[k]?.map cmp = some .eq then .found k else .absent (k + 1) := by
  have hle := countWhile_le (fun x => (cmp x).isLE) xs
  have hlast : halve cmp xs 0 xs.length = k := by
    rw [halve_eq h (.inr rfl) (by omega) (by omega), hcount]
    rfl
  obtain ⟨x, hx, hpass⟩ := (lt_countWhile_iff h).mp (show k < _ by omega)
  simp only [bisect, hlast, hx, Option.map_some, Option.some.injEq]
  cases hcmp : cmp x with
  | lt => rfl
  | eq => rfl
  | gt => simp [hcmp] at hpass

/-- **A search by a test finds the end of the initial stretch,** if the test does not begin to hold
again further on. -/
theorem partitionPoint_eq {p : α → Bool} (h : xs.Pairwise fun a b => p b = true → p a = true) :
    partitionPoint p xs = countWhile p xs := by
  have htest : (fun x => (if p x then Ordering.lt else .gt).isLE) = p := by
    funext x
    cases p x <;> rfl
  have hordered : xs.Pairwise fun a b =>
      (if p b then Ordering.lt else .gt).isLE = true →
        (if p a then Ordering.lt else .gt).isLE = true := by
    refine h.imp fun {a b} hab => ?_
    rwa [congrFun htest a, congrFun htest b]
  rw [partitionPoint]
  cases hcount : countWhile p xs with
  | zero =>
    rw [← htest] at hcount
    rw [bisect_of_eq_zero hordered hcount, SoftWrap.Position.index]
  | succ k =>
    obtain ⟨x, hx, hpass⟩ := (lt_countWhile_iff h).mp (show k < countWhile p xs by omega)
    rw [← htest] at hcount
    rw [bisect_of_eq_succ hordered hcount]
    simp [hx, hpass, SoftWrap.Position.index]

end Ordered

/-! ### Repetitions -/

section Repetitions

variable [DecidableEq α]

theorem eraseReps_loop (a : α) (xs acc : List α) :
    List.eraseRepsBy.loop (· == ·) a xs acc = acc.reverse ++ (a :: xs).eraseReps := by
  induction xs generalizing a acc with
  | nil => exact List.reverse_cons
  | cons b xs ih =>
    simp only [List.eraseReps, List.eraseRepsBy, List.eraseRepsBy.loop] at ih ⊢
    cases a == b with
    | true => exact ih a acc
    | false => rw [ih b (a :: acc), ih b [a], List.reverse_cons, List.append_assoc]; rfl

theorem eraseReps_cons_cons (a b : α) (xs : List α) :
    (a :: b :: xs).eraseReps =
      if a = b then (a :: xs).eraseReps else a :: (b :: xs).eraseReps := by
  have hloop : (a :: b :: xs).eraseReps =
      if (a == b) = true then List.eraseRepsBy.loop (· == ·) a xs []
      else List.eraseRepsBy.loop (· == ·) b xs [a] := by
    simp only [List.eraseReps, List.eraseRepsBy, List.eraseRepsBy.loop]
    cases a == b <;> rfl
  rw [hloop, eraseReps_loop, eraseReps_loop]
  simp

/-- Leaving repetitions out leaves no element out. -/
theorem mem_eraseReps {x : α} {xs : List α} : x ∈ xs.eraseReps ↔ x ∈ xs := by
  cases xs with
  | nil => rfl
  | cons a xs =>
    induction xs generalizing a with
    | nil => rfl
    | cons b xs ih =>
      rw [eraseReps_cons_cons]
      split
      · next hab => rw [ih, hab]; simp
      · rw [List.mem_cons, ih]
        exact List.mem_cons.symm

end Repetitions

/-- **Without repetitions an ordered list rises strictly.** -/
theorem pairwise_eraseReps {xs : List Nat} (h : xs.Pairwise (· ≤ ·)) :
    xs.eraseReps.Pairwise (· < ·) := by
  cases xs with
  | nil => exact List.Pairwise.nil
  | cons a xs =>
    induction xs generalizing a with
    | nil => exact List.pairwise_singleton _ a
    | cons b xs ih =>
      obtain ⟨hfirst, hrest⟩ := List.pairwise_cons.mp h
      rw [eraseReps_cons_cons]
      split
      · next hab => exact ih a (hab ▸ hrest)
      · next hab =>
        refine List.pairwise_cons.mpr ⟨fun x hx => ?_, ih b hrest⟩
        have hb : a ≤ b := hfirst b List.mem_cons_self
        rcases List.mem_cons.mp (mem_eraseReps.mp hx) with rfl | hx
        · omega
        · have hx := (List.pairwise_cons.mp hrest).1 x hx
          omega

namespace SoftWrap

variable {wraps : List SoftWrap} {w : SoftWrap} {o i : Nat}

/-! ### The two look-ups -/

/-- Soft wraps are in front of each other as their offsets are. -/
theorem offset_lt_iff {v : SoftWrap} {j : Nat} (h : wraps.Pairwise (·.offset < ·.offset))
    (hv : wraps[j]? = some v) (hw : wraps[i]? = some w) : v.offset < w.offset ↔ j < i := by
  constructor
  · intro hlt
    refine Nat.lt_of_not_le fun hij => ?_
    rcases Nat.lt_or_eq_of_le hij with hij | rfl
    · exact Nat.lt_asymm hlt (pairwise_iff_getElem?.mp h i j w v hij hw hv)
    · obtain rfl := Option.some.inj (hw.symm.trans hv)
      exact Nat.lt_irrefl _ hlt
  · intro hji
    exact pairwise_iff_getElem?.mp h j i v w hji hv hw

/-- The soft wraps in front of one are those at smaller offsets. -/
theorem countBefore_offset (h : wraps.Pairwise (·.offset < ·.offset)) (hw : wraps[i]? = some w) :
    countBefore wraps w.offset = i := by
  refine eq_of_forall_lt_iff fun j => ?_
  rw [countBefore, lt_countWhile_iff (pairwise_before (h.imp Nat.le_of_lt) _)]
  simp only [decide_eq_true_eq]
  constructor
  · rintro ⟨x, hx, hxw⟩
    exact (offset_lt_iff h hx hw).mp hxw
  · intro hji
    obtain ⟨x, hx⟩ := exists_getElem?_of_le (Nat.le_of_lt hji) hw
    exact ⟨x, hx, (offset_lt_iff h hx hw).mpr hji⟩

/-- A soft wrap is found where it stands. -/
theorem search_eq_found_iff (h : wraps.Pairwise (·.offset < ·.offset)) :
    search wraps o = .found i ↔ ∃ w, wraps[i]? = some w ∧ w.offset = o := by
  rw [search]
  constructor
  · intro hfound
    split at hfound
    · next hany =>
      obtain rfl := Position.found.inj hfound
      obtain ⟨w, hw, hoffset⟩ := (Option.any_eq_true _ _).mp hany
      exact ⟨w, hw, of_decide_eq_true hoffset⟩
    · cases hfound
  · rintro ⟨w, hw, rfl⟩
    rw [countBefore_offset h hw, if_pos]
    simp [hw]

/-- Where no soft wrap stands, the answer is the number of those before. -/
theorem search_eq_absent_iff (h : wraps.Pairwise (·.offset < ·.offset)) :
    search wraps o = .absent i ↔ (∀ w ∈ wraps, w.offset ≠ o) ∧ i = countBefore wraps o := by
  constructor
  · intro habsent
    refine ⟨fun w hw hoffset => ?_, ?_⟩
    · obtain ⟨j, hj⟩ := List.getElem?_of_mem hw
      rw [(search_eq_found_iff h).mpr ⟨w, hj, hoffset⟩] at habsent
      cases habsent
    · rw [search] at habsent
      split at habsent
      · cases habsent
      · exact (Position.absent.inj habsent).symm
  · rintro ⟨hnone, rfl⟩
    rw [search, if_neg]
    intro hany
    obtain ⟨w, hw, hoffset⟩ := (Option.any_eq_true _ _).mp hany
    exact hnone w (List.mem_of_getElem? hw) (of_decide_eq_true hoffset)

theorem pairwise_compare (h : wraps.Pairwise (·.offset < ·.offset)) (o : Nat) :
    wraps.Pairwise fun a b =>
      (compare b.offset o).isLE = true → (compare a.offset o).isLE = true := by
  refine h.imp fun {a b} hab hb => ?_
  rw [Nat.isLE_compare] at hb ⊢
  omega

/-- Those that do not lie behind a soft wrap are the ones in front of it, and itself. -/
theorem countWhile_compare_offset (h : wraps.Pairwise (·.offset < ·.offset))
    (hw : wraps[i]? = some w) :
    countWhile (fun x => (compare x.offset w.offset).isLE) wraps = i + 1 := by
  refine eq_of_forall_lt_iff fun j => ?_
  rw [lt_countWhile_iff (pairwise_compare h _)]
  simp only [Nat.isLE_compare]
  constructor
  · rintro ⟨x, hx, hxw⟩
    have hbehind := offset_lt_iff h hw hx
    omega
  · intro hji
    obtain ⟨x, hx⟩ := exists_getElem?_of_le (Nat.le_of_lt_succ hji) hw
    have hbehind := offset_lt_iff h hw hx
    exact ⟨x, hx, by omega⟩

/-- If no soft wrap stands at an offset, as many do not lie behind it as stand before it. -/
theorem countWhile_compare_of_ne (h : wraps.Pairwise (·.offset < ·.offset))
    (hnone : ∀ w ∈ wraps, w.offset ≠ o) :
    countWhile (fun w => (compare w.offset o).isLE) wraps = countBefore wraps o := by
  rw [countBefore, countWhile_eq_countP (pairwise_compare h o),
    countWhile_eq_countP (pairwise_before (h.imp Nat.le_of_lt) o)]
  refine List.countP_congr fun w hw => ?_
  have hne := hnone w hw
  rw [Nat.isLE_compare, decide_eq_true_eq]
  omega

/-- **The look-up of a soft wrap is a binary search** by comparisons with the offset. -/
theorem search_eq_bisect (h : wraps.Pairwise (·.offset < ·.offset)) (o : Nat) :
    search wraps o = bisect (fun w => compare w.offset o) wraps := by
  have hordered := pairwise_compare h o
  by_cases hthere : ∃ w ∈ wraps, w.offset = o
  · obtain ⟨w, hw, rfl⟩ := hthere
    obtain ⟨i, hi⟩ := List.getElem?_of_mem hw
    rw [(search_eq_found_iff h).mpr ⟨w, hi, rfl⟩,
      bisect_of_eq_succ hordered (countWhile_compare_offset h hi), if_pos]
    simp [hi]
  · have hnone : ∀ w ∈ wraps, w.offset ≠ o := fun w hw hoffset => hthere ⟨w, hw, hoffset⟩
    have hcount := countWhile_compare_of_ne h hnone
    rw [(search_eq_absent_iff h).mpr ⟨hnone, rfl⟩]
    cases hbefore : countBefore wraps o with
    | zero => exact (bisect_of_eq_zero hordered (hcount.trans hbefore)).symm
    | succ k =>
      rw [bisect_of_eq_succ hordered (hcount.trans hbefore), if_neg]
      intro hfound
      obtain ⟨w, hw, hoffset⟩ := Option.map_eq_some_iff.mp hfound
      exact hnone w (List.mem_of_getElem? hw) (Nat.compare_eq_eq.mp hoffset)

/-! ### Soft wraps made anew -/

/-- The soft wraps after they have been made anew for one document after the other, each with its
folds and settings. -/
def afterRebuilds (wraps : List SoftWrap) : List (Document × FoldSet × Settings) → List SoftWrap
  | [] => wraps
  | (d, folds, s) :: rest => afterRebuilds (ofDocument d folds s) rest

theorem pairwise_afterRebuilds (h : wraps.Pairwise (·.offset < ·.offset))
    (rebuilds : List (Document × FoldSet × Settings)) :
    (afterRebuilds wraps rebuilds).Pairwise (·.offset < ·.offset) := by
  induction rebuilds generalizing wraps with
  | nil => exact h
  | cons rebuild rest ih =>
    obtain ⟨d, folds, s⟩ := rebuild
    exact ih (pairwise_ofDocument d folds s)

theorem map_offset_ofOffsets (offsets : List Nat) :
    (ofOffsets offsets).map SoftWrap.offset = offsets.mergeSort.eraseReps := by
  rw [ofOffsets, List.map_map]
  exact List.map_id _

/-- **Soft wraps at given offsets** stand at these offsets and no others, one at each, in order. -/
theorem offsets_ofOffsets (offsets : List Nat) :
    ((ofOffsets offsets).map SoftWrap.offset).Pairwise (· < ·) ∧
      ∀ p, p ∈ (ofOffsets offsets).map SoftWrap.offset ↔ p ∈ offsets := by
  have hsorted : offsets.mergeSort.Pairwise (· ≤ ·) := by
    have htrans (a b c : Nat) : decide (a ≤ b) = true → decide (b ≤ c) = true →
        decide (a ≤ c) = true := by
      simp only [decide_eq_true_eq]
      exact Nat.le_trans
    have htotal (a b : Nat) : (decide (a ≤ b) || decide (b ≤ a)) = true := by
      simpa using Nat.le_total a b
    exact (List.pairwise_mergeSort htrans htotal offsets).imp of_decide_eq_true
  rw [map_offset_ofOffsets]
  refine ⟨pairwise_eraseReps hsorted, fun p => ?_⟩
  rw [mem_eraseReps, List.mem_mergeSort]

/-! ### The main statement -/

/-- **Both look-ups agree.** For soft wraps made from any offsets, and made anew for any documents,
and for every offset: the soft wrap at the offset is found where it stands, and if there is none the
answer is the number of soft wraps before the offset. That number is also what the look-up of the
first soft wrap from the offset on comes to, unless there is none, and what the other one finds.
Both are binary searches, the one by comparisons and the other by a test. Soft wraps made from
offsets stand at the different ones among these, in order. -/
theorem lookups_agree (offsets : List Nat) (rebuilds : List (Document × FoldSet × Settings))
    (o : Nat) :
    let wraps := afterRebuilds (ofOffsets offsets) rebuilds
    let before := wraps.countP (·.offset < o)
    (∀ i, search wraps o = .found i ↔ ∃ w, wraps[i]? = some w ∧ w.offset = o) ∧
      (∀ i, search wraps o = .absent i ↔ (∀ w ∈ wraps, w.offset ≠ o) ∧ i = before) ∧
      (search wraps o).index = before ∧
      firstFrom? wraps o = (if before < wraps.length then some before else none) ∧
      search wraps o = bisect (fun w => compare w.offset o) wraps ∧
      before = partitionPoint (·.offset < o) wraps ∧
      ((ofOffsets offsets).map SoftWrap.offset).Pairwise (· < ·) ∧
      ∀ p, p ∈ (ofOffsets offsets).map SoftWrap.offset ↔ p ∈ offsets := by
  intro wraps before
  have hoffsets := offsets_ofOffsets offsets
  have hwraps : wraps.Pairwise (·.offset < ·.offset) :=
    pairwise_afterRebuilds (List.pairwise_map.mp hoffsets.1) rebuilds
  have hordered := pairwise_before (hwraps.imp Nat.le_of_lt) o
  have hbefore : countBefore wraps o = before := countWhile_eq_countP hordered
  refine ⟨fun i => search_eq_found_iff hwraps, fun i => ?_, ?_, ?_, search_eq_bisect hwraps o, ?_,
    hoffsets⟩
  · rw [search_eq_absent_iff hwraps, hbefore]
  · rw [search, hbefore]
    split <;> rfl
  · rw [firstFrom?, hbefore]
  · rw [partitionPoint_eq hordered]
    exact hbefore.symm

/-- On soft wraps that repeat the two searches part: the one by comparisons finds the last of
them. -/
example :
    bisect (fun w => compare w.offset 3) [⟨3, 0⟩, ⟨3, 0⟩, (⟨3, 0⟩ : SoftWrap)] = .found 2 ∧
      partitionPoint (·.offset < 3) [⟨3, 0⟩, ⟨3, 0⟩, (⟨3, 0⟩ : SoftWrap)] = 0 := by
  decide +kernel

end SoftWrap

end RowLayout
