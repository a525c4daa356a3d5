import Mathlib.Data.List.Find
import Mathlib.Data.List.TakeWhile
import RowLayout.Layout.Location
import RowLayout.Proofs.LineStarts

/-!
# The scan for the next row

A scan runs along the starts of the lines ahead and stops at the first one that no fold hides, or
at the pending soft wrap if that comes first. Meanwhile it moves the mark in the folds, and it may
only pass folds that are closed for good. What a scan finds can be said without the mark: it is
the smaller of the pending soft wrap and the first line start that none of the folds ahead hides.

## Main definitions

* `Shown` — no region of a list hides an offset

## Main results

* `Location.scan_start_eq` — what a scan finds, without its state
* `Location.le_of_scan`, `le_pending_of_scan` — how far a scan goes
* `Location.onLine_scan` — a scan ends on the line that holds what it found
* `Location.scan_folds` — the folds a scan has passed on its way make no difference
-/

namespace RowLayout

/-- A line that starts at the offset is hidden by none of the regions. -/
def Shown (regions : List FoldRegion) (offset : Nat) : Prop := ∀ r ∈ regions, ¬ r.Hides offset

instance (regions : List FoldRegion) (offset : Nat) : Decidable (Shown regions offset) :=
  inferInstanceAs (Decidable (∀ r ∈ regions, ¬ r.Hides offset))

namespace Location

variable {pending : Option Nat} {line : Nat} {ahead : List Nat} {folds : Mark FoldRegion}

/-! ### Folds on the way -/

/-- The test by which folds are passed at a line start: they lie before it altogether. -/
def closedAt (s : Nat) (r : FoldRegion) : Bool := r.start < s && r.stop < s

theorem ahead_passClosed (folds : Mark FoldRegion) (s : Nat) :
    (passClosed folds s).ahead = folds.ahead.dropWhile (closedAt s) := rfl

/-- Folds that are passed at a line start hide neither that line nor a later one. -/
theorem shown_passClosed {s t : Nat} (hst : s ≤ t) :
    Shown (passClosed folds s).ahead t ↔ Shown folds.ahead t := by
  rw [ahead_passClosed]
  constructor
  · intro h r hr
    rw [← List.takeWhile_append_dropWhile (p := closedAt s) (l := folds.ahead),
      List.mem_append] at hr
    rcases hr with hr | hr
    · have hclosed := List.mem_takeWhile_imp hr
      simp only [closedAt, Bool.and_eq_true, decide_eq_true_eq] at hclosed
      rintro ⟨-, hstop⟩
      omega
    · exact h r hr
  · exact fun h r hr => h r ((List.dropWhile_suffix _).mem hr)

theorem pairwise_passClosed (h : folds.ahead.Pairwise (·.start ≤ ·.start)) (s : Nat) :
    (passClosed folds s).ahead.Pairwise (·.start ≤ ·.start) :=
  h.sublist (List.dropWhile_sublist _)

/-- With the closed folds out of the way, the next fold alone decides whether a line is hidden. -/
theorem hiddenBy_passClosed (h : folds.ahead.Pairwise (·.start ≤ ·.start)) (s : Nat) :
    hiddenBy (passClosed folds s) s = true ↔ ¬ Shown folds.ahead s := by
  rw [← shown_passClosed (Nat.le_refl s)]
  have hsorted := pairwise_passClosed h s
  have hopen := List.head?_dropWhile_not (closedAt s) folds.ahead
  rw [← ahead_passClosed] at hopen
  rw [hiddenBy, Mark.next?]
  cases hahead : (passClosed folds s).ahead with
  | nil => simp [Shown]
  | cons r rest =>
    rw [hahead] at hopen hsorted
    simp only [closedAt, List.head?_cons, Option.any_some, decide_eq_true_eq,
      Bool.and_eq_false_iff, decide_eq_false_iff_not] at hopen ⊢
    constructor
    · intro hstart hshown
      exact hshown r List.mem_cons_self ⟨hstart, by omega⟩
    · intro hhidden
      by_contra hstart
      -- the next fold begins too late, and so do all folds after it
      refine hhidden fun r' hr' => ?_
      rcases List.mem_cons.mp hr' with rfl | hr'
      · exact fun hhides => hstart hhides.1
      · have := (List.pairwise_cons.mp hsorted).1 r' hr'
        rintro ⟨hstart', -⟩
        omega

/-! ### What a scan finds -/

/-- A soft wrap at or before all lines ahead comes first, whichever of the lines are shown. -/
theorem merge_find?_eq_left {w : Nat} {p : Nat → Bool} (h : ∀ s ∈ ahead, w ≤ s) :
    (some w).merge min (ahead.find? p) = some w := by
  cases hfind : ahead.find? p with
  | none => rfl
  | some s =>
    have hws : w ≤ s := h s (List.mem_of_find?_eq_some hfind)
    simp [Nat.min_eq_left hws]

/-- **What a scan finds:** the pending soft wrap or the first line start that is shown, whichever
comes first. -/
theorem scan_start_eq (hfolds : folds.ahead.Pairwise (·.start ≤ ·.start))
    (hahead : ahead.Pairwise (· < ·)) :
    (scan pending line ahead folds).start =
      pending.merge min (ahead.find? fun s => Shown folds.ahead s) := by
  fun_induction scan pending line ahead folds with
  | case1 line folds => simp
  | case2 line s rest folds hbefore =>
    obtain ⟨w, rfl, hws⟩ : ∃ w, pending = some w ∧ w < s := by
      simpa [Option.any_eq_true] using hbefore
    refine (merge_find?_eq_left fun t ht => ?_).symm
    rcases List.mem_cons.mp ht with rfl | ht
    · exact hws.le
    · exact (hws.trans ((List.pairwise_cons.mp hahead).1 t ht)).le
  | case3 line s rest folds hbefore hhidden ih =>
    obtain ⟨hs, hrest⟩ := List.pairwise_cons.mp hahead
    rw [hiddenBy_passClosed hfolds] at hhidden
    rw [ih (pairwise_passClosed hfolds s) hrest, List.find?_cons_of_neg (by simpa using hhidden)]
    congr 1
    refine List.find?_congr fun t ht => ?_
    simp only [shown_passClosed (hs t ht).le]
  | case4 line s rest folds hbefore hshown =>
    rw [hiddenBy_passClosed hfolds, not_not] at hshown
    rw [List.find?_cons_of_pos (by simpa using hshown)]
    cases pending with
    | none => rfl
    | some w =>
      have hsw : s ≤ w := by simpa using hbefore
      simp [Nat.min_eq_right hsw]

/-- A scan does not go back: it finds nothing before the lines and the soft wrap ahead. -/
theorem le_of_scan {o bound : Nat} (hpending : ∀ w ∈ pending, bound ≤ w)
    (hahead : ∀ s ∈ ahead, bound ≤ s) (h : (scan pending line ahead folds).start = some o) :
    bound ≤ o := by
  fun_induction scan pending line ahead folds with
  | case1 line folds => exact hpending o h
  | case2 line s rest folds hbefore => exact hpending o h
  | case3 line s rest folds hbefore hhidden ih =>
    exact ih (fun t ht => hahead t (List.mem_cons_of_mem _ ht)) h
  | case4 line s rest folds hbefore hshown =>
    have hs : s = o := Option.some.inj h
    exact hs ▸ hahead s List.mem_cons_self

/-- A scan does not go past the pending soft wrap. -/
theorem le_pending_of_scan {o w : Nat} (hpending : pending = some w)
    (h : (scan pending line ahead folds).start = some o) : o ≤ w := by
  fun_induction scan pending line ahead folds with
  | case1 line folds => exact (Option.some.inj (h.symm.trans hpending)).le
  | case2 line s rest folds hbefore => exact (Option.some.inj (h.symm.trans hpending)).le
  | case3 line s rest folds hbefore hhidden ih => exact ih h
  | case4 line s rest folds hbefore hshown =>
    obtain rfl : s = o := Option.some.inj h
    simpa [hpending] using hbefore

/-- The folds that a scan has passed on its way are not seen once the row start that it found is
passed as well. -/
theorem scan_folds {o : Nat} (hahead : ahead.Pairwise (· < ·))
    (h : (scan pending line ahead folds).start = some o) :
    (scan pending line ahead folds).folds.passWhile (·.start < o) =
      folds.passWhile (·.start < o) := by
  have hclosed {s : Nat} (hso : s ≤ o) (folds : Mark FoldRegion) :
      (passClosed folds s).passWhile (·.start < o) = folds.passWhile (·.start < o) := by
    refine Mark.passWhile_passWhile (fun r hr => ?_) folds
    simp only [Bool.and_eq_true, decide_eq_true_eq] at hr ⊢
    omega
  fun_induction scan pending line ahead folds with
  | case1 line folds => rfl
  | case2 line s rest folds hbefore => rfl
  | case3 line s rest folds hbefore hhidden ih =>
    obtain ⟨hs, hrest⟩ := List.pairwise_cons.mp hahead
    have hso : s ≤ o := by
      refine le_of_scan (fun w hw => ?_) (fun t ht => (hs t ht).le) h
      cases hw
      simpa using hbefore
    rw [ih hrest h, hclosed hso]
  | case4 line s rest folds hbefore hshown =>
    have hso : s = o := Option.some.inj h
    exact hclosed hso.le folds

/-- A scan ends on the line that holds what it found, with the starts after that line ahead. -/
theorem onLine_scan {d : Document} {o : Nat} (hline : line < d.lineCount)
    (hahead : d.startsAfter line = ahead) (hpending : ∀ w ∈ pending, d.lineStart line ≤ w)
    (h : (scan pending line ahead folds).start = some o) :
    d.OnLine (scan pending line ahead folds).line o ∧
      (scan pending line ahead folds).linesAhead =
        d.startsAfter (scan pending line ahead folds).line := by
  fun_induction scan pending line ahead folds with
  | case1 line folds => exact ⟨⟨hline, hpending o h, by simp [hahead]⟩, hahead.symm⟩
  | case2 line s rest folds hbefore =>
    refine ⟨⟨hline, hpending o h, fun t ht => ?_⟩, hahead.symm⟩
    have hos : o < s := by
      rw [show pending = some o from h] at hbefore
      simpa using hbefore
    have hsorted := d.pairwise_startsAfter line
    rw [hahead] at ht hsorted
    rcases List.mem_cons.mp ht with rfl | ht
    · exact hos
    · exact hos.trans ((List.pairwise_cons.mp hsorted).1 t ht)
  | case3 line s rest folds hbefore hhidden ih =>
    obtain ⟨hline', hstart', hahead'⟩ := Document.startsAfter_eq_cons hahead
    refine ih hline' hahead' (fun w hw => ?_) h
    cases hw
    rw [hstart']
    simpa using hbefore
  | case4 line s rest folds hbefore hshown =>
    obtain ⟨hline', hstart', hahead'⟩ := Document.startsAfter_eq_cons hahead
    obtain rfl : s = o := Option.some.inj h
    refine ⟨⟨hline', hstart'.le, fun t ht => ?_⟩, hahead'.symm⟩
    exact hstart' ▸ Document.lt_of_mem_startsAfter hline' ht

end Location

end RowLayout
