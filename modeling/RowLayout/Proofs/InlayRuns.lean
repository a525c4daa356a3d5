import Mathlib.Data.List.Sort
import Mathlib.Data.List.TakeWhile
import RowLayout.Inlay.InlaySet
import RowLayout.Proofs.InitialStretch

/-!
# Runs of an inlay set

An inlay set never sorts. It puts every inlay behind those at the same offset, and in between it
takes single ones out or all of them. What it holds in the end is nevertheless what a stable sort by
offset makes of the inlays that were put in and not taken away again: as ids count up, the order
among inlays at one offset is the order of their ids, and an ordered list is decided by what is in
it.

For this an inlay that is gone must not come back under its old id, so ids count on when all inlays
are removed.

## Main definitions

* `InlaySet.history` — a run of changes with their answers
* `addedInlays`, `lastingInlays` — what a run put in, and what of it no later change took away
* `Inlay.Before` — the order by offset and, at one offset, by age
* `InlaySet.Numbered` — the inlays stand in that order, under ids of their own

## Main results

* `InlaySet.Numbered.afterAll` — a run keeps the inlays in order and their ids apart
* `InlaySet.Numbered.mem_afterAll` — what a run leaves: what it did not take away, old and new
* `InlaySet.Numbered.between_eq_filter` — two look-ups find what lies between two offsets
* `InlaySet.holds_lasting_inlays` — the inlays, ids and answers of every run
-/

namespace RowLayout

/-! ### Runs with their answers -/

/-- The change takes an inlay with the id away, if there is one. -/
def InlayEdit.TakesAway (id : Nat) : InlayEdit → Prop
  | .add _ _ _ => False
  | .remove other => other = id
  | .clear => True

instance (id : Nat) : DecidablePred (InlayEdit.TakesAway id)
  | .add _ _ _ => inferInstanceAs (Decidable False)
  | .remove other => inferInstanceAs (Decidable (other = id))
  | .clear => inferInstanceAs (Decidable True)

/-- The inlay that a change put in, under the id that it answered. -/
def addedInlay? : InlayEdit × InlayAnswer → Option Inlay
  | (.add offset height kind, .added id) => some ⟨id, offset, height, kind⟩
  | _ => none

/-- The inlays that a list of changes put in, in the order in which they were put in. -/
def addedInlays (changes : List (InlayEdit × InlayAnswer)) : List Inlay :=
  changes.filterMap addedInlay?

/-- Those of them that none of the changes made since has taken away. -/
def lastingInlays : List (InlayEdit × InlayAnswer) → List Inlay
  | [] => []
  | change :: later =>
    ((addedInlay? change).toList.filter fun i => ∀ c ∈ later, ¬ c.1.TakesAway i.id) ++
      lastingInlays later

namespace InlaySet

/-- The set after a list of changes, each made to the set the one before it left. -/
def afterAll (s : InlaySet) (edits : List InlayEdit) : InlaySet :=
  edits.foldl (fun s edit => (s.apply edit).2) s

/-- A list of changes with what each of them answers. -/
def history (s : InlaySet) : List InlayEdit → List (InlayEdit × InlayAnswer)
  | [] => []
  | edit :: edits => (edit, (s.apply edit).1) :: history (s.apply edit).2 edits

end InlaySet

/-! ### The order of inlays -/

/-- One inlay stands before another: at a smaller offset, or at the same offset and older. -/
def Inlay.Before (a b : Inlay) : Prop := a.offset < b.offset ∨ (a.offset = b.offset ∧ a.id < b.id)

instance : Std.Asymm Inlay.Before where
  asymm a b hab hba := by
    simp only [Inlay.Before] at hab hba
    omega

/-- A stable sort by offset of inlays that are listed by age. -/
theorem pairwise_before_mergeSort {inlays : List Inlay} (h : inlays.Pairwise (·.id < ·.id)) :
    (inlays.mergeSort fun a b => a.offset ≤ b.offset).Pairwise Inlay.Before := by
  have htrans (a b c : Inlay) (hab : decide (a.offset ≤ b.offset) = true)
      (hbc : decide (b.offset ≤ c.offset) = true) : decide (a.offset ≤ c.offset) = true := by
    simp only [decide_eq_true_eq] at *
    omega
  have htotal (a b : Inlay) :
      (decide (a.offset ≤ b.offset) || decide (b.offset ≤ a.offset)) = true := by
    simpa using Nat.le_total a.offset b.offset
  induction inlays with
  | nil => simp
  | cons i rest ih =>
    obtain ⟨hyounger, hrest⟩ := List.pairwise_cons.mp h
    -- the oldest one is put in front of the first one that is not at a smaller offset
    obtain ⟨front, back, hsort, hsortRest, hfront⟩ := List.mergeSort_cons htrans htotal i rest
    have hordered := ih hrest
    have hoffsets := List.pairwise_mergeSort htrans htotal (i :: rest)
    rw [hsortRest, List.pairwise_append] at hordered
    rw [hsort] at hoffsets ⊢
    obtain ⟨hfrontOrdered, hbackOrdered, hacross⟩ := hordered
    have hback := (List.pairwise_cons.mp (List.pairwise_append.mp hoffsets).2.1).1
    refine List.pairwise_append.mpr ⟨hfrontOrdered, List.pairwise_cons.mpr ⟨?_, hbackOrdered⟩, ?_⟩
    · intro j hj
      have hmem : j ∈ rest := List.mem_mergeSort.mp (hsortRest ▸ List.mem_append_right front hj)
      have hle : i.offset ≤ j.offset := by simpa using hback j hj
      have hid : i.id < j.id := hyounger j hmem
      simp only [Inlay.Before]
      omega
    · intro j hj k hk
      rcases List.mem_cons.mp hk with rfl | hk
      · have hlt : j.offset < k.offset := by simpa using hfront j hj
        exact Or.inl hlt
      · exact hacross j hj k hk

namespace InlaySet

variable {s t : InlaySet} {i : Inlay} {id : Nat}

/-! ### Inlays under ids of their own -/

/-- The inlays stand by offset and, at the same offset, by age, each under an id of its own that
was given before the next one. -/
structure Numbered (s : InlaySet) : Prop where
  ordered : s.inlays.Pairwise Inlay.Before
  distinct : s.inlays.Pairwise (·.id ≠ ·.id)
  old : ∀ i ∈ s.inlays, i.id < s.nextId

theorem numbered_of_nil (h : s.inlays = []) : s.Numbered where
  ordered := h ▸ List.Pairwise.nil
  distinct := h ▸ List.Pairwise.nil
  old := by simp [h]

theorem Numbered.pairwise_offset (h : s.Numbered) : s.inlays.Pairwise (·.offset ≤ ·.offset) := by
  refine h.ordered.imp fun {a b} hab => ?_
  simp only [Inlay.Before] at hab
  omega

theorem Numbered.sublist {kept : List Inlay} (h : s.Numbered) (hkept : kept.Sublist s.inlays) :
    Numbered { s with inlays := kept } where
  ordered := h.ordered.sublist hkept
  distinct := h.distinct.sublist hkept
  old i hi := h.old i (hkept.subset hi)

/-- A new inlay stands behind those at its offset, being younger than all of them. -/
theorem Numbered.add (h : s.Numbered) (offset height : Nat) (kind : InlayKind) :
    (s.add offset height kind).Numbered where
  ordered := by
    refine pairwise_insertAfter h.ordered (fun j hj => ?_) (fun j hj => ?_)
    · have hle : j.offset ≤ offset := by simpa using List.mem_takeWhile_imp hj
      have hold := h.old j ((List.takeWhile_prefix _).mem hj)
      simp only [Inlay.Before]
      omega
    · exact Or.inl ((mem_dropWhile_upTo h.pairwise_offset).mp hj).2
  distinct := by
    refine pairwise_insertAfter h.distinct (fun j hj => ?_) (fun j hj => ?_)
    · exact (h.old j ((List.takeWhile_prefix _).mem hj)).ne
    · exact (h.old j ((List.dropWhile_suffix _).mem hj)).ne'
  old j hj := by
    rcases mem_insertAfter.mp hj with rfl | hj
    · exact Nat.lt_succ_self s.nextId
    · exact Nat.lt_succ_of_lt (h.old j hj)

/-- **The two answers to a removal.** If there is an inlay with the id, it is the only one, and what
stands around it stays; otherwise nothing is removed. -/
theorem Numbered.remove_cases (h : s.Numbered) (id : Nat) :
    (∃ i before after, i.id = id ∧ s.inlays = before ++ i :: after ∧
        (∀ j ∈ before ++ after, j.id ≠ id) ∧
        s.remove id = some { s with inlays := before ++ after }) ∨
      ((∀ i ∈ s.inlays, i.id ≠ id) ∧ s.remove id = none) := by
  by_cases hid : ∃ i ∈ s.inlays, i.id = id
  · obtain ⟨i, hi, hid⟩ := hid
    obtain ⟨i, before, after, hbefore, hi, hsplit, herase⟩ :=
      List.exists_of_eraseP (p := fun i : Inlay => decide (i.id = id)) hi (by simpa using hid)
    have hid : i.id = id := by simpa using hi
    have hafter : ∀ j ∈ after, i.id ≠ j.id :=
      (List.pairwise_cons.mp (List.pairwise_append.mp (hsplit ▸ h.distinct)).2.1).1
    refine Or.inl ⟨i, before, after, hid, hsplit, fun j hj => ?_, ?_⟩
    · rcases List.mem_append.mp hj with hj | hj
      · simpa using hbefore j hj
      · exact hid ▸ (hafter j hj).symm
    · have hany : (s.inlays.any fun i => decide (i.id = id)) = true := by simp [hsplit, hid]
      rw [remove, if_pos hany, herase]
  · have hnone : ∀ i ∈ s.inlays, i.id ≠ id := fun i hi hi' => hid ⟨i, hi, hi'⟩
    refine Or.inr ⟨hnone, ?_⟩
    have hany : ¬ (s.inlays.any fun i => decide (i.id = id)) = true := by simpa using hnone
    rw [remove, if_neg hany]

theorem Numbered.remove (h : s.Numbered) (hremove : s.remove id = some t) : t.Numbered := by
  rw [InlaySet.remove] at hremove
  split at hremove
  · cases hremove
    exact h.sublist List.eraseP_sublist
  · cases hremove

/-! ### One change -/

theorem Numbered.apply (h : s.Numbered) (edit : InlayEdit) : (s.apply edit).2.Numbered := by
  cases edit with
  | add offset height kind => exact h.add offset height kind
  | remove id =>
    rcases h.remove_cases id with ⟨i, before, after, -, -, -, hremove⟩ | ⟨-, hremove⟩
    · simp only [InlaySet.apply, hremove]
      exact h.remove hremove
    · simp only [InlaySet.apply, hremove]
      exact h
  | clear => exact numbered_of_nil rfl

/-- **What a change leaves:** the inlays that it does not take away, and the one that it puts in. -/
theorem Numbered.mem_apply (h : s.Numbered) (edit : InlayEdit) :
    i ∈ (s.apply edit).2.inlays ↔
      (i ∈ s.inlays ∧ ¬ edit.TakesAway i.id) ∨ addedInlay? (edit, (s.apply edit).1) = some i := by
  cases edit with
  | add offset height kind =>
    have hmem : i ∈ (s.add offset height kind).inlays ↔
        i = ⟨s.nextId, offset, height, kind⟩ ∨ i ∈ s.inlays := mem_insertAfter
    simp only [InlaySet.apply, hmem, addedInlay?, InlayEdit.TakesAway, not_false_eq_true, and_true,
      Option.some.injEq]
    rw [or_comm, eq_comm]
  | remove id =>
    simp only [addedInlay?, InlayEdit.TakesAway, reduceCtorEq, or_false]
    rcases h.remove_cases id with ⟨j, before, after, hj, hsplit, hothers, hremove⟩ |
      ⟨hnone, hremove⟩
    · simp only [InlaySet.apply, hremove, hsplit]
      constructor
      · intro hi
        have hkept : (before ++ after).Sublist (before ++ j :: after) :=
          (List.sublist_cons_self j after).append_left before
        exact ⟨hkept.subset hi, fun heq => hothers i hi heq.symm⟩
      · rintro ⟨hi, hid⟩
        rcases List.mem_append.mp hi with hi | hi
        · exact List.mem_append_left after hi
        · rcases List.mem_cons.mp hi with rfl | hi
          · exact absurd hj.symm hid
          · exact List.mem_append_right before hi
    · simp only [InlaySet.apply, hremove]
      exact ⟨fun hi => ⟨hi, fun heq => hnone i hi heq.symm⟩, And.left⟩
  | clear => simp [InlaySet.apply, InlaySet.clear, addedInlay?, InlayEdit.TakesAway]

theorem nextId_le_apply (s : InlaySet) (edit : InlayEdit) :
    s.nextId ≤ (s.apply edit).2.nextId := by
  cases edit with
  | add offset height kind => exact Nat.le_succ s.nextId
  | remove id =>
    simp only [InlaySet.apply, InlaySet.remove]
    split
    · next hremove =>
      split at hremove
      · cases hremove
        exact Nat.le_refl s.nextId
      · cases hremove
    · exact Nat.le_refl s.nextId
  | clear => exact Nat.le_refl s.nextId

/-! ### Runs of changes -/

variable {edits : List InlayEdit}

theorem Numbered.afterAll (h : s.Numbered) (edits : List InlayEdit) :
    (s.afterAll edits).Numbered := by
  induction edits generalizing s with
  | nil => exact h
  | cons edit edits ih => exact ih (h.apply edit)

theorem forall_mem_history {p : InlayEdit → Prop} :
    (∀ change ∈ s.history edits, p change.1) ↔ ∀ edit ∈ edits, p edit := by
  induction edits generalizing s with
  | nil => simp [history]
  | cons edit edits ih => rw [history, List.forall_mem_cons, List.forall_mem_cons, ih]

/-- **What a run leaves:** the inlays that none of its changes takes away, and of those that it puts
in the ones that last. -/
theorem Numbered.mem_afterAll (h : s.Numbered) :
    i ∈ (s.afterAll edits).inlays ↔
      (i ∈ s.inlays ∧ ∀ edit ∈ edits, ¬ edit.TakesAway i.id) ∨
        i ∈ lastingInlays (s.history edits) := by
  induction edits generalizing s with
  | nil => simp [InlaySet.afterAll, history, lastingInlays]
  | cons edit edits ih =>
    have hlasting : i ∈ lastingInlays (s.history (edit :: edits)) ↔
        (addedInlay? (edit, (s.apply edit).1) = some i ∧ ∀ edit ∈ edits, ¬ edit.TakesAway i.id) ∨
          i ∈ lastingInlays ((s.apply edit).2.history edits) := by
      rw [history, lastingInlays, List.mem_append, List.mem_filter, Option.mem_toList,
        decide_eq_true_eq, forall_mem_history (p := fun edit => ¬ edit.TakesAway i.id)]
    calc i ∈ (s.afterAll (edit :: edits)).inlays
        ↔ i ∈ ((s.apply edit).2.afterAll edits).inlays := Iff.rfl
      _ ↔ _ := by
        rw [ih (h.apply edit), h.mem_apply edit, hlasting, List.forall_mem_cons]
        tauto

/-- Ids count up along a run. -/
theorem pairwise_addedInlays (s : InlaySet) (edits : List InlayEdit) :
    (addedInlays (s.history edits)).Pairwise (·.id < ·.id) ∧
      ∀ i ∈ addedInlays (s.history edits), s.nextId ≤ i.id := by
  induction edits generalizing s with
  | nil => simp [history, addedInlays]
  | cons edit edits ih =>
    obtain ⟨hpair, hnew⟩ := ih (s.apply edit).2
    have hrest : (∀ i ∈ addedInlays ((s.apply edit).2.history edits), s.nextId ≤ i.id) :=
      fun i hi => (nextId_le_apply s edit).trans (hnew i hi)
    rw [history, addedInlays, List.filterMap_cons]
    cases edit with
    | add offset height kind =>
      exact ⟨List.pairwise_cons.mpr ⟨hnew, hpair⟩,
        List.forall_mem_cons.mpr ⟨Nat.le_refl s.nextId, hrest⟩⟩
    | remove id => exact ⟨hpair, hrest⟩
    | clear => exact ⟨hpair, hrest⟩

theorem lastingInlays_sublist (changes : List (InlayEdit × InlayAnswer)) :
    (lastingInlays changes).Sublist (addedInlays changes) := by
  induction changes with
  | nil => exact List.Sublist.slnil
  | cons change later ih =>
    have hadded : addedInlays (change :: later) =
        (addedInlay? change).toList ++ addedInlays later := by
      rw [addedInlays, List.filterMap_cons, addedInlays]
      cases addedInlay? change <;> rfl
    rw [lastingInlays, hadded]
    exact List.filter_sublist.append ih

/-! ### Finding inlays -/

/-- **Two look-ups find what lies between two offsets,** in whichever order the offsets are. -/
theorem Numbered.between_eq_filter (h : s.Numbered) (start stop : Nat) :
    s.between start stop = s.inlays.filter fun i => start ≤ i.offset ∧ i.offset < stop := by
  rw [between, drop_take_countWhile_before h.pairwise_offset]

/-! ### The main statement -/

/-- **An inlay set holds the inlays that last, in stable order.** After every run of changes to the
empty set the inlays are those that were put in and not taken away since, sorted by offset in such a
way that inlays at one offset stay in the order in which they were put in. All inlays that were
ever put in have different ids. A removal finds an inlay exactly if there is one with the id, and
takes out that one and nothing else. What lies between any two offsets, in either order, is
found. -/
theorem holds_lasting_inlays (h : empty.afterAll edits = s) :
    s.inlays =
        (lastingInlays (empty.history edits)).mergeSort (fun a b => a.offset ≤ b.offset) ∧
      (addedInlays (empty.history edits)).Pairwise (·.id ≠ ·.id) ∧
      (∀ id : Nat,
        ((s.apply (.remove id)).1 = .found true ↔ ∃ i ∈ s.inlays, i.id = id) ∧
          (∀ i ∈ s.inlays, i.id = id → ∃ before after, s.inlays = before ++ i :: after ∧
            (s.apply (.remove id)).2 = { s with inlays := before ++ after }) ∧
          ((∀ i ∈ s.inlays, i.id ≠ id) → s.apply (.remove id) = (.found false, s))) ∧
      ∀ start stop : Nat, s.between start stop =
        s.inlays.filter fun i => start ≤ i.offset ∧ i.offset < stop := by
  have hempty : empty.Numbered := numbered_of_nil rfl
  have hs : s.Numbered := h ▸ hempty.afterAll edits
  have hadded := (pairwise_addedInlays empty edits).1
  refine ⟨?_, hadded.imp fun hlt => hlt.ne, fun id => ?_, hs.between_eq_filter⟩
  · have hlasting := pairwise_before_mergeSort (hadded.sublist (lastingInlays_sublist _))
    refine hs.ordered.eq_of_mem_iff hlasting fun i => ?_
    rw [← h, hempty.mem_afterAll, List.mem_mergeSort]
    simp [empty]
  · rcases hs.remove_cases id with ⟨i, before, after, hid, hsplit, hothers, hremove⟩ |
      ⟨hnone, hremove⟩
    · refine ⟨?_, fun j hj hjd => ⟨before, after, ?_, ?_⟩, fun hnone => ?_⟩
      · simp only [InlaySet.apply, hremove, true_iff]
        exact ⟨i, by simp [hsplit], hid⟩
      · have hji : j = i := by
          by_contra hne
          have hmem : j ∈ before ++ after := by
            rw [hsplit] at hj
            simpa [hne] using hj
          exact hothers j hmem hjd
        rw [hsplit, hji]
      · simp only [InlaySet.apply, hremove]
      · exact absurd hid (hnone i (by simp [hsplit]))
    · refine ⟨?_, fun j hj hjd => absurd hjd (hnone j hj), fun _ => ?_⟩
      · simp only [InlaySet.apply, hremove]
        simpa using hnone
      · simp only [InlaySet.apply, hremove]

/-- Inlays at two offsets, put in out of order. One is removed, one is looked for before it is put
in, all are removed at once, and more are put in. -/
def reshuffled : List InlayEdit :=
  [.add 7 10 .inline, .remove 5, .add 3 20 .block, .clear, .add 7 30 .inline, .add 3 10 .block,
    .add 7 20 .block, .add 3 40 .inline, .remove 4]

theorem lasting_in_reshuffled :
    (empty.afterAll reshuffled).inlays =
        [⟨3, 3, 10, .block⟩, ⟨5, 3, 40, .inline⟩, ⟨2, 7, 30, .inline⟩] ∧
      lastingInlays (empty.history reshuffled) =
        [⟨2, 7, 30, .inline⟩, ⟨3, 3, 10, .block⟩, ⟨5, 3, 40, .inline⟩] ∧
      ((empty.afterAll reshuffled).apply (.remove 5)).1 = .found true ∧
      (empty.afterAll reshuffled).apply (.remove 4) = (.found false, empty.afterAll reshuffled) ∧
      (empty.afterAll reshuffled).between 7 3 = [] := by
  have hinlays : (empty.afterAll reshuffled).inlays =
      [⟨3, 3, 10, .block⟩, ⟨5, 3, 40, .inline⟩, ⟨2, 7, 30, .inline⟩] := by decide
  have hrun : empty.afterAll reshuffled = empty.afterAll reshuffled := rfl
  obtain ⟨-, -, hremove, hbetween⟩ := holds_lasting_inlays hrun
  refine ⟨hinlays, by decide, (hremove 5).1.mpr ?_, (hremove 4).2.2 ?_, ?_⟩
  · rw [hinlays]
    decide
  · rw [hinlays]
    decide
  · rw [hbetween, hinlays]
    decide

end InlaySet

end RowLayout
