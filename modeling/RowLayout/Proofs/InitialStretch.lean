import RowLayout.Layout.Basic

/-!
# Initial stretches of ordered lists

A look-up in an ordered list reads an initial stretch of it. That stretch is all that passes the
test, wherever in the list it stands, as soon as the test cannot begin to hold further on: every
element in front of one that passes has to pass as well. Order by offset gives this for the tests
"before an offset" and "not after an offset", and no other tests are used.

## Main results

* `pairwise_iff_getElem?` — what holds of every two elements, by their indices
* `takeWhile_eq_filter`, `dropWhile_eq_filter` — the stretch and the rest as filters
* `countWhile_eq_countP`, `lt_countWhile_iff` — its length as a count, and the indices below it
* `lastWhile?_eq_some_iff_last` — its last element as the last one that passes
* `lastWhile?_upTo_eq_some_iff` — and as the one behind which the list passes an offset
* `pairwise_insertAfter` — an insertion behind the stretch keeps a list in order
* `Mark.passWhile_passWhile` — a mark does not see in how many steps it was moved
-/

namespace RowLayout

variable {α : Type}

/-! ### Elements by index -/

theorem pairwise_iff_getElem? {R : α → α → Prop} {xs : List α} :
    xs.Pairwise R ↔
      ∀ (i j : Nat) (x y : α), i < j → xs[i]? = some x → xs[j]? = some y → R x y := by
  rw [List.pairwise_iff_getElem]
  constructor
  · intro h i j x y hij hx hy
    obtain ⟨hi, rfl⟩ := List.getElem?_eq_some_iff.mp hx
    obtain ⟨hj, rfl⟩ := List.getElem?_eq_some_iff.mp hy
    exact h i j hi hj hij
  · intro h i j hi hj hij
    exact h i j _ _ hij (List.getElem?_eq_getElem hi) (List.getElem?_eq_getElem hj)

/-- In front of an element there is one at every index. -/
theorem exists_getElem?_of_le {xs : List α} {i j : Nat} {y : α} (hij : i ≤ j)
    (hy : xs[j]? = some y) : ∃ x, xs[i]? = some x :=
  ⟨_, List.getElem?_eq_getElem (Nat.lt_of_le_of_lt hij (List.getElem?_eq_some_iff.mp hy).1)⟩

/-- Behind the index at which the next element is missing there is none. -/
theorem le_of_getElem?_succ_eq_none {xs : List α} {i k : Nat} {x : α} (hx : xs[i]? = some x)
    (hend : xs[k + 1]? = none) : i ≤ k := by
  have hi := (List.getElem?_eq_some_iff.mp hx).1
  have hlength := List.getElem?_eq_none_iff.mp hend
  omega

/-- Lists with the same values have the same value at every index. -/
theorem getElem?_map_congr {β : Type} {f : α → β} {xs ys : List α} (h : ys.map f = xs.map f)
    (i : Nat) : ys[i]?.map f = xs[i]?.map f := by
  rw [← List.getElem?_map, h, List.getElem?_map]

/-- Elements that are related neither way round stand at the same place. -/
theorem eq_of_pairwise {R : α → α → Prop} {xs : List α} {x y : α} (h : xs.Pairwise R)
    (hx : x ∈ xs) (hy : y ∈ xs) (hxy : ¬ R x y) (hyx : ¬ R y x) : x = y := by
  obtain ⟨i, hi⟩ := List.getElem?_of_mem hx
  obtain ⟨j, hj⟩ := List.getElem?_of_mem hy
  rcases Nat.lt_trichotomy i j with hij | rfl | hij
  · exact absurd (pairwise_iff_getElem?.mp h i j x y hij hi hj) hxy
  · exact Option.some.inj (hi.symm.trans hj)
  · exact absurd (pairwise_iff_getElem?.mp h j i y x hij hj hi) hyx

/-- What comes behind an initial stretch is what is left once its elements are passed. -/
theorem drop_countWhile (p : α → Bool) (xs : List α) :
    xs.drop (countWhile p xs) = xs.dropWhile p := by
  have hsplit := List.takeWhile_append_dropWhile (p := p) (l := xs)
  calc xs.drop (countWhile p xs)
      = (xs.takeWhile p ++ xs.dropWhile p).drop (xs.takeWhile p).length := by rw [hsplit]; rfl
    _ = xs.dropWhile p := List.drop_left

theorem lastWhile?_map {β : Type} (p : β → Bool) (f : α → β) (xs : List α) :
    lastWhile? p (xs.map f) = lastWhile? (p ∘ f) xs := by
  rw [lastWhile?, lastWhile?, countWhile, countWhile, List.takeWhile_map, List.length_map]

section Threshold

variable {p : α → Bool} {xs : List α}

/-- An ordered list begins with everything that passes. -/
theorem takeWhile_eq_filter (h : xs.Pairwise fun a b => p b = true → p a = true) :
    xs.takeWhile p = xs.filter p := by
  induction xs with
  | nil => rfl
  | cons a rest ih =>
    obtain ⟨hhead, hrest⟩ := List.pairwise_cons.mp h
    by_cases ha : p a = true
    · rw [List.takeWhile_cons_of_pos ha, List.filter_cons_of_pos ha, ih hrest]
    · have hnone : rest.filter p = [] :=
        List.filter_eq_nil_iff.mpr fun b hb hpb => ha (hhead b hb hpb)
      rw [List.takeWhile_cons_of_neg ha, List.filter_cons_of_neg ha, hnone]

/-- An ordered list ends with everything that fails. -/
theorem dropWhile_eq_filter (h : xs.Pairwise fun a b => p b = true → p a = true) :
    xs.dropWhile p = xs.filter fun x => !p x := by
  induction xs with
  | nil => rfl
  | cons a rest ih =>
    obtain ⟨hhead, hrest⟩ := List.pairwise_cons.mp h
    by_cases ha : p a = true
    · rw [List.dropWhile_cons_of_pos ha, List.filter_cons_of_neg (by simp [ha]), ih hrest]
    · have hall : rest.filter (fun x => !p x) = rest :=
        List.filter_eq_self.mpr fun b hb => by
          have hb' : ¬ p b = true := fun hpb => ha (hhead b hb hpb)
          simpa using hb'
      rw [List.dropWhile_cons_of_neg ha, List.filter_cons_of_pos (by simpa using ha), hall]

theorem countWhile_eq_countP (h : xs.Pairwise fun a b => p b = true → p a = true) :
    countWhile p xs = xs.countP p := by
  rw [countWhile, takeWhile_eq_filter h, List.countP_eq_length_filter]

/-- In an ordered list the elements that pass are those at an index below their number. -/
theorem lt_countWhile_iff (h : xs.Pairwise fun a b => p b = true → p a = true) {i : Nat} :
    i < countWhile p xs ↔ ∃ x, xs[i]? = some x ∧ p x = true := by
  have hsplit := List.takeWhile_append_dropWhile (p := p) (l := xs)
  rw [countWhile]
  constructor
  · intro hi
    obtain ⟨x, hx⟩ : ∃ x, (xs.takeWhile p)[i]? = some x := ⟨_, List.getElem?_eq_getElem hi⟩
    have hmem := List.mem_of_getElem? hx
    rw [takeWhile_eq_filter h, List.mem_filter] at hmem
    refine ⟨x, ?_, hmem.2⟩
    calc xs[i]? = (xs.takeWhile p ++ xs.dropWhile p)[i]? := by rw [hsplit]
      _ = some x := by rw [List.getElem?_append_left hi, hx]
  · rintro ⟨x, hx, hpx⟩
    refine Nat.lt_of_not_le fun hi => ?_
    rw [← hsplit, List.getElem?_append_right hi] at hx
    have hmem := List.mem_of_getElem? hx
    rw [dropWhile_eq_filter h, List.mem_filter] at hmem
    simp [hpx] at hmem

theorem lastWhile?_eq_none_iff_forall (h : xs.Pairwise fun a b => p b = true → p a = true) :
    lastWhile? p xs = none ↔ ∀ x ∈ xs, ¬ p x = true := by
  rw [lastWhile?_eq_none_iff, countWhile_eq_countP h, List.countP_eq_zero]

/-- In an ordered list the last element of the stretch is the last one of all that pass. -/
theorem lastWhile?_eq_some_iff_last (h : xs.Pairwise fun a b => p b = true → p a = true)
    {k : Nat} :
    lastWhile? p xs = some k ↔
      (∃ x, xs[k]? = some x ∧ p x = true) ∧ ∀ j x, xs[j]? = some x → p x = true → j ≤ k := by
  rw [lastWhile?_eq_some_iff]
  constructor
  · intro hcount
    refine ⟨(lt_countWhile_iff h).mp (by omega), fun j x hx hpx => ?_⟩
    have := (lt_countWhile_iff h).mpr ⟨x, hx, hpx⟩
    omega
  · rintro ⟨hk, hlast⟩
    refine Nat.le_antisymm (Nat.le_of_not_lt fun hlt => ?_) ((lt_countWhile_iff h).mpr hk)
    obtain ⟨x, hx, hpx⟩ := (lt_countWhile_iff h).mp hlt
    have := hlast _ x hx hpx
    omega

end Threshold

/-! ### The two tests in use -/

section Keys

variable {key : α → Nat} {xs : List α}

theorem pairwise_before (h : xs.Pairwise (key · ≤ key ·)) (o : Nat) :
    xs.Pairwise fun a b => decide (key b < o) = true → decide (key a < o) = true := by
  refine h.imp fun {a b} hab hb => ?_
  simp only [decide_eq_true_eq] at hb ⊢
  omega

theorem pairwise_upTo (h : xs.Pairwise (key · ≤ key ·)) (o : Nat) :
    xs.Pairwise fun a b => decide (key b ≤ o) = true → decide (key a ≤ o) = true := by
  refine h.imp fun {a b} hab hb => ?_
  simp only [decide_eq_true_eq] at hb ⊢
  omega

/-- In an ordered list the last element up to an offset is the one behind which the list passes the
offset. -/
theorem lastWhile?_upTo_eq_some_iff (h : xs.Pairwise (key · ≤ key ·)) {o n : Nat} :
    lastWhile? (key · ≤ o) xs = some n ↔
      ∃ x, xs[n]? = some x ∧ key x ≤ o ∧ ∀ next, xs[n + 1]? = some next → o < key next := by
  have hcount (i : Nat) := lt_countWhile_iff (pairwise_upTo h o) (i := i)
  simp only [decide_eq_true_eq] at hcount
  rw [lastWhile?_eq_some_iff]
  constructor
  · intro hn
    obtain ⟨x, hx, hle⟩ := (hcount n).mp (by omega)
    refine ⟨x, hx, hle, ?_⟩
    intro next hnext
    refine Nat.lt_of_not_le fun hge => ?_
    have := (hcount (n + 1)).mpr ⟨next, hnext, hge⟩
    omega
  · rintro ⟨x, hx, hle, hpast⟩
    have hin := (hcount n).mpr ⟨x, hx, hle⟩
    have hout : ¬ n + 1 < countWhile (key · ≤ o) xs := by
      rw [hcount]
      rintro ⟨next, hnext, hnextLe⟩
      exact Nat.not_lt_of_le hnextLe (hpast next hnext)
    omega

/-- An ordered list that begins at or before an offset has a last element that does. -/
theorem exists_lastWhile?_upTo (h : xs.Pairwise (key · ≤ key ·)) {o : Nat} {first : α}
    (hfirst : xs[0]? = some first) (hle : key first ≤ o) :
    ∃ n x, lastWhile? (key · ≤ o) xs = some n ∧ xs[n]? = some x ∧ key x ≤ o ∧
      ∀ m y, xs[m]? = some y → key y ≤ o → m ≤ n := by
  have hordered := pairwise_upTo h o
  cases hlast : lastWhile? (key · ≤ o) xs with
  | none =>
    have hnone := (lastWhile?_eq_none_iff_forall hordered).mp hlast
    exact absurd (decide_eq_true hle) (hnone first (List.mem_of_getElem? hfirst))
  | some n =>
    obtain ⟨⟨x, hx, hxle⟩, hmax⟩ := (lastWhile?_eq_some_iff_last hordered).mp hlast
    simp only [decide_eq_true_eq] at hxle hmax
    exact ⟨n, x, rfl, hx, hxle, hmax⟩

/-- What is left of an ordered list once everything up to an offset has been passed. -/
theorem mem_dropWhile_upTo (h : xs.Pairwise (key · ≤ key ·)) {o : Nat} {x : α} :
    x ∈ xs.dropWhile (key · ≤ o) ↔ x ∈ xs ∧ o < key x := by
  rw [dropWhile_eq_filter (pairwise_upTo h o)]
  simp

/-- What is left of an ordered list once everything before an offset has been passed. -/
theorem dropWhile_before (h : xs.Pairwise (key · ≤ key ·)) (o : Nat) :
    xs.dropWhile (key · < o) = xs.filter (o ≤ key ·) := by
  rw [dropWhile_eq_filter (pairwise_before h o)]
  refine List.filter_congr fun x _ => ?_
  rw [← decide_not, decide_eq_decide, Nat.not_lt]

/-- Passing an ordered list from one offset to another meets exactly what lies between them. -/
theorem takeWhile_dropWhile_before (h : xs.Pairwise (key · ≤ key ·)) (a b : Nat) :
    (xs.dropWhile (key · < a)).takeWhile (key · < b) =
      xs.filter fun x => a ≤ key x ∧ key x < b := by
  rw [dropWhile_before h a, takeWhile_eq_filter (pairwise_before (h.filter _) b),
    List.filter_filter]
  refine List.filter_congr fun x _ => ?_
  rw [Bool.decide_and, Bool.and_comm]

/-- Two stretches at the front of an ordered list, the second one moved up to the first if it is
shorter, have between them exactly what lies between their offsets. -/
theorem drop_take_countWhile_before (h : xs.Pairwise (key · ≤ key ·)) (a b : Nat) :
    (xs.take (max (countWhile (key · < b) xs) (countWhile (key · < a) xs))).drop
        (countWhile (key · < a) xs) = xs.filter fun x => a ≤ key x ∧ key x < b := by
  have htake (n : Nat) : xs.take (countWhile (key · < n) xs) = xs.takeWhile (key · < n) :=
    (List.prefix_iff_eq_take.mp (List.takeWhile_prefix _)).symm
  rcases Nat.le_total a b with hab | hba
  · -- the second stretch begins with the first one
    have hstretch : xs.takeWhile (key · < b) =
        xs.takeWhile (key · < a) ++ (xs.dropWhile (key · < a)).takeWhile (key · < b) := by
      have hpass : ∀ x ∈ xs.takeWhile (key · < a), decide (key x < b) = true := by
        intro x hx
        rw [takeWhile_eq_filter (pairwise_before h a), List.mem_filter, decide_eq_true_eq] at hx
        exact decide_eq_true (Nat.lt_of_lt_of_le hx.2 hab)
      rw [← List.takeWhile_append_of_pos hpass, List.takeWhile_append_dropWhile]
    have hle : countWhile (key · < a) xs ≤ countWhile (key · < b) xs := by
      rw [countWhile, countWhile, hstretch, List.length_append]
      exact Nat.le_add_right _ _
    rw [Nat.max_eq_left hle, htake, hstretch, ← takeWhile_dropWhile_before h a b]
    exact List.drop_left
  · have hle : countWhile (key · < b) xs ≤ countWhile (key · < a) xs := by
      rw [countWhile_eq_countP (pairwise_before h a), countWhile_eq_countP (pairwise_before h b)]
      refine List.countP_mono_left fun x _ hx => ?_
      simp only [decide_eq_true_eq] at hx ⊢
      omega
    have hnone : (xs.filter fun x => a ≤ key x ∧ key x < b) = [] := by
      refine List.filter_eq_nil_iff.mpr fun x _ => ?_
      simp only [decide_eq_true_eq]
      omega
    rw [Nat.max_eq_right hle, hnone, List.drop_take, Nat.sub_self, List.take_zero]

end Keys

/-! ### Insertion -/

/-- An element put behind everything that has to come before it keeps a list in order. -/
theorem pairwise_insertAfter {R : α → α → Prop} {p : α → Bool} {x : α} {xs : List α}
    (hxs : xs.Pairwise R) (hbefore : ∀ y ∈ xs.takeWhile p, R y x)
    (hafter : ∀ y ∈ xs.dropWhile p, R x y) : (insertAfter p x xs).Pairwise R := by
  rw [← List.takeWhile_append_dropWhile (p := p) (l := xs), List.pairwise_append] at hxs
  obtain ⟨htake, hdrop, hacross⟩ := hxs
  refine List.pairwise_append.mpr ⟨htake, List.pairwise_cons.mpr ⟨hafter, hdrop⟩, ?_⟩
  intro a ha b hb
  rcases List.mem_cons.mp hb with rfl | hb
  · exact hbefore a ha
  · exact hacross a ha b hb

theorem mem_insertAfter {p : α → Bool} {x y : α} {xs : List α} :
    y ∈ insertAfter p x xs ↔ y = x ∨ y ∈ xs := by
  rw [(insertAfter_perm p x xs).mem_iff, List.mem_cons]

/-! ### Marks -/

namespace Mark

theorem passWhile_cons_of_pos {p : α → Bool} {x : α} (h : p x = true) (behind : Nat)
    (rest : List α) :
    (⟨behind, x :: rest⟩ : Mark α).passWhile p = (⟨behind + 1, rest⟩ : Mark α).passWhile p := by
  simp only [passWhile, countWhile_cons, h, if_true, List.dropWhile_cons_of_pos, mk.injEq,
    and_true]
  omega

theorem passWhile_cons_of_neg {p : α → Bool} {x : α} (h : ¬ p x = true) (behind : Nat)
    (rest : List α) :
    (⟨behind, x :: rest⟩ : Mark α).passWhile p = ⟨behind, x :: rest⟩ := by
  simp [passWhile, countWhile_cons, h]

/-- A mark stays where it is if nothing ahead passes the test. -/
theorem passWhile_eq_self {p : α → Bool} {m : Mark α} (h : ∀ x ∈ m.ahead, ¬ p x = true) :
    m.passWhile p = m := by
  obtain ⟨behind, ahead⟩ := m
  cases ahead with
  | nil => rfl
  | cons x rest => exact passWhile_cons_of_neg (h x List.mem_cons_self) behind rest

/-- A mark that was moved by a test is moved on by a weaker one as if it had never been moved. -/
theorem passWhile_passWhile {p q : α → Bool} (h : ∀ x, p x = true → q x = true) (m : Mark α) :
    (m.passWhile p).passWhile q = m.passWhile q := by
  obtain ⟨behind, ahead⟩ := m
  induction ahead generalizing behind with
  | nil => rfl
  | cons x rest ih =>
    by_cases hp : p x = true
    · rw [passWhile_cons_of_pos hp, passWhile_cons_of_pos (h x hp), ih]
    · rw [passWhile_cons_of_neg hp]

/-- The last element a mark has passed is the last one of the stretch. -/
theorem last?_passWhile_atFront (p : α → Bool) (xs : List α) :
    ((atFront xs).passWhile p).last? = lastWhile? p xs := by
  have hbehind : ((atFront xs).passWhile p).behind = countWhile p xs := Nat.zero_add _
  cases hcount : countWhile p xs with
  | zero => simp [last?, lastWhile?, hbehind, hcount]
  | succ n => simp [last?, lastWhile?, hbehind, hcount]

/-- A mark stands where the front of a list has been passed up to some point. -/
theorem passWhile_of_split {p : α → Bool} {passed : List α} (h : ∀ x ∈ passed, p x = true)
    (ahead : List α) :
    (atFront (passed ++ ahead)).passWhile p =
      (⟨passed.length, ahead⟩ : Mark α).passWhile p := by
  have hdrop : (passed ++ ahead).dropWhile p = ahead.dropWhile p := by
    rw [List.dropWhile_append_of_pos h]
  have htake : (passed ++ ahead).takeWhile p = passed ++ ahead.takeWhile p :=
    List.takeWhile_append_of_pos h
  simp [passWhile, atFront, countWhile, hdrop, htake]

end Mark

end RowLayout
