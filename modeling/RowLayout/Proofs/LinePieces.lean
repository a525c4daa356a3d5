import RowLayout.Proofs.WrapPlaces

/-!
# The pieces of a wrapped line

Cutting a line at its wrap points gives pieces that each have a character, and put together again
they are the line. This holds of any text, with line breaks in it or without characters at all, and
of any points that rise strictly, behind the first character of the text and no further than in
front of its last one. Both scans cut at such points only, however narrow the viewport is, however
far the continuation rows are indented and however many characters take no cells.

The pieces do not hide a point: they meet at the points, at every one of them and nowhere else. So a
text has as many pieces as it has points and one more, unless it has no characters, and then there
is neither a point nor a piece.

## Main definitions

* `piecesFrom` — the pieces of a text that is cut at points
* `seamsFrom` — the places at which pieces meet

## Main results

* `ProperCuts.seamsFrom_pieces`, `flatten_pieces`, `ne_nil_of_mem_pieces` — cutting a text at points
  that rise strictly inside it
* `wrapPoints_cut_properly` — the wrap points of every line, and the pieces that they make
-/

namespace RowLayout

/-! ### Pieces and seams -/

/-- The pieces of a text that is cut in front of the characters at the points, if its first
character has the index `start`. Where nothing of the text is left there is no piece. -/
def piecesFrom (start : Nat) : List Nat → List Char → List (List Char)
  | _, [] => []
  | [], text => [text]
  | p :: points, text => text.take (p - start) :: piecesFrom p points (text.drop (p - start))

/-- The indices at which pieces meet that are put together, if the first of them begins at
`start`. -/
def seamsFrom (start : Nat) : List (List Char) → List Nat
  | [] | [_] => []
  | piece :: next :: rest =>
    (start + piece.length) :: seamsFrom (start + piece.length) (next :: rest)

/-- The points rise strictly, and they lie inside a text of the given length whose first character
has the index `start`: behind that character, and no further than in front of the last one. -/
def ProperCuts (start length : Nat) (points : List Nat) : Prop :=
  Rising (start + 1) points ∧ ∀ p ∈ points, p < start + length

namespace ProperCuts

variable {start p : Nat} {points : List Nat} {text : List Char}

/-- Behind the first point a text is cut properly as well. -/
theorem tail (h : ProperCuts start text.length (p :: points)) :
    start < p ∧ p < start + text.length ∧
      ProperCuts p (text.drop (p - start)).length points := by
  obtain ⟨⟨hpair, hleast⟩, hin⟩ := h
  obtain ⟨hfirst, hpair⟩ := List.pairwise_cons.mp hpair
  have hp : start < p := hleast p List.mem_cons_self
  have hlast : p < start + text.length := hin p List.mem_cons_self
  refine ⟨hp, hlast, ⟨hpair, hfirst⟩, fun q hq => ?_⟩
  have hq := hin q (List.mem_cons_of_mem p hq)
  rw [List.length_drop]
  omega

/-- Without characters there is no place to cut. -/
theorem eq_nil (h : ProperCuts start 0 points) : points = [] := by
  refine List.eq_nil_iff_forall_not_mem.mpr fun p hp => ?_
  have hleast := h.1.2 p hp
  have hin := h.2 p hp
  omega

/-- A text with characters begins with a piece, up to the first point. -/
theorem piecesFrom_cons (h : ProperCuts start text.length (p :: points)) :
    piecesFrom start (p :: points) text =
      text.take (p - start) :: piecesFrom p points (text.drop (p - start)) := by
  cases text with
  | nil => exact absurd h.eq_nil (List.cons_ne_nil p points)
  | cons c rest => rfl

/-- **No piece is empty.** -/
theorem ne_nil_of_mem_pieces (h : ProperCuts start text.length points) :
    ∀ piece ∈ piecesFrom start points text, piece ≠ [] := by
  induction points generalizing start text with
  | nil =>
    cases text with
    | nil => simp [piecesFrom]
    | cons c rest => simp [piecesFrom]
  | cons p points ih =>
    obtain ⟨hp, hlast, hrest⟩ := h.tail
    rw [h.piecesFrom_cons, List.forall_mem_cons]
    refine ⟨fun hnil => ?_, ih hrest⟩
    have hlength := congrArg List.length hnil
    rw [List.length_take, List.length_nil] at hlength
    omega

/-- **Pieces, put together again, are the text.** -/
theorem flatten_pieces (h : ProperCuts start text.length points) :
    (piecesFrom start points text).flatten = text := by
  induction points generalizing start text with
  | nil =>
    cases text with
    | nil => rfl
    | cons c rest => simp [piecesFrom]
  | cons p points ih =>
    obtain ⟨-, -, hrest⟩ := h.tail
    rw [h.piecesFrom_cons, List.flatten_cons, ih hrest, List.take_append_drop]

/-- **Pieces meet at the points.** -/
theorem seamsFrom_pieces (h : ProperCuts start text.length points) :
    seamsFrom start (piecesFrom start points text) = points := by
  induction points generalizing start text with
  | nil =>
    cases text with
    | nil => rfl
    | cons c rest => rfl
  | cons p points ih =>
    obtain ⟨hp, hlast, hrest⟩ := h.tail
    have hlength : start + (text.take (p - start)).length = p := by
      rw [List.length_take]
      omega
    have hseams := ih hrest
    -- something is left behind the point, so another piece follows
    have hnext : piecesFrom p points (text.drop (p - start)) ≠ [] := by
      intro hnil
      have hflat := hrest.flatten_pieces
      rw [hnil, List.flatten_nil] at hflat
      have hleft := congrArg List.length hflat
      rw [List.length_nil, List.length_drop] at hleft
      omega
    rw [h.piecesFrom_cons]
    cases hpieces : piecesFrom p points (text.drop (p - start)) with
    | nil => exact absurd hpieces hnext
    | cons next rest =>
      rw [hpieces] at hseams
      rw [seamsFrom, hlength, hseams]

end ProperCuts

/-! ### The pieces of a line -/

variable (mode : WrapMode) (indent : WrapIndent) (width tab : Nat) (text : List Char)

/-- **The wrap points of a line cut it properly.** They rise strictly, and each of them lies behind
the first character and in front of another one. The pieces of the line between them all have
characters, meet at the points and, put together again, are the line. -/
theorem wrapPoints_cut_properly :
    (wrapPoints mode indent width tab text).Pairwise (· < ·) ∧
      (∀ p ∈ wrapPoints mode indent width tab text, 0 < p ∧ p < text.length) ∧
      (∀ piece ∈ piecesFrom 0 (wrapPoints mode indent width tab text) text, piece ≠ []) ∧
      (piecesFrom 0 (wrapPoints mode indent width tab text) text).flatten = text ∧
      seamsFrom 0 (piecesFrom 0 (wrapPoints mode indent width tab text) text) =
        wrapPoints mode indent width tab text := by
  have hrising := rising_wrapPoints mode indent width tab text
  have hinside : ∀ p ∈ wrapPoints mode indent width tab text, p < text.length :=
    fun p hp => lt_of_mem_wrapPoints hp
  have hcuts : ProperCuts 0 text.length (wrapPoints mode indent width tab text) := by
    refine ⟨hrising, fun p hp => ?_⟩
    rw [Nat.zero_add]
    exact hinside p hp
  exact ⟨hrising.1, fun p hp => ⟨hrising.2 p hp, hinside p hp⟩, hcuts.ne_nil_of_mem_pieces,
    hcuts.flatten_pieces, hcuts.seamsFrom_pieces⟩

/-- Characters without cells and an indentation that leaves one cell of the row. -/
example :
    piecesFrom 0 (wrapPoints .char (.fixedCells 9) 3 4 ['a', 'b', 'c', '\u0301', '\n', '世'])
        ['a', 'b', 'c', '\u0301', '\n', '世'] =
      [['a', 'b', 'c'], ['\u0301', '\n'], ['世']] := by
  decide +kernel

end RowLayout
