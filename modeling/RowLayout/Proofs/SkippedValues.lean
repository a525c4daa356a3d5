import RowLayout.Json.Skip

/-!
# Skipped values

A value that nobody asks for is passed token by token, with a stack of what is open around it. From
where a value is expected its tokens lead to where that value has ended, whatever the stack was, and
the stack is then what it was before; so values may be nested to any depth. Nothing is asked of the
parts of the value but their form: names may be repeated, strings need not have a text and numbers
need not have a value.

The proof follows the value. A list and an object are passed in the same way, entry by entry, once it
is known how each of the entries is passed.

## Main definitions

* `Tree` — a value as it stands in a document, and `Tree.tokens`
* `Skip.Passes` — tokens lead from what may come next to what may come then

## Main results

* `Skip.passes_frame` — a list or an object is passed if its entries are
* `Tree.passes_tokens` — every value is passed
-/

namespace RowLayout.Json

/-! ### Lists and objects in tokens -/

/-- Parts with something between them: the first part, and each of the others behind what stands
between. -/
theorem intercalate_cons_eq {α : Type} (between first : List α) (rest : List (List α)) :
    between.intercalate (first :: rest) = first ++ rest.flatMap (between ++ ·) := by
  induction rest generalizing first with
  | nil => simp
  | cons second rest ih =>
    simp only [List.intercalate_cons_cons, ih, List.flatMap_cons, List.append_assoc]

/-- The tokens of a list with the given elements. -/
def listTokens (elements : List (List Token)) : List Token :=
  .openBracket :: ([Token.comma].intercalate elements ++ [.closeBracket])

/-- The tokens of an object with the given members. -/
def objectTokens (members : List (List Token)) : List Token :=
  .openBrace :: ([Token.comma].intercalate members ++ [.closeBrace])

/-! ### Values as they stand -/

/-- A value as it stands in a document: its strings and numbers are lexemes, whatever they mean. -/
inductive Tree where
  | word (word : Word)
  | string (pieces : List Piece)
  | number (lexeme : NumberLexeme)
  | list (elements : List Tree)
  | object (members : List (List Piece × Tree))

namespace Tree

mutual

/-- The tokens of a value. -/
def tokens : Tree → List Token
  | word w => [.word (.ok w)]
  | string pieces => [.string ⟨pieces, none⟩]
  | number lexeme => [.number (.ok lexeme)]
  | list elements => listTokens (tokensOfAll elements)
  | object members => objectTokens (tokensOfMembers members)

/-- The tokens of several values. -/
def tokensOfAll : List Tree → List (List Token)
  | [] => []
  | v :: rest => tokens v :: tokensOfAll rest

/-- The tokens of several members: the name, a colon and the value. -/
def tokensOfMembers : List (List Piece × Tree) → List (List Token)
  | [] => []
  | (name, v) :: rest => (.string ⟨name, none⟩ :: .colon :: tokens v) :: tokensOfMembers rest

end

end Tree

/-! ### Passing tokens -/

namespace Skip

variable {s q : Skip} {r : Option Skip} {t : Token} {tokens tokens' : List Token} {frame : Frame}
  {outer : List Frame}

/-- The tokens lead from what may come next to what may come then, if anything. -/
inductive Passes : Skip → List Token → Option Skip → Prop
  | last {s : Skip} {t : Token} {r : Option Skip} (hstep : s.step t = .ok r) : Passes s [t] r
  | more {s q : Skip} {t : Token} {tokens : List Token} {r : Option Skip}
    (hstep : s.step t = .ok (some q)) (hrest : Passes q tokens r) : Passes s (t :: tokens) r

theorem Passes.append (h : Passes s tokens (some q)) (h' : Passes q tokens' r) :
    Passes s (tokens ++ tokens') r := by
  generalize hend : some q = reached at h
  induction h with
  | last hstep => exact .more (hend ▸ hstep) h'
  | more hstep _ ih => exact .more hstep (ih hend)

/-- Only the first step asks where the tokens begin. -/
theorem Passes.of_step_eq (h : Passes s (t :: tokens) r) (hstep : q.step t = s.step t) :
    Passes q (t :: tokens) r := by
  cases h with
  | last h => exact .last (hstep.trans h)
  | more h hrest => exact .more (hstep.trans h) hrest

/-! ### Entries of a frame -/

/-- The token that ends a frame. -/
def closing : Frame → Token
  | .list => .closeBracket
  | .object => .closeBrace

/-- The tokens are an entry of a frame: they are passed where the first entry may stand, and behind a
comma. -/
structure PassesEntry (frame : Frame) (outer : List Frame) (entry : List Token) : Prop where
  next : Passes (nextEntry outer frame) entry (some (behind frame outer))
  first : Passes (first frame outer) entry (some (behind frame outer))

/-- Behind an entry, others are passed up to the end of the frame. -/
theorem passes_moreEntries {entries : List (List Token)}
    (h : ∀ entry ∈ entries, PassesEntry frame outer entry) :
    Passes (behind frame outer) (entries.flatMap ([Token.comma] ++ ·) ++ [closing frame])
      (ended outer) := by
  induction entries with
  | nil => cases frame <;> exact .last rfl
  | cons entry entries ih =>
    obtain ⟨hentry, hrest⟩ := List.forall_mem_cons.mp h
    have hcomma : (behind frame outer).step .comma = .ok (some (nextEntry outer frame)) := by
      cases frame <;> rfl
    rw [List.flatMap_cons, List.append_assoc, List.append_assoc]
    exact .more hcomma (hentry.next.append (ih hrest))

/-- **A list or an object is passed** if its entries are. -/
theorem passes_frame {entries : List (List Token)}
    (h : ∀ entry ∈ entries, PassesEntry frame outer entry) :
    Passes (first frame outer) ([Token.comma].intercalate entries ++ [closing frame])
      (ended outer) := by
  cases entries with
  | nil => cases frame <;> exact .last rfl
  | cons entry entries =>
    obtain ⟨hentry, hrest⟩ := List.forall_mem_cons.mp h
    rw [intercalate_cons_eq, List.append_assoc]
    exact hentry.first.append (passes_moreEntries hrest)

end Skip

/-! ### Passing values -/

namespace Tree

open Skip

/-- No value begins with the mark that ends a list. -/
theorem passes_first {v : Tree} {outer : List Frame} {r : Option Skip}
    (h : Passes (.value (.list :: outer)) v.tokens r) : Passes (.first .list outer) v.tokens r := by
  cases v <;> rw [tokens] at h ⊢ <;> exact h.of_step_eq rfl

mutual

/-- **Every value is passed,** and what is open around it stays open. -/
theorem passes_tokens : ∀ (v : Tree) (outer : List Frame),
    Passes (.value outer) v.tokens (ended outer)
  | word _, _ => .last rfl
  | string _, _ => .last rfl
  | number _, _ => .last rfl
  | list elements, outer => .more rfl (passes_frame (passes_all elements outer))
  | object members, outer => .more rfl (passes_frame (passes_members members outer))

theorem passes_all : ∀ (elements : List Tree) (outer : List Frame),
    ∀ entry ∈ tokensOfAll elements, PassesEntry .list outer entry
  | [], _ => List.forall_mem_nil _
  | v :: rest, outer =>
    have hv := passes_tokens v (.list :: outer)
    List.forall_mem_cons.mpr ⟨⟨hv, passes_first hv⟩, passes_all rest outer⟩

theorem passes_members : ∀ (members : List (List Piece × Tree)) (outer : List Frame),
    ∀ entry ∈ tokensOfMembers members, PassesEntry .object outer entry
  | [], _ => List.forall_mem_nil _
  | (_, v) :: rest, outer =>
    have hv : Passes (.colon outer) (.colon :: v.tokens) (some (.behind .object outer)) :=
      .more rfl (passes_tokens v (.object :: outer))
    List.forall_mem_cons.mpr ⟨⟨.more rfl hv, .more rfl hv⟩, passes_members rest outer⟩

end

end Tree

end RowLayout.Json
