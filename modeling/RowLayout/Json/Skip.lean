import RowLayout.Json.Token

/-!
# Skipping a value

A value that nobody asks for is skipped token by token. Only its form counts: strings need no
paired surrogates and numbers may be of any size. What has been opened and is not closed yet is
kept on a stack, so that values may be nested to any depth.

## Main definitions

* `Frame` — a list or an object that has been opened
* `Skip` — what may come next while a value is skipped
* `Skip.step` — one token further
-/

namespace RowLayout.Json

/-- What an opening bracket or brace begins. -/
inductive Frame where
  | list
  | object
deriving DecidableEq, Repr

/-- What may come next while a value is skipped, and what is open around it. -/
inductive Skip where
  /-- A value. -/
  | value (outer : List Frame)
  /-- The first entry of a frame, or its end. -/
  | first (frame : Frame) (outer : List Frame)
  /-- What follows an entry of a frame. -/
  | behind (frame : Frame) (outer : List Frame)
  /-- The name of a member. -/
  | name (outer : List Frame)
  /-- The colon behind a name. -/
  | colon (outer : List Frame)
deriving DecidableEq, Repr

/-- Whether a token alone is a value. -/
def scalar : Token → Except Fault Unit
  | .word (.ok _) => .ok ()
  | .word (.error fault) => .error fault
  | .string lexeme => lexeme.skip
  | .number (.ok _) => .ok ()
  | _ => .error .malformed

namespace Skip

/-- What comes next when a value has ended: nothing, if it was not inside another one. -/
def ended : List Frame → Option Skip
  | [] => none
  | frame :: outer => some (behind frame outer)

/-- A token at which a value begins. -/
def begin (outer : List Frame) : Token → Except Fault (Option Skip)
  | .openBracket => .ok (some (first .list outer))
  | .openBrace => .ok (some (first .object outer))
  | t => (scalar t).map fun _ => ended outer

/-- The name of a member. -/
def memberName (outer : List Frame) : Token → Except Fault (Option Skip)
  | .string lexeme => lexeme.skip.map fun _ => some (colon outer)
  | _ => .error .malformed

/-- What follows a comma in a frame. -/
def nextEntry (outer : List Frame) : Frame → Skip
  | .list => value (.list :: outer)
  | .object => name outer

/-- One token further: what may come next, or nothing if the value has ended. -/
def step : Skip → Token → Except Fault (Option Skip)
  | value outer, t => begin outer t
  | first .list outer, .closeBracket => .ok (ended outer)
  | first .list outer, t => begin (.list :: outer) t
  | first .object outer, .closeBrace => .ok (ended outer)
  | first .object outer, t => memberName outer t
  | behind .list outer, .closeBracket => .ok (ended outer)
  | behind .object outer, .closeBrace => .ok (ended outer)
  | behind frame outer, .comma => .ok (some (nextEntry outer frame))
  | behind _ _, _ => .error .malformed
  | name outer, t => memberName outer t
  | colon outer, .colon => .ok (some (value (.object :: outer)))
  | colon _, _ => .error .malformed

end Skip

end RowLayout.Json
