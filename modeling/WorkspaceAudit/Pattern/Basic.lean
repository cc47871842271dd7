import WorkspaceAudit.Pattern.CharSet
import WorkspaceAudit.Text.Word

/-!
# Text patterns

A `Pattern` describes texts; `Pattern.run` tries the ways in which it can match at a place in order
of priority and goes on with the first that lets the rest of the search succeed: the first branch
of an alternative before the second, the longest run of characters before shorter ones (or the
shortest first, if the run is lazy), an optional part before its absence. All recursion is on the
pattern, since only single characters are repeated.
-/

namespace WorkspaceAudit

/-- A pattern of text. -/
inductive Pattern where
  /-- The empty text. -/
  | empty
  /-- One character of the set. -/
  | char (s : CharSet)
  /-- At least `least` and at most `most` characters of the set, as many as possible or, if lazy,
  as few as possible. -/
  | many (s : CharSet) (least : Nat) (most : Option Nat) (lazy : Bool)
  /-- A character of the set, captured, and at least `copies` more of the same character. -/
  | repeated (group : Nat) (s : CharSet) (copies : Nat)
  | seq (p q : Pattern)
  | alt (p q : Pattern)
  | optional (p : Pattern)
  /-- Text of `p`, which is recorded under a number. -/
  | capture (group : Nat) (p : Pattern)
  /-- The place where text of `p` follows. -/
  | ahead (p : Pattern)
  /-- A place where no text of `p` follows. -/
  | notAhead (p : Pattern)
  /-- The start of the whole text. -/
  | textStart
  /-- The end of the whole text, or of its last line if that ends in a line feed. -/
  | textEnd
  /-- A place between a word character and one that is none, or the edge of the text. -/
  | wordEdge
  deriving Repr, DecidableEq

namespace Pattern

/-- A place in a text, with what has been captured on the way to it. -/
structure State where
  /-- The character in front of the place. -/
  before : Option Char
  /-- The text after the place. -/
  rest : List Char
  /-- The number of characters in front of the place. -/
  offset : Nat
  captures : List (Nat × List Char)
  deriving Repr, DecidableEq

namespace State

/-- The start of a text. -/
def start (text : List Char) : State := ⟨none, text, 0, []⟩

/-- One character on. -/
def advance (s : State) (c : Char) (rest : List Char) : State :=
  { s with before := some c, rest := rest, offset := s.offset + 1 }

/-- The text from an earlier place up to this one. -/
def textSince (s origin : State) : List Char :=
  origin.rest.take (s.offset - origin.offset)

/-- This place, with the text from an earlier place on recorded under a number. -/
def record (s : State) (group : Nat) (origin : State) : State :=
  { s with captures := (group, s.textSince origin) :: s.captures }

/-- Exactly one side of the place is a word character. -/
def atWordEdge (s : State) : Bool :=
  (s.before.any Text.isWord) != (s.rest.head?.any Text.isWord)

/-- At the end of the text, or in front of its last line feed. -/
def atTextEnd (s : State) : Bool :=
  s.rest == [] || s.rest == ['\n']

end State

/-- The places after each run of characters of a set that begins at a place, longest run first.
`count` characters have been passed, and `shorter` holds the places found so far. -/
def runEnds (set : CharSet) (least : Nat) (most : Option Nat) (captures : List (Nat × List Char)) :
    List Char → Option Char → Nat → Nat → List State → List State
  | [], before, offset, count, shorter =>
    if least ≤ count then ⟨before, [], offset, captures⟩ :: shorter else shorter
  | c :: rest, before, offset, count, shorter =>
    let found :=
      if least ≤ count then ⟨before, c :: rest, offset, captures⟩ :: shorter else shorter
    if set.has c && most.all (count < ·) then
      runEnds set least most captures rest (some c) (offset + 1) (count + 1) found
    else found

/-- The places after each run of characters of a set, longest run first. -/
def State.runs (s : State) (set : CharSet) (least : Nat) (most : Option Nat) : List State :=
  runEnds set least most s.captures s.rest s.before s.offset 0 []

/-- The first way, in order of priority, in which the pattern matches at a place and `next`
succeeds after it. -/
def run : Pattern → State → (State → Option State) → Option State
  | .empty, s, next => next s
  | .char set, s, next =>
    match s.rest with
    | c :: rest => if set.has c then next (s.advance c rest) else none
    | [] => none
  | .many set least most lazy, s, next =>
    let ends := s.runs set least most
    (if lazy then ends.reverse else ends).findSome? next
  | .repeated group set copies, s, next =>
    match s.rest with
    | c :: rest =>
      if set.has c then
        let first := (s.advance c rest).record group s
        (first.runs (.oneOf [c]) copies none).findSome? next
      else none
    | [] => none
  | .seq p q, s, next => p.run s fun t => q.run t next
  | .alt p q, s, next =>
    match p.run s next with
    | some t => some t
    | none => q.run s next
  | .optional p, s, next =>
    match p.run s next with
    | some t => some t
    | none => next s
  | .capture group p, s, next => p.run s fun t => next (t.record group s)
  | .ahead p, s, next =>
    match p.run s some with
    | some t => next { s with captures := t.captures }
    | none => none
  | .notAhead p, s, next =>
    match p.run s some with
    | some _ => none
    | none => next s
  | .textStart, s, next => if s.offset == 0 then next s else none
  | .textEnd, s, next => if s.atTextEnd then next s else none
  | .wordEdge, s, next => if s.atWordEdge then next s else none

end Pattern

end WorkspaceAudit
