import WorkspaceAudit.Pattern.Basic

/-!
# Searching a text

- `search`: the leftmost place where a pattern matches;
- `matchStart`: the match at the very start of the text;
- `findAll`: all matches from left to right, none overlapping another. After an empty match the
  next one may begin at the same place, but then is not empty.
-/

namespace WorkspaceAudit.Pattern

/-- A match in a text. -/
structure Hit where
  /-- The character in front of the match. -/
  before : Option Char
  start : Nat
  stop : Nat
  /-- The matched text. -/
  text : List Char
  captures : List (Nat × List Char)
  /-- The text after the match. -/
  rest : List Char
  deriving Repr, DecidableEq

/-- The text captured under a number. -/
def Hit.group? (hit : Hit) (group : Nat) : Option (List Char) :=
  hit.captures.lookup group

/-- The match that begins at a place; an empty one does not count if `advance` is set. -/
def hitAt (p : Pattern) (s : State) (advance : Bool) : Option Hit :=
  (p.run s fun t => if advance && t.offset == s.offset then none else some t).map fun t =>
    { before := s.before, start := s.offset, stop := t.offset, text := t.textSince s,
      captures := t.captures, rest := t.rest }

/-- The leftmost match in the rest of a text. -/
def searchFrom (p : Pattern) : List Char → Option Char → Nat → Bool → Option Hit
  | [], before, offset, advance => p.hitAt ⟨before, [], offset, []⟩ advance
  | c :: rest, before, offset, advance =>
    match p.hitAt ⟨before, c :: rest, offset, []⟩ advance with
    | some hit => some hit
    | none => searchFrom p rest (some c) (offset + 1) false

/-- The leftmost match in a text. -/
def search (p : Pattern) (text : List Char) : Option Hit :=
  p.searchFrom text none 0 false

/-- The pattern matches somewhere in the text. -/
def found (p : Pattern) (text : List Char) : Bool :=
  (p.search text).isSome

/-- The match at the start of the text. -/
def matchStart (p : Pattern) (text : List Char) : Option Hit :=
  p.hitAt (.start text) false

/-- The matches in the rest of a text, at most `fuel` of them. -/
def findFrom (p : Pattern) : Nat → List Char → Option Char → Nat → Bool → List Hit
  | 0, _, _, _, _ => []
  | fuel + 1, rest, before, offset, advance =>
    match p.searchFrom rest before offset advance with
    | none => []
    | some hit =>
      let last := match hit.text.getLast? with
        | some c => some c
        | none => hit.before
      hit :: findFrom p fuel hit.rest last hit.stop (hit.start == hit.stop)

/-- All matches in a text. There are at most two for each place: a text of `n` characters has
`n + 1` places. -/
def findAll (p : Pattern) (text : List Char) : List Hit :=
  p.findFrom (2 * text.length + 2) text none 0 false

end WorkspaceAudit.Pattern
