import WorkspaceAudit.Pattern.Build

/-!
# Reading regular expressions

A regular expression is read character by character. `Reader` holds what has been read so far, and
`Reader.step` refuses a character that cannot stand where it is: a quantifier with nothing to
repeat, a parenthesis that closes nothing, an escape or a member of a set with a meaning of its
own. What no `Pattern` can say, such as the repetition of a group, is refused, too.

- `read? text`: the pattern that a regular expression writes.
- `Reader.read r text`: the reader after a text. Texts one after the other are read one after the
  other (`read_append`).
-/

namespace WorkspaceAudit.Pattern

/-- What has been read of a group: the branches before the current one and the parts of the
current one, the last one first in both. -/
structure Frame where
  branches : List Pattern := []
  parts : List Pattern := []
  deriving Repr, DecidableEq

namespace Frame

/-- One more part of the current branch. -/
def add (f : Frame) (p : Pattern) : Frame := { f with parts := p :: f.parts }

/-- The current branch is complete. -/
def branch (f : Frame) : Frame := ⟨chain f.parts.reverse :: f.branches, []⟩

/-- The group as a pattern. -/
def pattern (f : Frame) : Pattern := anyOf f.branch.branches.reverse

/-- The last part, which is a single character, at least so many times. -/
def repeatLast (f : Frame) (least : Nat) : Option Frame :=
  match f.parts with
  | .char set :: parts => some { f with parts := .many set least none false :: parts }
  | _ => none

/-- The last part or nothing; a repetition becomes lazy. -/
def question (f : Frame) : Option Frame :=
  match f.parts with
  | .char set :: parts => some { f with parts := .many set 0 (some 1) false :: parts }
  | .many set least most false :: parts =>
    some { f with parts := .many set least most true :: parts }
  | .capture group p :: parts => some { f with parts := .optional (.capture group p) :: parts }
  | _ => none

end Frame

/-- What the next character is read as. -/
inductive Mode where
  | plain
  /-- The character after a backslash. -/
  | escaped
  /-- The first character of a set. -/
  | setStart
  /-- A member of a set, or its end. -/
  | member (negated : Bool) (members : List Char)
  deriving Repr, DecidableEq

structure Reader where
  mode : Mode := .plain
  /-- How many groups have been opened. -/
  opened : Nat := 0
  frame : Frame := {}
  /-- The open groups, the innermost first: their numbers, and what has been read around each. -/
  around : List (Nat × Frame) := []
  deriving Repr, DecidableEq

namespace Reader

/-- One more part of the current branch. -/
def add (r : Reader) (p : Pattern) : Reader := { r with mode := .plain, frame := r.frame.add p }

/-- More parts of the current branch, in order. -/
def addAll (r : Reader) (ps : List Pattern) : Reader :=
  { r with frame := { r.frame with parts := ps.reverse ++ r.frame.parts } }

/-- A character outside of sets and escapes. -/
def plainStep (r : Reader) (c : Char) : Option Reader :=
  match c with
  | '(' => some { r with
      opened := r.opened + 1, frame := {}, around := (r.opened + 1, r.frame) :: r.around }
  | ')' =>
    match r.around with
    | (group, outer) :: around =>
      some { r with frame := outer.add (.capture group r.frame.pattern), around := around }
    | [] => none
  | '|' => some { r with frame := r.frame.branch }
  | '[' => some { r with mode := .setStart }
  | '\\' => some { r with mode := .escaped }
  | '.' => some (r.add (.char .inLine))
  | '^' => some (r.add .textStart)
  | '$' => some (r.add .textEnd)
  | '*' => (r.frame.repeatLast 0).map fun f => { r with frame := f }
  | '+' => (r.frame.repeatLast 1).map fun f => { r with frame := f }
  | '?' => r.frame.question.map fun f => { r with frame := f }
  | '\x7b' => none
  | _ => some (r.add (.char (.oneOf [c])))

/-- A member of a set, or its end. A closing bracket in the first place is a member. -/
def memberStep (r : Reader) (negated : Bool) (members : List Char) (c : Char) : Option Reader :=
  if c == ']' && !members.isEmpty then
    some (r.add (.char (if negated then .compl (.oneOf members) else .oneOf members)))
  else if ['-', '[', '\\'].contains c then none
  else some { r with mode := .member negated (members ++ [c]) }

/-- The reader after one more character. An escaped letter or digit has a meaning of its own. -/
def step (r : Reader) (c : Char) : Option Reader :=
  match r.mode with
  | .plain => r.plainStep c
  | .escaped => if c.isAlphanum then none else some (r.add (.char (.oneOf [c])))
  | .setStart =>
    if c == '^' then some { r with mode := .member true [] } else r.memberStep false [] c
  | .member negated members => r.memberStep negated members c

/-- The reader after a text. -/
def read : Reader → List Char → Option Reader
  | r, [] => some r
  | r, c :: text =>
    match r.step c with
    | some next => next.read text
    | none => none

/-- The pattern that has been read, if it is complete. -/
def finish (r : Reader) : Option Pattern :=
  if r.mode == .plain && r.around.isEmpty then some r.frame.pattern else none

/-- Texts one after the other are read one after the other. -/
theorem read_append {r next : Reader} {a : List Char} (h : r.read a = some next) (b : List Char) :
    r.read (a ++ b) = next.read b := by
  induction a generalizing r with
  | nil => obtain rfl := Option.some.inj h; rfl
  | cons c a ih =>
    simp only [List.cons_append, read] at h ⊢
    cases hstep : r.step c with
    | none => rw [hstep] at h; cases h
    | some mid => rw [hstep] at h; exact ih h

end Reader

/-- The pattern that a regular expression writes. -/
def read? (text : List Char) : Option Pattern :=
  (({} : Reader).read text).bind Reader.finish

end WorkspaceAudit.Pattern
