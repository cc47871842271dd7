import WorkspaceAudit.Pattern.Build
import WorkspaceAudit.Pattern.Search

/-!
# Printed items

What is handed to the terminal: lines with markup, styled texts, panels and tables. How they are
laid out is left to the terminal.
-/

namespace WorkspaceAudit

/-- A text with a style of its own and styles of some of its parts, each from a first character up
to one after its last. -/
structure Styled where
  plain : String
  style : String := ""
  spans : List (Nat × Nat × String) := []
  deriving Repr, DecidableEq

namespace Styled

/-- Control characters that move the cursor or ring the bell, which are left out of styled texts. -/
def isControl (c : Char) : Bool :=
  c.toNat == 7 || c.toNat == 8 || (11 ≤ c.toNat && c.toNat ≤ 13)

/-- The text without control characters. -/
def printable (s : String) : String :=
  String.ofList (s.toList.filter fun c => !isControl c)

/-- A text of one style. -/
def of (s style : String) : Styled where
  plain := printable s
  style := style

/-- The styles of parts, moved on by a number of characters. -/
def shift (n : Nat) (spans : List (Nat × Nat × String)) : List (Nat × Nat × String) :=
  spans.map fun (start, stop, style) => (start + n, stop + n, style)

/-- The text with another one after it, whose own style becomes that of a part. -/
def append (s t : Styled) : Styled :=
  let n := s.plain.length
  let own := if t.style == "" then [] else [(n, n + t.plain.length, t.style)]
  { s with plain := s.plain ++ t.plain, spans := s.spans ++ own ++ shift n t.spans }

/-- A text as a part of others; an empty one is none. A text of control characters alone is a part
of no length. -/
def part (s style : String) : List Styled :=
  if s == "" then [] else [of s style]

/-- Texts one after the other. -/
def concat (parts : List Styled) : Styled :=
  parts.foldl append { plain := "" }

end Styled

/-- A cell of a table. -/
inductive Cell where
  /-- A text whose markup the terminal reads. -/
  | text (s : String)
  | styled (t : Styled)
  deriving Repr, DecidableEq

def Cell.text? : Cell → Option String
  | .text s => some s
  | .styled _ => none

structure Table where
  title : Option String := none
  columns : List String
  rows : List (List Cell)
  deriving Repr, DecidableEq

/-- Something that is printed on the terminal. -/
inductive Printed where
  | blank
  /-- A line whose markup the terminal reads. -/
  | markup (s : String)
  | styled (t : Styled)
  | panel (t : Styled)
  | table (t : Table)
  deriving Repr, DecidableEq

namespace Pattern

/-- The text between matches, from an offset on. -/
def between : List Hit → Nat → List Char → List Char
  | [], _, rest => rest
  | hit :: more, offset, rest =>
    rest.take (hit.start - offset) ++ between more hit.stop (rest.drop (hit.stop - offset))

/-- The text without the matches of a pattern. -/
def erase (p : Pattern) (text : List Char) : List Char :=
  between (p.findAll text) 0 text

/-- A code that sets a colour of the terminal. -/
def colorCode : Pattern :=
  chain [lit "\x1b[", anyMany (.of ";?0123456789"), .char (.union .smallLetter .capitalLetter)]

end Pattern

/-- A line of plain output, from which colour codes are taken. -/
def outputLine (s : String) : String :=
  String.ofList (Pattern.colorCode.erase s.toList) ++ "\n"

end WorkspaceAudit
