import WorkspaceAudit.Json.Value
import WorkspaceAudit.Text.Blank

/-!
# Writing JSON

Values on one line or with one part on each line, indented by two spaces. Characters beyond the
basic Latin block are written as they are or as code units.
-/

namespace WorkspaceAudit.Json

/-- How values are written. -/
structure Format where
  /-- Only basic Latin characters are written as they are. -/
  basicLatin : Bool
  /-- Each part stands on a line of its own. -/
  indented : Bool
  deriving Repr, DecidableEq

/-- The format of settings and of printed results. -/
def Format.escaped : Format := ⟨true, true⟩

/-- The format of stored reports. -/
def Format.plain : Format := ⟨false, true⟩

/-- The format of messages: all on one line. -/
def Format.line : Format := ⟨false, false⟩

/-- A code unit as an escape. -/
def unitEscape (unit : Nat) : List Char :=
  '\\' :: 'u' :: Text.hex 4 unit

/-- A character by its code units. -/
def unitEscapes (c : Char) : List Char :=
  if c.toNat < 0x10000 then unitEscape c.toNat
  else
    let n := c.toNat - 0x10000
    unitEscape (0xd800 + n / 0x400) ++ unitEscape (0xdc00 + n % 0x400)

/-- A character of a text. -/
def writeChar (basicLatin : Bool) (c : Char) : List Char :=
  if c == '\x22' then ['\\', '\x22']
  else if c == '\\' then ['\\', '\\']
  else if c == '\n' then ['\\', 'n']
  else if c == '\r' then ['\\', 'r']
  else if c == '\t' then ['\\', 't']
  else if c == '\x08' then ['\\', 'b']
  else if c == '\x0c' then ['\\', 'f']
  else if c.toNat < 32 then unitEscape c.toNat
  else if basicLatin && 127 ≤ c.toNat then unitEscapes c
  else [c]

/-- A text between quotes. -/
def writeText (basicLatin : Bool) (s : String) : List Char :=
  '\x22' :: s.toList.flatMap (writeChar basicLatin) ++ ['\x22']

/-- A binary fraction. -/
def writeFloat : Binary → List Char
  | .undefined => "NaN".toList
  | .infinite s => (if s then "-Infinity" else "Infinity").toList
  | x => x.toDecimal.toList

/-- The break in front of a part at a depth. -/
def Format.lineBreak (f : Format) (depth : Nat) : List Char :=
  if f.indented then '\n' :: List.replicate (2 * depth) ' ' else []

/-- The parts of a container between its brackets. -/
def Format.enclose (f : Format) (depth : Nat) (opening closing : Char)
    (parts : List (List Char)) : List Char :=
  match parts with
  | [] => [opening, closing]
  | parts =>
    let comma := if f.indented then [','] else [',', ' ']
    opening :: f.lineBreak (depth + 1) ++
      Text.joinWith (comma ++ f.lineBreak (depth + 1)) parts ++ f.lineBreak depth ++ [closing]

mutual

/-- A value that stands at a depth. -/
def write (f : Format) (depth : Nat) : Json → List Char
  | .null => "null".toList
  | .bool b => (if b then "true" else "false").toList
  | .int n => (Text.Decimal.ofInt n).toList
  | .float x => writeFloat x
  | .string s => writeText f.basicLatin s
  | .array items => f.enclose depth '[' ']' (writeItems f (depth + 1) items)
  | .object members => f.enclose depth '\x7b' '\x7d' (writeMembers f (depth + 1) members)

def writeItems (f : Format) (depth : Nat) : List Json → List (List Char)
  | [] => []
  | v :: more => write f depth v :: writeItems f depth more

def writeMembers (f : Format) (depth : Nat) : List (String × Json) → List (List Char)
  | [] => []
  | (name, v) :: more =>
    (writeText f.basicLatin name ++ ':' :: ' ' :: write f depth v) :: writeMembers f depth more

end

/-- The text of a value. -/
def render (f : Format) (v : Json) : String :=
  String.ofList (write f 0 v)

end WorkspaceAudit.Json
