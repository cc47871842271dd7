import WorkspaceAudit.Text.Printable

/-!
# Quoted text

A text between quotes as messages show it: single quotes, unless it holds a single quote and no
double one; characters without a shape of their own are written by their code point.
-/

namespace WorkspaceAudit.Text

/-- A hexadecimal digit in small letters. -/
def hexDigit (n : Nat) : Char :=
  Char.ofNat (if n < 10 then 48 + n else 87 + n)

/-- The last `width` hexadecimal digits of a number. -/
def hex (width n : Nat) : List Char :=
  (List.range width).foldl (fun (tail : List Char) i => hexDigit (n / Nat.pow 16 i % 16) :: tail) []

/-- A character between quotes of the given kind. -/
def quotedChar (quote c : Char) : List Char :=
  if c == quote || c == '\\' then ['\\', c]
  else if c == '\n' then ['\\', 'n']
  else if c == '\r' then ['\\', 'r']
  else if c == '\t' then ['\\', 't']
  else if isPrintable c then [c]
  else if c.toNat < 0x100 then '\\' :: 'x' :: hex 2 c.toNat
  else if c.toNat < 0x10000 then '\\' :: 'u' :: hex 4 c.toNat
  else '\\' :: 'U' :: hex 8 c.toNat

/-- The quote around characters. -/
def quoteMark (cs : List Char) : Char :=
  if cs.contains '\x27' && !cs.contains '\x22' then '\x22' else '\x27'

/-- The text between quotes. -/
def quoted (s : String) : String :=
  let quote := quoteMark s.toList
  String.ofList (quote :: s.toList.flatMap (quotedChar quote) ++ [quote])

end WorkspaceAudit.Text
