/-!
# Blank characters

Which characters count as blank, and a text without the blanks at its ends.
-/

namespace WorkspaceAudit.Text

/-- White space: tab to carriage return, the four information separators, the space, the next-line
control, and the spaces and separators of lines and paragraphs beyond the basic Latin block. -/
def isBlank (c : Char) : Bool :=
  let n := c.toNat
  (9 ≤ n && n ≤ 13) || (28 ≤ n && n ≤ 32) || n == 0x85 || n == 0xa0 || n == 0x1680 ||
    (0x2000 ≤ n && n ≤ 0x200a) || n == 0x2028 || n == 0x2029 || n == 0x202f || n == 0x205f ||
    n == 0x3000

/-- A blank that is not one of the four information separators. -/
def isSpacing (c : Char) : Bool :=
  isBlank c && !(28 ≤ c.toNat && c.toNat ≤ 31)

/-- The text without the characters of a class at its ends. -/
def trimBy (p : Char → Bool) (s : List Char) : List Char :=
  ((s.dropWhile p).reverse.dropWhile p).reverse

/-- The text without the blanks at its ends. -/
def trim (s : List Char) : List Char :=
  trimBy isBlank s

end WorkspaceAudit.Text
