import WorkspaceAudit.Text.Blank
import WorkspaceAudit.Text.Digit
import WorkspaceAudit.Text.Lowercase

/-!
# Sets of characters
-/

namespace WorkspaceAudit

/-- A set of characters that a pattern can ask for. -/
inductive CharSet where
  /-- The listed characters. -/
  | oneOf (cs : List Char)
  /-- The characters from the first to the last. -/
  | range (first last : Char)
  | blank
  | digit
  | union (s t : CharSet)
  | compl (s : CharSet)
  /-- The characters that equal one of the set up to case. The set is given in small letters. -/
  | anyCase (s : CharSet)
  deriving Repr, DecidableEq

namespace CharSet

/-- The character belongs to the set. -/
def has : CharSet → Char → Bool
  | .oneOf cs, c => cs.contains c
  | .range first last, c => first ≤ c && c ≤ last
  | .blank, c => Text.isBlank c
  | .digit, c => Text.isDigit c
  | .union s t, c => s.has c || t.has c
  | .compl s, c => !s.has c
  | .anyCase s, c => s.has (Text.foldLatin c)

/-- The characters of a string. -/
def of (s : String) : CharSet := .oneOf s.toList

/-- All characters but those of a string. -/
def except (s : String) : CharSet := .compl (of s)

/-- All characters but the line feed. -/
def inLine : CharSet := .compl (.oneOf ['\n'])

def smallLetter : CharSet := .range 'a' 'z'

def capitalLetter : CharSet := .range 'A' 'Z'

/-- The ten digits of the basic Latin block. -/
def latinDigit : CharSet := .range '0' '9'

/-- Letters and digits of the basic Latin block. -/
def alphanumeric : CharSet := .union smallLetter (.union capitalLetter latinDigit)

/-- Letters and digits of the basic Latin block, and the characters of a string. -/
def alphanumericOr (s : String) : CharSet := .union alphanumeric (of s)

end CharSet

end WorkspaceAudit
