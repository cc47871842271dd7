import WorkspaceAudit.Text.Letters
import WorkspaceAudit.Text.Ranges

/-!
# Letter case

- `lower`: a text in small letters. A capital sigma at the end of a word becomes the final sigma,
  and the dotted capital I becomes an i with a combining dot.
- `foldLatin`, `capitalLatin`: characters that differ only in case from a basic Latin letter. Two
  letters outside the basic Latin block have a capital inside it (dotless i and long s), and two
  have a small letter inside it (dotted I and the Kelvin sign).
-/

namespace WorkspaceAudit.Text

/-- The small letter of a character on its own. -/
def lowerChar (c : Char) : List Char :=
  if c.toNat == 0x130 then ['i', Char.ofNat 0x307]
  else
    match capitals.find? fun (first, last, step, _) =>
        first ≤ c.toNat && c.toNat ≤ last && (c.toNat - first) % step == 0 with
    | some (_, _, _, distance) => [Char.ofNat (c.toNat + distance).toNat]
    | none => [c]

/-- The nearest character that is no mark is a letter with case. -/
def meetsLetter (s : List Char) : Bool :=
  match s.dropWhile fun c => inRanges c.toNat caseMarks with
  | [] => false
  | c :: _ => inRanges c.toNat casedLetters

/-- Small letters for the rest of a text; `before` holds what has been read, last character
first. -/
def lowerFrom (before : List Char) : List Char → List Char
  | [] => []
  | c :: rest =>
    if c.toNat == 0x3a3 then
      Char.ofNat (if meetsLetter before && !meetsLetter rest then 0x3c2 else 0x3c3) ::
        lowerFrom (c :: before) rest
    else lowerChar c ++ lowerFrom (c :: before) rest

/-- The text in small letters. -/
def lower (s : String) : String :=
  String.ofList (lowerFrom [] s.toList)

/-- The small basic Latin letter that a character equals up to case; other characters stay. -/
def foldLatin (c : Char) : Char :=
  if c.toNat == 0x130 || c.toNat == 0x131 then 'i'
  else if c.toNat == 0x17f then 's'
  else if c.toNat == 0x212a then 'k'
  else c.toLower

/-- The capital basic Latin letter of a character, where its capital form is one; other
characters stay. No longer capital form is part of a word that is compared here. -/
def capitalLatin (c : Char) : Char :=
  if c.toNat == 0x131 then 'I' else if c.toNat == 0x17f then 'S' else c.toUpper

end WorkspaceAudit.Text
