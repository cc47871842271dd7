import WorkspaceAudit.Text.Lines
import WorkspaceAudit.Text.Quoted

/-!
# Loose texts

Other programs write a character beyond the basic plane as a pair of units. A text of theirs may
hold half of such a pair alone, which is no character and for which no encoding has bytes. Loose
texts have room for such halves.

- `LooseText.whole?` is the text itself if no half stands alone in it;
- `LooseText.plain` has the replacement character in the place of each half;
- `LooseText.quoted` shows halves by their codes;
- `LooseText.lone?` tells of the first halves that stand alone.
-/

namespace WorkspaceAudit

/-- A point of a loose text: a character, or half of a pair that stands alone. -/
inductive Point where
  | char (c : Char)
  | half (n : Fin 2048)
  deriving Repr, DecidableEq

namespace Point

def isHalf : Point → Bool
  | .char _ => false
  | .half _ => true

/-- The character of a point. -/
def char? : Point → Option Char
  | .char c => some c
  | .half _ => none

/-- The point of the code of a unit. -/
def ofUnit (unit : Nat) : Point :=
  if h : unit - 0xd800 < 2048 ∧ 0xd800 ≤ unit then .half ⟨unit - 0xd800, h.1⟩
  else .char (Char.ofNat unit)

/-- The code of a half. -/
def halfCode (n : Fin 2048) : Nat := 0xd800 + n.val

/-- The replacement character for a half. -/
def plain : Point → Char
  | .char c => c
  | .half _ => Char.ofNat 0xfffd

/-- A point between quotes of the given kind. -/
def quoted (quote : Char) : Point → List Char
  | .char c => Text.quotedChar quote c
  | .half n => '\\' :: 'u' :: Text.hex 4 (halfCode n)

end Point

/-- A text in which halves of pairs may stand alone. -/
structure LooseText where
  points : List Point
  deriving Repr, DecidableEq

/-- Halves that stand alone, one after the other. -/
structure LoneHalves where
  /-- The code of the first of them. -/
  code : Nat
  /-- How many points stand in front of them. -/
  position : Nat
  count : Nat
  deriving Repr, DecidableEq

namespace LooseText

def ofString (s : String) : LooseText := ⟨s.toList.map .char⟩

instance : Coe String LooseText := ⟨ofString⟩

instance : Append LooseText := ⟨fun s t => ⟨s.points ++ t.points⟩⟩

def isEmpty (t : LooseText) : Bool := t.points.isEmpty

/-- Texts with a separator between them. -/
def join (separator : LooseText) (texts : List LooseText) : LooseText :=
  ⟨Text.joinWith separator.points (texts.map points)⟩

/-- The text, if no half stands alone in it. -/
def whole? (t : LooseText) : Option String :=
  (t.points.mapM Point.char?).map String.ofList

/-- The text with the replacement character for each half. -/
def plain (t : LooseText) : String := String.ofList (t.points.map Point.plain)

/-- The text between quotes. -/
def quoted (t : LooseText) : String :=
  let quote := Text.quoteMark (t.points.filterMap Point.char?)
  String.ofList (quote :: t.points.flatMap (Point.quoted quote) ++ [quote])

/-- The first halves that stand alone in points, of which so many others stand in front. -/
def loneFrom? (position : Nat) : List Point → Option LoneHalves
  | [] => none
  | .char _ :: more => loneFrom? (position + 1) more
  | .half n :: more =>
    some { code := Point.halfCode n, position := position,
           count := 1 + (more.takeWhile Point.isHalf).length }

/-- The first halves that stand alone in a text. -/
def lone? (t : LooseText) : Option LoneHalves := loneFrom? 0 t.points

end LooseText

end WorkspaceAudit
