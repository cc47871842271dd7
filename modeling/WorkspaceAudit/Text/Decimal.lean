/-!
# Decimal numerals

Whole numbers written with the ten basic Latin digits, and read from them. Where numbers of any
size are written or read for others, they have at most `longest` digits.
-/

namespace WorkspaceAudit.Text.Decimal

/-- The digit of a number below ten. -/
def digit (n : Nat) : Char := Char.ofNat (48 + n)

/-- The digits of `n` in front of `tail`; `fuel` bounds their number. -/
def digitsOnto : Nat → Nat → List Char → List Char
  | 0, _, tail => tail
  | fuel + 1, n, tail =>
    let tail' := digit (n % 10) :: tail
    if n < 10 then tail' else digitsOnto fuel (n / 10) tail'

/-- The digits of a number, without leading zeros. -/
def digits (n : Nat) : List Char :=
  digitsOnto (n + 1) n []

/-- A natural number in decimal digits. -/
def ofNat (n : Nat) : String :=
  String.ofList (digits n)

/-- An integer in decimal digits, with a minus sign below zero. -/
def ofInt : Int → String
  | .ofNat n => ofNat n
  | .negSucc n => "-" ++ ofNat (n + 1)

/-- At least `width` digits, with leading zeros. -/
def padded (width n : Nat) : String :=
  let ds := digits n
  String.ofList (List.replicate (width - ds.length) '0' ++ ds)

/-- The greatest number of digits. -/
def longest : Nat := 4300

/-- The number after the greatest one of `longest` digits. -/
def bound : Nat := Nat.pow 10 longest

/-- The number has at most `longest` digits. -/
def isWritable (n : Int) : Bool := n.natAbs < bound

/-- A basic Latin digit. -/
def isDigit (c : Char) : Bool := '0' ≤ c && c ≤ '9'

/-- The value of a digit. -/
def digitValue (c : Char) : Nat := c.toNat - 48

/-- The number that a row of digits writes. -/
def value (ds : List Char) : Nat :=
  ds.foldl (fun n c => 10 * n + digitValue c) 0

end WorkspaceAudit.Text.Decimal
