import WorkspaceAudit.Number.Binary
import WorkspaceAudit.Text.Decimal

/-!
# Shortest decimal form

The decimal form of a binary number with the fewest digits that read back as it and, of those, the
nearest to it. It is positional from 10^-4 up to 10^16 and has an exponent beyond.
-/

namespace WorkspaceAudit.Binary

/-- The least `p` with `num / den < 10 ^ p`, searched upward from `p`. -/
def pointFrom (num den : Nat) : Nat → Int → Int
  | 0, p => p
  | fuel + 1, p =>
    let below : Bool := match p with
      | .ofNat k => num < den * Nat.pow 10 k
      | .negSucc k => num * Nat.pow 10 (k + 1) < den
    if below then p else pointFrom num den fuel (p + 1)

/-- `num / den` times a power of ten, as a fraction. -/
def shiftTen (num den : Nat) : Int → Nat × Nat
  | .ofNat k => (num * Nat.pow 10 k, den)
  | .negSucc k => (num, den * Nat.pow 10 (k + 1))

/-- The digits, as a number, and the exponent of the first decimal with at least `n` digits that
reads back as `num / den`; `point` is its position of the decimal point. -/
def shortestFrom (target : Binary) (num den : Nat) (point : Int) : Nat → Nat → Nat × Int
  | 0, n => (roundDiv (shiftTen num den (n - point)).1 (shiftTen num den (n - point)).2, point - n)
  | fuel + 1, n =>
    let (a, b) := shiftTen num den (n - point)
    let low := a / b
    let reads (c : Nat) : Bool := ofDecimal false c (point - n) == target
    if reads low && reads (low + 1) then
      (if 2 * (a % b) < b || (2 * (a % b) == b && low % 2 == 0) then low else low + 1, point - n)
    else if reads low then (low, point - n)
    else if reads (low + 1) then (low + 1, point - n)
    else shortestFrom target num den point fuel (n + 1)

/-- A row of digits without its last zeros, and how many those were. -/
def dropZeros (ds : List Char) : List Char × Nat :=
  let kept := (ds.reverse.dropWhile (· == '0')).reverse
  (kept, ds.length - kept.length)

/-- Digits with the decimal point in its place. -/
def layout (ds : List Char) (point : Int) : List Char :=
  if -4 < point && point ≤ 16 then
    if point ≤ 0 then '0' :: '.' :: List.replicate point.natAbs '0' ++ ds
    else
      let k := point.toNat
      if ds.length ≤ k then ds ++ List.replicate (k - ds.length) '0' ++ ['.', '0']
      else ds.take k ++ '.' :: ds.drop k
  else
    let e := point - 1
    let mark := if e < 0 then '-' else '+'
    let exponent := 'e' :: mark :: (Text.Decimal.padded 2 e.natAbs).toList
    match ds with
    | [] => exponent
    | [d] => d :: exponent
    | d :: more => d :: '.' :: more ++ exponent

/-- The shortest decimal form. -/
def toDecimal : Binary → String
  | .undefined => "nan"
  | .infinite s => if s then "-inf" else "inf"
  | .finite s m e =>
    let body :=
      if m == 0 then ['0', '.', '0']
      else
        let (num, den) := scaleDown m 1 (-e)
        let point := pointFrom num den 700 (-330)
        let (digits, exponent) := shortestFrom (.finite false m e) num den point 16 1
        let (ds, _) := dropZeros (Text.Decimal.digits digits)
        layout ds (exponent + (Text.Decimal.digits digits).length)
    String.ofList (if s then '-' :: body else body)

end WorkspaceAudit.Binary
