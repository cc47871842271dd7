/-!
# Binary floating point numbers

Numbers of 53 significant bits with the exponents of the 64-bit format, as signed multiples of a
power of two. A quotient of natural numbers is rounded to the nearest such number, a tie to the one
with an even significand; what is too large becomes infinite.
-/

namespace WorkspaceAudit

/-- A binary floating point number. A finite one is `significand * 2 ^ exponent`, with the sign in
front also of zero. -/
inductive Binary where
  | finite (negative : Bool) (significand : Nat) (exponent : Int)
  | infinite (negative : Bool)
  | undefined
  deriving Repr, DecidableEq

namespace Binary

/-- The smallest exponent. -/
def leastExponent : Int := -1074

/-- The largest exponent. -/
def greatestExponent : Int := 971

/-- Zero without a sign. -/
def zero : Binary := .finite false 0 leastExponent

/-- `num / den` to the nearest whole number, a tie to the even one. -/
def roundDiv (num den : Nat) : Nat :=
  let q := num / den
  let r := num % den
  if 2 * r < den then q
  else if den < 2 * r then q + 1
  else if q % 2 == 0 then q else q + 1

/-- The quotient of `num / den` by a power of two, as a fraction. -/
def scaleDown (num den : Nat) : Int → Nat × Nat
  | .ofNat e => (num, den * Nat.pow 2 e)
  | .negSucc e => (num * Nat.pow 2 (e + 1), den)

/-- The exponent of the greatest power of two that is not above `num / den`. -/
def exponentOf (num den : Nat) : Int :=
  let e := (num.log2 : Int) - den.log2
  let (n, d) := scaleDown num den e
  if d ≤ n then e else e - 1

/-- The nearest number to `num / den` with the given sign, for `den > 0`. -/
def ofRatio (negative : Bool) (num den : Nat) : Binary :=
  if num == 0 then .finite negative 0 leastExponent
  else
    let e := max (exponentOf num den - 52) leastExponent
    let (n, d) := scaleDown num den e
    let m := roundDiv n d
    let (m, e) := if m == Nat.pow 2 53 then (Nat.pow 2 52, e + 1) else (m, e)
    if greatestExponent < e then .infinite negative else .finite negative m e

/-- The nearest number to `digits * 10 ^ exponent`. Exponents that leave no doubt are decided
without the power: `10 ^ 400` is above all finite numbers, and what is below `10 ^ -400` is
nearest to zero. -/
def ofDecimal (negative : Bool) (digits : Nat) : Int → Binary
  | .ofNat e =>
    if digits == 0 then ofRatio negative 0 1
    else if 400 < e then .infinite negative
    else ofRatio negative (digits * Nat.pow 10 e) 1
  | .negSucc e =>
    if 400 + digits.log2 < e then ofRatio negative 0 1
    else ofRatio negative digits (Nat.pow 10 (e + 1))

/-- The nearest number to an integer times a power of two. -/
def ofScaled (value : Int) : Int → Binary
  | .ofNat e => ofRatio (value < 0) (value.natAbs * Nat.pow 2 e) 1
  | .negSucc e => ofRatio (value < 0) value.natAbs (Nat.pow 2 (e + 1))

/-- The number is zero, of either sign. -/
def isZero : Binary → Bool
  | .finite _ m _ => m == 0
  | _ => false

/-- The significand with its sign. -/
def signed (negative : Bool) (m : Nat) : Int :=
  if negative then -m else m

/-- The nearest number to a difference. -/
def sub : Binary → Binary → Binary
  | .finite s m e, .finite t n f =>
    let low := min e f
    ofScaled (signed s (m * Nat.pow 2 (e - low).toNat) - signed t (n * Nat.pow 2 (f - low).toNat))
      low
  | .undefined, _ => .undefined
  | _, .undefined => .undefined
  | .infinite s, .infinite t => if s == t then .undefined else .infinite s
  | .infinite s, _ => .infinite s
  | _, .infinite t => .infinite !t

/-- The nearest number to a multiple. -/
def scale (k : Nat) : Binary → Binary
  | .finite s m e => ofScaled (signed s m * k) e
  | x => x

/-- The whole part, cut toward zero. -/
def truncate? : Binary → Option Int
  | .finite s m e =>
    some (signed s (match e with
      | .ofNat e => m * Nat.pow 2 e
      | .negSucc e => m / Nat.pow 2 (e + 1)))
  | _ => none

/-- The greatest whole number that is not above a finite number. -/
def floor? : Binary → Option Int
  | .finite s m e =>
    match e with
    | .ofNat e => some (signed s (m * Nat.pow 2 e))
    | .negSucc e => some (signed s m / (Nat.pow 2 (e + 1) : Nat))
  | _ => none

/-- The nearest whole number to a finite number, a tie away from zero. -/
def round? : Binary → Option Int
  | .finite s m e =>
    some (signed s (match e with
      | .ofNat e => m * Nat.pow 2 e
      | .negSucc e => (m * 2 + Nat.pow 2 (e + 1)) / (2 * Nat.pow 2 (e + 1))))
  | _ => none

/-- The size of a finite number is above a whole number. -/
def exceeds (n : Nat) : Binary → Bool
  | .finite _ m e =>
    match e with
    | .ofNat e => n < m * Nat.pow 2 e
    | .negSucc e => n * Nat.pow 2 (e + 1) < m
  | _ => false

/-- The whole number that a finite number without a fraction is. -/
def whole? : Binary → Option Int
  | .finite s m e =>
    match e with
    | .ofNat e => some (signed s (m * Nat.pow 2 e))
    | .negSucc e =>
      if m % Nat.pow 2 (e + 1) == 0 then some (signed s (m / Nat.pow 2 (e + 1))) else none
  | _ => none

end Binary

end WorkspaceAudit
