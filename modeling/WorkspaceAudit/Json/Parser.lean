import WorkspaceAudit.Json.Value

/-!
# Reading JSON

Values over a list of characters; each reader returns the value and what follows it. A name that
comes twice in an object keeps its first place and its last value. Besides the standard, the words
for numbers that are not finite are read. A dialect has bounds on how deeply values may stand in
one another and on how many digits a number may have, and says which texts are read.
-/

namespace WorkspaceAudit.Json

/-- The blanks between the parts of a value. -/
def isGap (c : Char) : Bool :=
  c == ' ' || c == '\n' || c == '\t' || c == '\r'

def skipGap (s : List Char) : List Char := s.dropWhile isGap

/-- What follows a word at the start of a text. -/
def dropWord? : List Char → List Char → Option (List Char)
  | [], rest => some rest
  | _, [] => none
  | w :: word, c :: rest => if w == c then dropWord? word rest else none

def hexValue? (c : Char) : Option Nat :=
  if '0' ≤ c && c ≤ '9' then some (c.toNat - 48)
  else if 'a' ≤ c && c ≤ 'f' then some (c.toNat - 87)
  else if 'A' ≤ c && c ≤ 'F' then some (c.toNat - 55)
  else none

/-- The number of four hexadecimal digits. -/
def hexUnit? : List Char → Option (Nat × List Char)
  | a :: b :: c :: d :: rest => do
    let a ← hexValue? a
    let b ← hexValue? b
    let c ← hexValue? c
    let d ← hexValue? d
    return (((a * 16 + b) * 16 + c) * 16 + d, rest)
  | _ => none

/-- The character after a backslash. -/
def simpleEscape? : Char → Option Char
  | '\x22' => some '\x22'
  | '\\' => some '\\'
  | '/' => some '/'
  | 'b' => some '\x08'
  | 'f' => some '\x0c'
  | 'n' => some '\n'
  | 'r' => some '\r'
  | 't' => some '\t'
  | _ => none

/-- The point of a code unit, or of a pair of units. -/
def unitPoint? (unit : Nat) (rest : List Char) : Option (Point × List Char) :=
  if 0xd800 ≤ unit && unit < 0xdc00 then
    match rest with
    | '\\' :: 'u' :: more => do
      let (low, more) ← hexUnit? more
      if 0xdc00 ≤ low && low < 0xe000 then
        return (.char (Char.ofNat (0x10000 + (unit - 0xd800) * 0x400 + (low - 0xdc00))), more)
      else return (.ofUnit unit, rest)
    | _ => some (.ofUnit unit, rest)
  else some (.ofUnit unit, rest)

/-- What follows a backslash. -/
def escape? : List Char → Option (Point × List Char)
  | 'u' :: rest => do
    let (unit, rest) ← hexUnit? rest
    unitPoint? unit rest
  | c :: rest => (simpleEscape? c).map fun c => (.char c, rest)
  | [] => none

/-- The points of a text after its opening quote; `fuel` bounds their number. -/
def textBody? : Nat → List Char → Option (List Point × List Char)
  | 0, _ => none
  | _ + 1, [] => none
  | fuel + 1, c :: rest =>
    if c == '\x22' then some ([], rest)
    else if c == '\\' then do
      let (p, rest) ← escape? rest
      let (ps, rest) ← textBody? fuel rest
      return (p :: ps, rest)
    else if c.toNat < 32 then none
    else do
      let (ps, rest) ← textBody? fuel rest
      return (.char c :: ps, rest)

/-- A text after its opening quote. -/
def text? (s : List Char) : Option (LooseText × List Char) :=
  (textBody? (s.length + 1) s).map fun (ps, rest) => (⟨ps⟩, rest)

/-- The whole part of a number: a zero, or digits that begin with another one. -/
def wholePart? (s : List Char) : Option (List Char × List Char) :=
  match s with
  | '0' :: rest => some (['0'], rest)
  | _ =>
    match s.span Text.Decimal.isDigit with
    | ([], _) => none
    | (ds, rest) => some (ds, rest)

/-- The digits after a point. Without digits the point is no part of the number. -/
def fraction (s : List Char) : Option (List Char) × List Char :=
  match s with
  | '.' :: more =>
    match more.span Text.Decimal.isDigit with
    | ([], _) => (none, s)
    | (ds, rest) => (some ds, rest)
  | _ => (none, s)

/-- The digits of an exponent after its sign. -/
def exponentDigits (negative : Bool) (s : List Char) : Option (Int × List Char) :=
  match s.span Text.Decimal.isDigit with
  | ([], _) => none
  | (ds, rest) =>
    let n : Int := Text.Decimal.value ds
    some (if negative then -n else n, rest)

/-- The exponent. Without digits the letter is no part of the number. -/
def exponent (s : List Char) : Option Int × List Char :=
  let read (negative : Bool) (more : List Char) : Option Int × List Char :=
    match exponentDigits negative more with
    | some (e, rest) => (some e, rest)
    | none => (none, s)
  match s with
  | e :: '+' :: more => if e == 'e' || e == 'E' then read false more else (none, s)
  | e :: '-' :: more => if e == 'e' || e == 'E' then read true more else (none, s)
  | e :: more => if e == 'e' || e == 'E' then read false more else (none, s)
  | [] => (none, s)

/-- Why a text cannot be read. -/
inductive ReadError where
  | malformed
  /-- Too many arrays and objects stand in one another, and the last of them is an array. -/
  | tooDeep (array : Bool)
  | tooManyDigits (digits : Nat)
  deriving Repr, DecidableEq

/-- What a reader accepts. -/
structure Dialect (τ : Type) where
  /-- How many arrays and objects may stand in one another. -/
  depth : Nat
  /-- Arrays and objects without items count, too. -/
  countsEmpty : Bool
  /-- The whole part of a number is bounded, too, if it has a fraction or an exponent. -/
  boundsFractions : Bool
  /-- What a text is read as; nothing if it is refused. -/
  accept? : LooseText → Option τ

/-- The dialect of what the program has written itself: halves of pairs do not stand alone. -/
def Dialect.own : Dialect String where
  depth := 200
  countsEmpty := false
  boundsFractions := true
  accept? := LooseText.whole?

/-- The dialect of what other programs have written. -/
def Dialect.foreign : Dialect LooseText where
  depth := 985
  countsEmpty := true
  boundsFractions := false
  accept? := some

/-- A text after its opening quote, as the dialect reads it. -/
def Dialect.text? {τ : Type} (d : Dialect τ) (s : List Char) : Option (τ × List Char) := do
  let (points, rest) ← Json.text? s
  return (← d.accept? points, rest)

/-- What is read at the start of a text, and what follows it. -/
abbrev Read (α : Type) := Except ReadError (α × List Char)

/-- A number after its sign. -/
def unsigned {τ : Type} (d : Dialect τ) (negative : Bool) (s : List Char) : Read (Json τ) :=
  match wholePart? s with
  | none => .error .malformed
  | some (whole, rest) =>
    let (frac, rest) := fraction rest
    let (exp, rest) := exponent rest
    let fractional := frac.isSome || exp.isSome
    if Text.Decimal.longest < whole.length && (d.boundsFractions || !fractional) then
      .error (.tooManyDigits whole.length)
    else if fractional then
      let places := (frac.getD []).length
      let digits := Text.Decimal.value (whole ++ frac.getD [])
      .ok (.float (.ofDecimal negative digits (exp.getD 0 - places)), rest)
    else
      let n : Int := Text.Decimal.value whole
      .ok (.int (if negative then -n else n), rest)

/-- A number. -/
def number {τ : Type} (d : Dialect τ) (s : List Char) : Read (Json τ) :=
  match s with
  | '-' :: rest =>
    match dropWord? "Infinity".toList rest with
    | some rest => .ok (.float (.infinite true), rest)
    | none => unsigned d true rest
  | _ => unsigned d false s

/-- The words that are values. -/
def words {τ : Type} : List (List Char × Json τ) :=
  [("null".toList, .null), ("true".toList, .bool true), ("false".toList, .bool false),
   ("NaN".toList, .float .undefined), ("Infinity".toList, .float (.infinite false))]

/-- A word that is a value. -/
def word? {τ : Type} (s : List Char) : Option (Json τ × List Char) :=
  words.findSome? fun (word, v) => (dropWord? word s).map fun rest => (v, rest)

mutual

/-- A value at the start of a text, with `depth` arrays and objects around it; `fuel` bounds the
number of its parts. -/
def value {τ : Type} [BEq τ] (d : Dialect τ) : Nat → Nat → List Char → Read (Json τ)
  | 0, _, _ => .error .malformed
  | fuel + 1, depth, s =>
    match s with
    | '\x22' :: rest =>
      match d.text? rest with
      | some (t, rest) => .ok (.string t, rest)
      | none => .error .malformed
    | '[' :: rest =>
      if d.countsEmpty && d.depth ≤ depth then .error (.tooDeep true)
      else
        match skipGap rest with
        | ']' :: rest => .ok (.array [], rest)
        | rest =>
          if d.depth ≤ depth then .error (.tooDeep true)
          else
            match items d fuel (depth + 1) rest with
            | .ok (vs, rest) => .ok (.array vs, rest)
            | .error e => .error e
    | '\x7b' :: rest =>
      if d.countsEmpty && d.depth ≤ depth then .error (.tooDeep false)
      else
        match skipGap rest with
        | '\x7d' :: rest => .ok (.object [], rest)
        | rest =>
          if d.depth ≤ depth then .error (.tooDeep false)
          else
            match members d fuel (depth + 1) [] rest with
            | .ok (ms, rest) => .ok (.object ms, rest)
            | .error e => .error e
    | _ =>
      match word? s with
      | some result => .ok result
      | none => number d s

/-- One or more values with commas between them, up to the closing bracket. -/
def items {τ : Type} [BEq τ] (d : Dialect τ) :
    Nat → Nat → List Char → Read (List (Json τ))
  | 0, _, _ => .error .malformed
  | fuel + 1, depth, s =>
    match value d fuel depth s with
    | .error e => .error e
    | .ok (v, rest) =>
      match skipGap rest with
      | ']' :: rest => .ok ([v], rest)
      | ',' :: rest =>
        match items d fuel depth (skipGap rest) with
        | .ok (vs, rest) => .ok (v :: vs, rest)
        | .error e => .error e
      | _ => .error .malformed

/-- One or more members with commas between them, up to the closing brace; `before` holds those
that have been read. -/
def members {τ : Type} [BEq τ] (d : Dialect τ) :
    Nat → Nat → List (τ × Json τ) → List Char → Read (List (τ × Json τ))
  | 0, _, _, _ => .error .malformed
  | fuel + 1, depth, before, s =>
    match s with
    | '\x22' :: rest =>
      match d.text? rest with
      | none => .error .malformed
      | some (name, rest) =>
        match skipGap rest with
        | ':' :: rest =>
          match value d fuel depth (skipGap rest) with
          | .error e => .error e
          | .ok (v, rest) =>
            let found := putMember name v before
            match skipGap rest with
            | '\x7d' :: rest => .ok (found, rest)
            | ',' :: rest => members d fuel depth found (skipGap rest)
            | _ => .error .malformed
        | _ => .error .malformed
    | _ => .error .malformed

end

/-- The value that a text writes. Only blanks may stand around it. A bracket takes two steps of the
readers, and every other character at most one. -/
def parse {τ : Type} [BEq τ] (d : Dialect τ) (s : List Char) : Except ReadError (Json τ) :=
  match value d (2 * s.length + 1) 0 (skipGap s) with
  | .ok (v, rest) => if (skipGap rest).isEmpty then .ok v else .error .malformed
  | .error e => .error e

end WorkspaceAudit.Json
