import WorkspaceAudit.Json.Problem
import WorkspaceAudit.Json.Value
import WorkspaceAudit.Text.Blank
import WorkspaceAudit.Time.Text

/-!
# Checking the shape of values

A check turns a value into something else or lists all that is wrong with it. Checks of several
fields are joined by `Checked.and`, which keeps the problems of both in order.
-/

namespace WorkspaceAudit

/-- A result, or the problems that stand in its way. -/
abbrev Checked (α : Type) := Except (List Problem) α

namespace Checked

/-- A problem at the value itself. -/
def fail {α : Type} (cause : Cause) : Checked α :=
  .error [⟨[], cause⟩]

/-- Both results, or the problems of both. -/
def and {α β : Type} : Checked α → Checked β → Checked (α × β)
  | .ok a, .ok b => .ok (a, b)
  | .ok _, .error ps => .error ps
  | .error ps, .ok _ => .error ps
  | .error ps, .error qs => .error (ps ++ qs)

/-- The problems as seen from the value around. -/
def under {α : Type} (step : Step) : Checked α → Checked α
  | .ok a => .ok a
  | .error ps => .error (ps.map (Problem.under step))

end Checked

namespace Check

/-- A field that has to be there. -/
def required {α : Type} (check : Json → Checked α) (members : List (String × Json))
    (name : String) : Checked α :=
  (match members.lookup name with
    | some v => check v
    | none => .fail .missing).under (.field name)

/-- A field that has a default. -/
def withDefault {α : Type} (default : α) (check : Json → Checked α)
    (members : List (String × Json)) (name : String) : Checked α :=
  match members.lookup name with
  | some v => (check v).under (.field name)
  | none => .ok default

/-- Null, or a value that passes a check. -/
def nullable {α : Type} (check : Json → Checked α) : Json → Checked (Option α)
  | .null => .ok none
  | v => (check v).map some

/-- A field that may be missing or null. -/
def optional {α : Type} (check : Json → Checked α) (members : List (String × Json))
    (name : String) : Checked (Option α) :=
  withDefault none (nullable check) members name

def text : Json → Checked String
  | .string s => .ok s
  | _ => .fail .notText

/-- A text that names one of several things. -/
def named {α : Type} (ofName? : String → Option α) (cause : Cause) : Json → Checked α
  | .string s =>
    match ofName? s with
    | some a => .ok a
    | none => .fail cause
  | _ => .fail cause

/-- A whole number in its plain form: digits that do not begin with a zero, unless there is no
other, perhaps after a minus. -/
def plainInteger (s : List Char) : Checked Int :=
  let (negative, body) := match s with
    | '-' :: rest => (true, rest)
    | _ => (false, s)
  match body with
  | '0' :: rest => if rest.isEmpty then .ok 0 else .fail .unreadableInteger
  | _ =>
    let (ds, rest) := body.span Text.Decimal.isDigit
    if Text.Decimal.longest < ds.length then .fail .hugeInteger
    else if ds.isEmpty || !rest.isEmpty then .fail .unreadableInteger
    else
      let n : Int := Text.Decimal.value ds
      .ok (if negative then -n else n)

/-- A digit but zero, or a minus. -/
def beginsInteger (c : Char) : Bool :=
  (Text.Decimal.isDigit c && c != '0') || c == '-'

/-- What follows zeros, of which the last one was `last`. Underscores among them count as zeros, and
the last one stays in front of a point or the end. -/
def afterZeros? (last : Char) : List Char → Option (List Char)
  | [] => some [last]
  | c :: rest =>
    if c == '0' || c == '_' then afterZeros? c rest
    else if beginsInteger c then some (c :: rest)
    else if c == '.' then some (last :: c :: rest)
    else none

/-- A number without the zeros that it begins with. -/
def withoutZeros? : List Char → Option (List Char)
  | [] => none
  | c :: rest =>
    if c == '0' then afterZeros? c rest
    else if beginsInteger c then some (c :: rest)
    else none

/-- A number without a fraction of zeros. -/
def withoutFraction (s : List Char) : List Char :=
  match s.span (· != '.') with
  | (whole, _ :: zeros) => if !zeros.isEmpty && zeros.all (· == '0') then whole else s
  | _ => s

/-- Two underscores stand side by side. -/
def hasDoubleUnderscore : List Char → Bool
  | c :: d :: rest => (c == '_' && d == '_') || hasDoubleUnderscore (d :: rest)
  | _ => false

/-- A number without the single underscores in it. One with others stays as it is. -/
def withoutUnderscores (s : List Char) : List Char :=
  if s.head? == some '_' || s.getLast? == some '_' || hasDoubleUnderscore s then s
  else s.filter (· != '_')

/-- The signs in front of a number: at most a plus or a minus. -/
def splitSign? : List Char → Option (List Char × List Char)
  | '+' :: rest => if rest.head? == some '-' then none else some ([], rest)
  | '-' :: rest => if rest.head? == some '-' then none else some (['-'], rest)
  | s => some ([], s)

/-- The plain form of a number that has blanks around it, a sign, zeros in front, underscores or a
fraction of zeros. -/
def plainForm? (s : List Char) : Option (List Char) := do
  let (sign, s) ← splitSign? (Text.trimBy Text.isSpacing s)
  let s ← withoutZeros? s
  return sign ++ withoutUnderscores (withoutFraction s)

/-- The whole number that a text writes. Only a text that begins with too many digits is told to be
too long. -/
def integerOfText (s : List Char) : Checked Int :=
  match plainInteger s with
  | .ok n => .ok n
  | .error problems =>
    if problems == [⟨[], .hugeInteger⟩] then .error problems
    else
      match (plainForm? s).map plainInteger with
      | some (.ok n) => .ok n
      | _ => .fail .unreadableInteger

/-- The whole number that a binary number is. Only those of 64 bits are taken. -/
def integerOfBinary (x : Binary) : Checked Int :=
  match x with
  | .finite .. =>
    match x.whole? with
    | some n => if n.natAbs < Nat.pow 2 63 then .ok n else .fail .hugeInteger
    | none => .fail .fractionalInteger
  | _ => .fail .infiniteInteger

/-- A whole number, also as a fraction of zero, a truth value or a text. -/
def integer : Json → Checked Int
  | .int n => .ok n
  | .bool b => .ok (if b then 1 else 0)
  | .float x => integerOfBinary x
  | .string s => integerOfText s.toList
  | _ => .fail .notInteger

/-- A whole number that is not below a bound. -/
def integerFrom (least : Int) (v : Json) : Checked Int := do
  let n ← integer v
  if least ≤ n then return n else .fail (.tooSmall least)

/-- A whole number between two bounds. -/
def integerBetween (least greatest : Int) (v : Json) : Checked Int := do
  let n ← integerFrom least v
  if n ≤ greatest then return n else .fail (.tooGreat greatest)

/-- The moment of a number of microseconds since 1970. -/
def momentOfInstant : Option Int → Checked Moment
  | some n =>
    match Moment.ofInstant? n with
    | some m => .ok m
    | none => .fail .momentOutOfRange
  | none => .fail .momentOutOfRange

/-- A moment, as a text or as seconds since 1970. A whole number of more than 64 bits is none. -/
def moment : Json → Checked Moment
  | .string s =>
    match Moment.ofText s.toList with
    | .ok m => .ok m
    | .error .unreadable => .fail .unreadableMoment
    | .error .outOfRange => .fail .momentOutOfRange
  | .int n =>
    if -(Nat.pow 2 63 : Nat) ≤ n && n < (Nat.pow 2 63 : Nat) then
      momentOfInstant (some (Moment.instantOfSeconds n))
    else .fail .notMoment
  | .float x => momentOfInstant (Moment.instantOfBinary? x)
  | _ => .fail .notMoment

/-- The items of a list, each under its index. -/
def itemsFrom {α : Type} (check : Json → Checked α) : Nat → List Json → Checked (List α)
  | _, [] => .ok []
  | i, v :: more =>
    (((check v).under (.index i)).and (itemsFrom check (i + 1) more)).map fun (a, as) => a :: as

/-- A list of values. -/
def list {α : Type} (check : Json → Checked α) : Json → Checked (List α)
  | .array items => itemsFrom check 0 items
  | _ => .fail .notList

/-- An object, whose members are checked. -/
def object {α : Type} (check : List (String × Json) → Checked α) : Json → Checked α
  | .object members => check members
  | _ => .fail .notObject

end Check

end WorkspaceAudit
