import WorkspaceAudit.Number.Shortest
import WorkspaceAudit.Text.Loose

/-!
# JSON values

Whole numbers are kept apart from binary fractions, and the members of an object keep the order in
which their names first appear. The texts of a value are strings, or loose texts if another program
has written it.
-/

namespace WorkspaceAudit

inductive Json (τ : Type := String) where
  | null
  | bool (b : Bool)
  | int (n : Int)
  | float (x : Binary)
  | string (s : τ)
  | array (items : List (Json τ))
  | object (members : List (τ × Json τ))
  deriving Repr

namespace Json

/-- Members with one more: its value takes the place of an earlier one of the same name. -/
def putMember {τ : Type} [BEq τ] (name : τ) (value : Json τ) :
    List (τ × Json τ) → List (τ × Json τ)
  | [] => [(name, value)]
  | (n, v) :: more =>
    if n == name then (n, value) :: more else (n, v) :: putMember name value more

/-- The value of a member of an object. -/
def get? (v : Json) (name : String) : Option Json :=
  match v with
  | .object members => members.lookup name
  | _ => none

/-- The value counts as present: not null, false, zero or empty. -/
def isTruthy : Json LooseText → Bool
  | .null => false
  | .bool b => b
  | .int n => n != 0
  | .float x => !x.isZero
  | .string s => !s.isEmpty
  | .array items => !items.isEmpty
  | .object members => !members.isEmpty

mutual

/-- A value with other texts. -/
def mapText {τ υ : Type} (f : τ → υ) : Json τ → Json υ
  | .null => .null
  | .bool b => .bool b
  | .int n => .int n
  | .float x => .float x
  | .string s => .string (f s)
  | .array items => .array (mapItems f items)
  | .object members => .object (mapMembers f members)

def mapItems {τ υ : Type} (f : τ → υ) : List (Json τ) → List (Json υ)
  | [] => []
  | v :: more => mapText f v :: mapItems f more

def mapMembers {τ υ : Type} (f : τ → υ) : List (τ × Json τ) → List (υ × Json υ)
  | [] => []
  | (name, v) :: more => (f name, mapText f v) :: mapMembers f more

end

/-- A value with the replacement character for halves that stand alone. -/
def plain (v : Json LooseText) : Json := v.mapText LooseText.plain

/-- A value as one that another program might have written. -/
def loose (v : Json) : Json LooseText := v.mapText LooseText.ofString

mutual

/-- A value as messages show it, texts between quotes. -/
def shown : Json LooseText → String
  | .null => "None"
  | .bool b => if b then "True" else "False"
  | .int n => Text.Decimal.ofInt n
  | .float x => x.toDecimal
  | .string s => s.quoted
  | .array items => "[" ++ Text.join ", " (shownItems items) ++ "]"
  | .object members => "\x7b" ++ Text.join ", " (shownMembers members) ++ "\x7d"

def shownItems : List (Json LooseText) → List String
  | [] => []
  | v :: more => shown v :: shownItems more

def shownMembers : List (LooseText × Json LooseText) → List String
  | [] => []
  | (name, v) :: more => (name.quoted ++ ": " ++ shown v) :: shownMembers more

end

/-- A value as part of a message: a text stands for itself. -/
def spoken : Json LooseText → LooseText
  | .string s => s
  | v => v.shown

end Json

end WorkspaceAudit
