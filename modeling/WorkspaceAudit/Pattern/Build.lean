import WorkspaceAudit.Pattern.Basic

/-!
# Building patterns

Short names for the patterns that the tables of rules are made of. A pattern that ignores case is
given in small letters.
-/

namespace WorkspaceAudit.Pattern

/-- The patterns one after the other. -/
def chain : List Pattern → Pattern
  | [] => .empty
  | [p] => p
  | p :: more => .seq p (chain more)

/-- The first of the patterns that fits. -/
def anyOf : List Pattern → Pattern
  | [] => .notAhead .empty
  | [p] => p
  | p :: more => .alt p (anyOf more)

/-- Exactly this text. -/
def lit (s : String) : Pattern :=
  chain (s.toList.map fun c => .char (.oneOf [c]))

/-- This text in capital or small letters. -/
def word (s : String) : Pattern :=
  chain (s.toList.map fun c => .char (.anyCase (.oneOf [c])))

/-- The first of the texts that fits. -/
def lits (texts : List String) : Pattern :=
  anyOf (texts.map lit)

/-- The first of the texts that fits, in capital or small letters. -/
def words (texts : List String) : Pattern :=
  anyOf (texts.map word)

/-- A character of the set, or none. -/
def perhaps (s : CharSet) : Pattern := .many s 0 (some 1) false

/-- Any number of characters of the set. -/
def anyMany (s : CharSet) : Pattern := .many s 0 none false

/-- One character of the set or more. -/
def some₁ (s : CharSet) : Pattern := .many s 1 none false

/-- `n` characters of the set or more. -/
def atLeast (n : Nat) (s : CharSet) : Pattern := .many s n none false

/-- Exactly `n` characters of the set. -/
def exactly (n : Nat) (s : CharSet) : Pattern := .many s n (some n) false

/-- Any number of blanks. -/
def blanks : Pattern := anyMany .blank

/-- The rest of the line, or a part of it. -/
def withinLine : Pattern := anyMany .inLine

/-- The numbers of the captures of a pattern, in order. -/
def groups : Pattern → List Nat
  | .capture n p => n :: groups p
  | .repeated n _ _ => [n]
  | .seq p q => groups p ++ groups q
  | .alt p q => groups p ++ groups q
  | .optional p => groups p
  | .ahead p => groups p
  | .notAhead p => groups p
  | _ => []

end WorkspaceAudit.Pattern
