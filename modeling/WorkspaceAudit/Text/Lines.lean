/-!
# Lines

Cutting a text at a separator and putting the pieces together again, and line ends of other
systems read as line feeds.
-/

namespace WorkspaceAudit.Text

/-- The pieces between the separators: one more than there are separators. -/
def splitOn (sep : Char) (s : List Char) : List (List Char) :=
  s.foldr (fun c pieces =>
    if c = sep then [] :: pieces
    else match pieces with
      | [] => [[c]]
      | piece :: more => (c :: piece) :: more) [[]]

/-- The pieces with the separator between them. -/
def joinWith {α : Type} (sep : List α) : List (List α) → List α
  | [] => []
  | [piece] => piece
  | piece :: more => piece ++ sep ++ joinWith sep more

/-- The lines of a text, without their line feeds. -/
def splitLines (s : List Char) : List (List Char) :=
  splitOn '\n' s

/-- One text of the lines. -/
def joinLines (lines : List (List Char)) : List Char :=
  joinWith ['\n'] lines

/-- A carriage return, with the line feed after it if there is one, read as a line feed. -/
def plainNewlines : List Char → List Char
  | [] => []
  | '\r' :: '\n' :: rest => '\n' :: plainNewlines rest
  | '\r' :: rest => '\n' :: plainNewlines rest
  | c :: rest => c :: plainNewlines rest

/-- Strings with a separator between them. -/
def join (sep : String) : List String → String
  | [] => ""
  | [s] => s
  | s :: more => s ++ sep ++ join sep more

end WorkspaceAudit.Text
