import WorkspaceAudit.Pattern.Build
import WorkspaceAudit.Pattern.Search

/-!
# Ignore globs

A glob is a row of pieces. `**` stands for any text in a line, `*` for any text without a slash,
`?` for one character that is no slash, and every other character for itself. A glob covers the
paths that it describes and all that lies below them.

- `Glob.ofText` reads a glob, `Glob.expression` shows it as a regular expression;
- `Glob.emitted` makes the regular expression of a text by replacing parts of it;
- `Glob.pattern` is the pattern that is searched in a path.
-/

namespace WorkspaceAudit

/-- The text with `new` for each `old` in it, from the left and without overlaps. -/
def Text.replaceAll (old new : List Char) : List Char → List Char
  | [] => []
  | c :: rest =>
    if old.isPrefixOf (c :: rest) then
      new ++ replaceAll old new (rest.drop (old.length - 1))
    else c :: replaceAll old new rest
termination_by s => s.length

namespace Glob

/-- A piece of a glob. -/
inductive Piece where
  /-- Any text in a line. -/
  | anyText
  /-- Any text without a slash. -/
  | anyName
  /-- One character that is no slash. -/
  | anyChar
  | char (c : Char)
  deriving Repr, DecidableEq

/-- The pieces of a text. Stars are paired from the left, and the NUL character stands for a pair
of stars. -/
def piecesOf : List Char → List Piece
  | [] => []
  | '*' :: '*' :: rest => .anyText :: piecesOf rest
  | '*' :: rest => .anyName :: piecesOf rest
  | '?' :: rest => .anyChar :: piecesOf rest
  | c :: rest => (if c == '\x00' then .anyText else .char c) :: piecesOf rest

/-- The pattern of a piece. -/
def Piece.pattern : Piece → Pattern
  | .anyText => Pattern.withinLine
  | .anyName => Pattern.anyMany (.except "/")
  | .anyChar => .char (.except "/")
  | .char c => .char (.oneOf [c])

/-- The characters with a meaning in regular expressions. -/
def specials : List Char := ".+^$\x7b\x7d()|[]\\".toList

/-- A character, with a backslash in front if it has a meaning in regular expressions. -/
def escape (c : Char) : List Char := if specials.contains c then ['\\', c] else [c]

/-- A piece as part of a regular expression. -/
def Piece.expression : Piece → List Char
  | .anyText => ".*".toList
  | .anyName => "[^/]*".toList
  | .anyChar => "[^/]".toList
  | .char c => escape c

/-- The text without a slash at its end. -/
def dropLastSlash (s : List Char) : List Char :=
  if s.getLast? == some '/' then s.dropLast else s

/-- The text without a slash at its start. -/
def dropFirstSlash : List Char → List Char
  | '/' :: rest => rest
  | s => s

end Glob

/-- A glob, which matches from the start of a path if it is anchored and else from the start of any
name in it. -/
structure Glob where
  anchored : Bool
  pieces : List Glob.Piece
  deriving Repr, DecidableEq

namespace Glob

/-- The glob of a text. A slash that is not its last character anchors it. -/
def ofText (raw : List Char) : Glob where
  anchored := (dropLastSlash raw).contains '/'
  pieces := piecesOf (dropLastSlash (dropFirstSlash raw))

/-- Nothing more, or a slash and any text in a line, up to the end of the path. -/
def tail : Pattern :=
  .seq (.optional (.seq (Pattern.lit "/") Pattern.withinLine)) .textEnd

/-- Where a glob may start. -/
def front (g : Glob) : Pattern :=
  if g.anchored then .textStart else .alt .textStart (Pattern.lit "/")

/-- The pattern that is searched in a path. -/
def pattern (g : Glob) : Pattern :=
  .seq g.front (.seq (Pattern.chain (g.pieces.map Piece.pattern)) tail)

/-- The glob as a regular expression. -/
def expression (g : Glob) : List Char :=
  (if g.anchored then "^" else "(^|/)").toList ++ g.pieces.flatMap Piece.expression ++
    "(/.*)?$".toList

/-- The text of a glob as a regular expression, one kind of piece after the other. A pair of stars
is kept apart as a NUL character until single stars have been replaced. -/
def substituted (text : List Char) : List Char :=
  let text := text.flatMap escape
  let text := Text.replaceAll ['*', '*'] ['\x00'] text
  let text := Text.replaceAll ['*'] "[^/]*".toList text
  let text := Text.replaceAll ['\x00'] ".*".toList text
  Text.replaceAll ['?'] "[^/]".toList text

/-- The regular expression of the text of a glob. -/
def emitted (raw : List Char) : List Char :=
  let body := substituted (dropLastSlash (dropFirstSlash raw))
  if (dropLastSlash raw).contains '/' then "^".toList ++ body ++ "(/.*)?$".toList
  else "(^|/)".toList ++ body ++ "(/.*)?$".toList

/-- The glob covers the path. -/
def covers (g : Glob) (path : List Char) : Bool :=
  g.pattern.found path

end Glob

end WorkspaceAudit
