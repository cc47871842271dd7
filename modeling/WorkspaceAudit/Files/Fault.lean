import WorkspaceAudit.Files.Path
import WorkspaceAudit.Json.Problem
import WorkspaceAudit.Number.Reading
import WorkspaceAudit.Text.Loose

/-!
# Faults

All that can go wrong outside the scanned text itself.
-/

namespace WorkspaceAudit

/-- What can stand in one another too deeply. -/
inductive Nesting where
  | array
  | object
  | folder
  | link
  deriving Repr, DecidableEq

inductive Fault where
  /-- Nothing is at the path. -/
  | notFound
  /-- A file was asked for, but a folder is there. -/
  | isFolder
  /-- A folder was asked for, but something else is there. -/
  | notFolder
  /-- Something is already there. -/
  | alreadyExists
  /-- It may not be opened or listed. -/
  | denied
  /-- More links than the system follows. -/
  | tooManyLinks
  /-- A name or path that is longer than the system allows. -/
  | nameTooLong
  /-- A path with a NUL character. -/
  | nulInPath
  /-- Bytes that are no text. -/
  | undecodable
  /-- A link that leads back to itself. -/
  | linkLoop (path : Path)
  /-- A path that is not below a folder. -/
  | outside (path root : Path)
  /-- A value without the members that are asked of it. -/
  | noMembers
  /-- A value that cannot be used as what is asked for. -/
  | wrongKind
  /-- A value with problems. -/
  | invalid (problems : List Problem)
  /-- A scan that ended before it began, by so many milliseconds below zero. -/
  | backwards (durationMs : Int)
  /-- A time that cannot be told. -/
  | unmeasurable (cause : Unmeasurable)
  /-- Too much of a kind in one another. -/
  | tooDeep (kind : Nesting)
  /-- A number of more digits than are read. -/
  | tooManyDigits (digits : Nat)
  /-- A number of more digits than are written. -/
  | unwritable
  /-- A text with halves of pairs that stand alone. -/
  | unencodable (lone : LoneHalves)
  /-- A time that is in no calendar. -/
  | outsideCalendar
  /-- A time whose day before is in no calendar. -/
  | firstDay
  /-- A value that names no severity, as messages show it. -/
  | unknownSeverity (shown : String)
  /-- A text that names no level to block on. -/
  | badLevel (value : String)
  /-- The home folder of an unknown user. -/
  | noHome
  /-- Something that the terminal does not show, with what it says about it. -/
  | refused (message : String)
  /-- A failure with a message of its own. -/
  | failure (message : String)
  deriving Repr, DecidableEq

namespace Fault

/-- The fault is one of the file system. -/
def ofSystem : Fault → Bool
  | .notFound => true
  | .isFolder => true
  | .notFolder => true
  | .alreadyExists => true
  | .denied => true
  | .tooManyLinks => true
  | .nameTooLong => true
  | _ => false

/-- The problems of the value that a fault is about. -/
def problems? : Fault → Option (List Problem)
  | .invalid problems => some problems
  | .backwards _ => some [⟨[.field "duration_ms"], .tooSmall 0⟩]
  | _ => none

/-- A text of at most fifty characters, or the first and the last ones of a longer text. -/
def shortened (s : String) : String :=
  if s.length ≤ 50 then s
  else String.ofList (s.toList.take 25) ++ "..." ++ String.ofList (s.toList.drop (s.length - 24))

/-- A number in a message. -/
def numberText (n : Int) : String :=
  if Text.Decimal.isWritable n then shortened (Text.Decimal.ofInt n)
  else "<unprintable int object>"

/-- What is said about a duration below zero. -/
def backwardsMessage (durationMs : Int) : String :=
  "1 validation error for ScanResult\nduration_ms\n" ++
    "  Input should be greater than or equal to 0 [type=greater_than_equal, input_value=" ++
    numberText durationMs ++ ", input_type=int]\n" ++
    "    For further information visit https://errors.pydantic.dev/2.14/v/greater_than_equal"

/-- What is said about a time that cannot be told. -/
def unmeasurableMessage : Unmeasurable → String
  | .tooLarge => "int too large to convert to float"
  | .endless => "cannot convert float infinity to integer"
  | .undefined => "cannot convert float NaN to integer"

/-- What is said about too much in one another. -/
def tooDeepMessage : Nesting → String
  | .array => "maximum recursion depth exceeded while decoding a JSON array from a unicode string"
  | .object => "maximum recursion depth exceeded while decoding a JSON object from a unicode string"
  | .folder => "maximum recursion depth exceeded while calling a Python object"
  | .link => "maximum recursion depth exceeded"

/-- What is said about a number of too many digits. -/
def tooManyDigitsMessage (digits : Nat) : String :=
  "Exceeds the limit (4300 digits) for integer string conversion: value has " ++
    Text.Decimal.ofNat digits ++
    " digits; use sys.set_int_max_str_digits() to increase the limit"

/-- What is said about a number that cannot be written. -/
def unwritableMessage : String :=
  "Exceeds the limit (4300 digits) for integer string conversion; " ++
    "use sys.set_int_max_str_digits() to increase the limit"

/-- What is said about halves of pairs that stand alone. -/
def unencodableMessage (lone : LoneHalves) : String :=
  "Error serializing to JSON: UnicodeEncodeError: 'utf-8' codec can't encode " ++
    (if lone.count == 1 then
      "character '\\u" ++ String.ofList (Text.hex 4 lone.code) ++ "' in position " ++
        Text.Decimal.ofNat lone.position
    else
      "characters in position " ++ Text.Decimal.ofNat lone.position ++ "-" ++
        Text.Decimal.ofNat (lone.position + lone.count - 1)) ++
    ": surrogates not allowed"

/-- What is said about a fault. -/
def message : Fault → String
  | .notFound => "No such file or directory"
  | .isFolder => "Is a directory"
  | .notFolder => "Not a directory"
  | .alreadyExists => "File exists"
  | .denied => "Permission denied"
  | .tooManyLinks => "Too many levels of symbolic links"
  | .nameTooLong => "File name too long"
  | .nulInPath => "embedded null byte"
  | .undecodable => "invalid UTF-8"
  | .linkLoop path => "Symlink loop from " ++ Text.quoted path.text
  | .outside path root => path.outsideMessage root
  | .noMembers => "no such member"
  | .wrongKind => "wrong kind of value"
  | .invalid problems =>
    Text.join "; " (problems.map fun p => p.cause.message?.getD p.cause.code)
  | .backwards durationMs => backwardsMessage durationMs
  | .unmeasurable cause => unmeasurableMessage cause
  | .tooDeep kind => tooDeepMessage kind
  | .tooManyDigits digits => tooManyDigitsMessage digits
  | .unwritable => unwritableMessage
  | .unencodable lone => unencodableMessage lone
  | .outsideCalendar => "date value out of range"
  | .firstDay => "year 0 is out of range"
  | .unknownSeverity shown => shown ++ " is not a valid Severity"
  | .badLevel value => "must be CRITICAL or HIGH, got: " ++ value
  | .noHome => "Could not determine home directory."
  | .refused text => text
  | .failure text => text

end Fault

/-- Something that is made with numbers in it, if all of them can be written. -/
def withNumbers {α : Type} (numbers : List Int) (made : α) : Except Fault α :=
  if numbers.all Text.Decimal.isWritable then .ok made else .error .unwritable

end WorkspaceAudit
