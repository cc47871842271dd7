import WorkspaceAudit.Pattern.Build
import WorkspaceAudit.Pattern.Search

/-!
# Marks in lines, values and paths

The patterns by which a match is recognised as a comment, an opt-out, a placeholder or test data.
-/

namespace WorkspaceAudit.Mark

open Pattern

/-- The start of a comment line. -/
def comment : Pattern :=
  chain [.textStart, blanks, lits ["#", "//", "/*", "*"]]

/-- A comment that opts a line out of the scan. -/
def optOut : Pattern :=
  let gap := some₁ (.union (.of "-:") .blank)
  chain [lits ["//", "#"], blanks,
    anyOf [word "nosec", chain [word "securedev", gap, word "ignore"],
      chain [word "security", gap, word "ignore"]],
    .wordEdge]

/-- A property line in a table of rules. -/
def ruleDefinition : Pattern :=
  .alt
    (chain [.textStart, blanks, lits ["name", "remediation", "description"], blanks, lit ":",
      blanks, .char (.of "'\"`")])
    (chain [.wordEdge, lit "pattern", blanks, lit ":", blanks, lit "/"])

/-- A word that marks a line as an example. -/
def placeholderLine : Pattern :=
  anyOf
    [word "example", word "placeholder",
     chain [word "your", perhaps (.of "-_"), words ["key", "secret", "token", "api", "password"]],
     word "changeme", word "todo", word "insert", word "replace",
     chain [word "fill", perhaps .inLine, word "in"],
     chain [word "enter", perhaps .inLine, words ["key", "secret", "token"]],
     word "sample", word "fake", word "dummy", word "mock", word "redacted", word "omit",
     chain [lit "<", some₁ (.except ">"), lit ">"]]

/-- A word that marks a value as an example. -/
def placeholderWord : Pattern :=
  words ["your", "example", "placeholder", "changeme", "replace", "insert", "fill", "sample",
    "fake", "dummy", "mock", "redacted"]

/-- A word between separators that marks a value as one for tests. -/
def testWord : Pattern :=
  let separator := CharSet.of "-_:/\"'"
  chain
    [.alt .textStart (.char separator),
     words ["test", "tests", "testing", "dev", "development", "local", "dummy", "fake", "sample",
      "mock", "stub", "secret", "example", "demo"],
     .alt (.char separator) .textEnd]

/-- A character eight times in a row. -/
def repeatedChar : Pattern := .repeated 1 .inLine 7

/-- A variable of a template. -/
def templateVariable : Pattern :=
  anyOf
    [chain [lit "<", some₁ (.union .capitalLetter (.of "_")), lit ">"],
     chain [lit "\x7b\x7b", some₁ (.except "\x7d"), lit "\x7d\x7d"],
     chain [lit "$\x7b", some₁ (.except "\x7d"), lit "\x7d"]]

/-- An ending that marks a value as an example. -/
def placeholderEnding : Pattern :=
  chain
    [.char (.of "-_"),
     anyOf [word "here", word "key", word "token", word "secret", word "value", word "goes",
      word "placeholder", word "example", chain [word "xx", some₁ (.anyCase (.oneOf ['x']))]],
     .textEnd]

/-- The name of a host on this machine. -/
def loopbackHost : Pattern :=
  let number := some₁ .digit
  chain
    [anyOf [lit "localhost", chain [lit "127.", number, lit ".", number, lit ".", number],
      lit "0.0.0.0", lit "::1", lit "[::1]"],
     .ahead (.alt (.char (.union (.of ":/?'\"`") .blank)) .textEnd)]

/-- A part of the names of test sources. -/
def testSource : Pattern := lits [".test.", ".spec."]

/-- A folder for test data. -/
def fixtureFolder : Pattern :=
  let plural (s : String) := chain [word s, perhaps (.anyCase (.oneOf ['s']))]
  let pair (s : String) (t : Pattern) := chain [word s, .char (.of "-_"), t]
  chain
    [.alt .textStart (lit "/"),
     anyOf [plural "fixture", word "__fixtures__", word "testdata", pair "test" (word "data"),
      plural "mock", plural "stub", plural "fake", pair "test" (plural "helper"),
      pair "spec" (plural "helper")],
     lit "/"]

/-- A name of a file of test data. -/
def fixtureName : Pattern :=
  chain
    [lit ".",
     anyOf [word "fixture", word "mock", word "stub", word "fake", word "testdata",
      chain [word "test", .char (.of "-_"), word "data"]],
     lit ".", some₁ (.anyCase .smallLetter), .textEnd]

/-- A line that declares a file to be test data. -/
def fixturePragma : Pattern :=
  let test (s : String) := chain [word "test", perhaps (.union (.of "-._") .blank), word s]
  chain
    [words ["securedev", "nosec", "security"], withinLine,
     anyOf [test "fixture", word "intentional", test "data", test "only", word "mock",
      word "fixture"]]

end WorkspaceAudit.Mark
