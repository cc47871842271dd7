import WorkspaceAudit.Pattern.Build
import WorkspaceAudit.Rule.Basic

/-!
# Rules for insecure code

Injection, cross-site scripting, code that runs text, and risky habits.
-/

namespace WorkspaceAudit.Rule

open Pattern

namespace Insecure

/-- Plain script files. -/
def scripts : List String := [".ts", ".js"]

/-- Script files with or without markup. -/
def scriptsAndMarkup : List String := [".ts", ".js", ".tsx", ".jsx"]

/-- Input that a request carries. -/
def userInput : List String := ["req.", "params.", "body.", "query."]

/-- Any characters but a closing parenthesis. -/
def arguments : Pattern := anyMany (.except ")")

/-- An opening parenthesis after blanks. -/
def call : Pattern := chain [blanks, lit "("]

/-- A call that has user input among its arguments. -/
def callOnInput : Pattern := chain [call, arguments, lits userInput, arguments, lit ")"]

end Insecure

open Insecure

/-- The table of insecure code. -/
def insecure : List Rule :=
  [{ name := "SQL Injection - string concatenation in query"
     pattern := chain [lits ["query", "execute", "db.run", "sequelize.query", "knex.raw"], call,
      blanks, .char (.of "`\"'"), .many .inLine 0 none true, lit "+", blanks, lits userInput]
     severity := .critical
     remediation :=
      "Use parameterized queries or prepared statements. Never concatenate user input into SQL."
     extensions := some [".ts", ".js", ".py", ".php"] },
   { name := "SQL Injection - raw query with template literal"
     pattern := chain [lits ["query", "raw", "execute"], blanks, lit "(`", anyMany (.except "`"),
      lit "$\x7b", lits ["req.", "params.", "body.", "query.", "user."]]
     severity := .critical
     remediation :=
      "Use parameterized queries. Template literals with user input in SQL are dangerous."
     extensions := some scripts },
   { name := "XSS - dangerouslySetInnerHTML"
     pattern := chain [lit "dangerouslySetInnerHTML", blanks, lit "=", blanks, lit "\x7b", blanks,
      lit "\x7b", blanks, lit "__html", blanks, lit ":"]
     severity := .high
     remediation := "Avoid dangerouslySetInnerHTML. If necessary, sanitize with DOMPurify first."
     extensions := some scriptsAndMarkup },
   { name := "XSS - innerHTML with variable"
     pattern := chain [lit ".innerHTML", blanks, lit "=", blanks,
      .notAhead (chain [.char (.of "\"'`"), lit "<"])]
     severity := .high
     remediation := "Use textContent instead of innerHTML, or sanitize the value with DOMPurify."
     extensions := some scriptsAndMarkup },
   { name := "eval() usage"
     pattern := chain [.wordEdge, lit "eval", call]
     severity := .high
     remediation := "Avoid eval(). Use JSON.parse() for JSON, or safer alternatives."
     extensions := some scripts },
   { name := "new Function() usage"
     pattern := chain [lit "new", some₁ .blank, lit "Function", call]
     severity := .high
     remediation := "Avoid new Function() - it executes arbitrary code similar to eval()."
     extensions := some scripts },
   { name := "Path traversal - unsanitized path join with user input"
     pattern := chain [lit "path.", lits ["join", "resolve"], callOnInput]
     severity := .high
     remediation := "Validate and sanitize file paths. Use path.normalize() and verify the " ++
      "result stays within allowed directories."
     extensions := some scripts },
   { name := "Command injection - exec with user input"
     pattern := chain [lits ["exec", "execSync", "spawn"], callOnInput]
     severity := .critical
     remediation := "Never pass user input to shell commands. Use allowlists and escape inputs " ++
      "if shell execution is required."
     extensions := some scripts },
   { name := "Prototype pollution"
     pattern := chain [lit "Object.assign", call, blanks, lits ["req.", "this.", "global."]]
     severity := .high
     remediation :=
      "Validate object shapes before merging. Use Object.create(null) for prototype-free objects."
     extensions := some scripts },
   { name := "Regex DoS (ReDoS) - nested quantifiers"
     pattern := chain [lit "new RegExp(", arguments, lit "(", arguments, lit "+", arguments,
      lit ")+"]
     severity := .medium
     remediation := "Avoid nested quantifiers in regular expressions to prevent ReDoS attacks."
     extensions := some scripts },
   { name := "Hardcoded localhost/IP in production code"
     pattern := chain [lits ["http://localhost", "http://127.0.0.1", "http://0.0.0.0"],
      .notAhead (chain [withinLine, lits ["dev", "test", "local"]])]
     severity := .low
     remediation := "Use environment variables for URLs. Hardcoded localhost addresses may " ++
      "cause issues in production."
     extensions := some [".ts", ".js", ".py"] },
   { name := "console.log with sensitive data patterns"
     pattern := chain [word "console.", words ["log", "info", "debug"], call, arguments,
      words ["password", "secret", "token", "key", "credential"], arguments, lit ")"]
     severity := .medium
     remediation := "Remove logging of sensitive data. Use redaction for debug output."
     extensions := some scripts },
   { name := "TODO/FIXME security note"
     pattern := chain [lit "//", blanks, words ["todo", "fixme", "hack", "xxx"], withinLine,
      words ["security", "auth", "secret", "password", "safe", "inject"]]
     severity := .low
     remediation := "Address this security TODO before production deployment."
     extensions := some [".ts", ".js", ".py", ".go", ".php"]
     inComments := true }]

end WorkspaceAudit.Rule
