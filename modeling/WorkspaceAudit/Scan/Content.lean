import WorkspaceAudit.Files.Path
import WorkspaceAudit.Scan.RuleSet
import WorkspaceAudit.Suppress.Fixture
import WorkspaceAudit.Text.Located

/-!
# Scanning the text of a file

Each rule that is for the file is searched over the whole text. Its matches are judged in order of
position, and the survivors become findings, up to the cap of the rule set.

- `RuleSet.scanContent`: all matches of a rule are judged, and then the survivors are reported;
- `RuleSet.scanAs`: each match is judged, reported and marked before the next is looked at.
-/

namespace WorkspaceAudit

namespace Rule

/-- The candidate of a match. -/
def candidate (rule : Rule) (source : Located) (path : String) (hit : Pattern.Hit) : Candidate :=
  let number := source.lineNumberAt hit.start
  { rule := rule, path := path, lineNumber := number, line := source.lineText number,
    text := hit.text, before := hit.before, after := source.restOfLine hit.stop }

/-- The candidates of a rule in order of position. -/
def candidates (rule : Rule) (source : Located) (path : String) : List Candidate :=
  (rule.pattern.findAll source.content).map (rule.candidate source path)

end Rule

/-- The judged candidates that are reported: none after the one that fills the cap. Only those in
the words of their rule count towards it. -/
def survivors : Nat → List (Candidate × Verdict) → List (Candidate × Verdict)
  | 0, _ => []
  | _, [] => []
  | room + 1, (_, .drop) :: more => survivors (room + 1) more
  | room + 1, (c, .pass) :: more => (c, .pass) :: survivors room more
  | room + 1, (c, .restate words) :: more => (c, .restate words) :: survivors (room + 1) more

namespace RuleSet

/-- The finding of a candidate that is reported. -/
def finding (set : RuleSet) (c : Candidate) (verdict : Verdict) : Finding :=
  match verdict with
  | .restate words =>
    { scanner := set.scanner, severity := words.severity, title := words.title,
      description := words.description, location := .line c.path c.lineNumber.toNat,
      remediation := some words.remediation }
  | _ =>
    { scanner := set.scanner, severity := c.rule.severity, title := c.rule.title,
      description := set.describe c, location := .line c.path c.lineNumber.toNat,
      remediation := some c.rule.remediation }

/-- The findings of one rule in a text. -/
def ruleFindings (set : RuleSet) (source : Located) (path : String) (rule : Rule) :
    List Finding :=
  let judged := (rule.candidates source path).map fun c => (c, judge set.stages c)
  (survivors set.cap judged).map fun (c, verdict) => set.finding c verdict

/-- The extension of a path in small letters. -/
def extensionOf (path : String) : String :=
  Text.lower (Path.ofString path).suffix

/-- The rules that are for a path, in the order of the set. -/
def rulesFor (set : RuleSet) (path : String) : List Rule :=
  set.rules.filter fun rule => rule.appliesTo (extensionOf path)

/-- The findings of all rules in a text, before test data is told apart. -/
def rawFindings (set : RuleSet) (path : String) (content : List Char) : List Finding :=
  (set.rulesFor path).flatMap (set.ruleFindings (.ofContent content) path)

/-- The findings in the text of a file, in the order of the rules and then by position. An empty
text has none. -/
def scanContent (set : RuleSet) (path : String) (content : List Char) : List Finding :=
  if content.isEmpty then []
  else if isFixture path content then (set.rawFindings path content).map Finding.asFixture
  else set.rawFindings path content

end RuleSet

/-! ## One pass over the matches -/

/-- The finding as it is reported, with a mark if it is one in test data. -/
def Finding.marked (fixture : Bool) (f : Finding) : Finding :=
  if fixture then f.asFixture else f

namespace RuleSet

/-- What is reported of the matches of a rule that are left after so many have been reported in its
words. -/
def reportEach (set : RuleSet) (fixture : Bool) : Nat → List Candidate → List Finding
  | _, [] => []
  | reported, c :: more =>
    if set.cap ≤ reported then []
    else
      match judge set.stages c with
      | .drop => set.reportEach fixture reported more
      | .restate words =>
        (set.finding c (.restate words)).marked fixture :: set.reportEach fixture reported more
      | .pass =>
        (set.finding c .pass).marked fixture :: set.reportEach fixture (reported + 1) more

/-- The findings in a text, as if it were test data or as if it were not. -/
def scanAs (set : RuleSet) (fixture : Bool) (path : String) (content : List Char) : List Finding :=
  if content.isEmpty then []
  else
    (set.rulesFor path).flatMap fun rule =>
      set.reportEach fixture 0 (rule.candidates (.ofContent content) path)

end RuleSet

end WorkspaceAudit
