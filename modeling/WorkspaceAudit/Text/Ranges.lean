/-!
# Ranges of code points
-/

namespace WorkspaceAudit.Text

/-- `n` lies in one of the ranges, whose two ends belong to them. -/
def inRanges (n : Nat) (ranges : List (Nat × Nat)) : Bool :=
  ranges.any fun r => r.1 ≤ n && n ≤ r.2

end WorkspaceAudit.Text
