/-!
# Sorting by a key

A stable sort by insertion: elements that are equal under the order keep their places.
-/

namespace WorkspaceAudit

/-- `x` before the first element that is not smaller. -/
def insertSorted {α : Type} (le : α → α → Bool) (x : α) : List α → List α
  | [] => [x]
  | y :: ys => if le x y then x :: y :: ys else y :: insertSorted le x ys

/-- The elements in the given order, equal ones in the order of arrival. -/
def sortBy {α : Type} (le : α → α → Bool) (xs : List α) : List α :=
  xs.foldr (insertSorted le) []

/-- The elements in the order of the code points of their keys. -/
def sortByName {α : Type} (key : α → String) (xs : List α) : List α :=
  sortBy (fun x y => decide (key x ≤ key y)) xs

end WorkspaceAudit
