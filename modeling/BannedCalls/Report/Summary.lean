import BannedCalls.Report.Item

/-!
# Summaries

How many items a report has of each severity, and how many each rule has. A severity that is
missing or not known counts as `info`. Rules stand in the order in which they first came up.
-/

namespace BannedCalls

structure Summary where
  error : Nat
  warning : Nat
  info : Nat
  byRule : List (Text × Nat)
  deriving DecidableEq, Repr

namespace Summary

def empty : Summary := ⟨0, 0, 0, []⟩

def total (s : Summary) : Nat := s.error + s.warning + s.info

def count (rule : Text) : List (Text × Nat) → List (Text × Nat)
  | [] => [(rule, 1)]
  | (other, n) :: rest =>
    if other = rule then (rule, n + 1) :: rest else (other, n) :: count rule rest

/-- An empty rule name is none. -/
def countRule (counts : List (Text × Nat)) : Entered → List (Text × Nat)
  | .given rule => if rule = [] then counts else count rule counts
  | _ => counts

def countSeverity (s : Summary) (i : Item) : Summary :=
  if i.isError then { s with error := s.error + 1 }
  else if i.isWarning then { s with warning := s.warning + 1 }
  else { s with info := s.info + 1 }

def add (s : Summary) (i : Item) : Summary :=
  { s.countSeverity i with byRule := countRule s.byRule i.rule }

def ofItems (items : List Item) : Summary := items.foldl add empty

def toJson (s : Summary) : Json :=
  .obj [("error", .int s.error), ("warning", .int s.warning), ("info", .int s.info),
    ("total", .int s.total), ("by_rule", .obj (s.byRule.map fun (rule, n) => (rule, .int n)))]

theorem total_add (s : Summary) (i : Item) : (s.add i).total = s.total + 1 := by
  unfold add countSeverity total
  split
  · simp only; omega
  · split <;> (simp only; omega)

end Summary

end BannedCalls
