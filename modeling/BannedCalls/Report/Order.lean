import BannedCalls.Report.Item

/-!
# Report order

Items are ordered by line, column, severity and source. A line or a column that is missing or no
integer counts as a thousand million, a source that is no text as an empty one. Items that agree
in all four keep their order.
-/

namespace BannedCalls

/-- What the place of an item in a report depends on, the most important first. -/
structure ReportKey where
  line : Int
  column : Int
  rank : Nat
  source : Text
  deriving DecidableEq, Repr

namespace ReportKey

def le (a b : ReportKey) : Bool :=
  if a.line ≠ b.line then a.line < b.line
  else if a.column ≠ b.column then a.column < b.column
  else if a.rank ≠ b.rank then a.rank < b.rank
  else decide (List.le a.source b.source)

end ReportKey

namespace Item

def farAway : Int := 1000000000

/-- A missing severity ranks as `info`, one that is not known behind all others. -/
def rank (i : Item) : Nat :=
  match i.severity with
  | .given severity =>
    if severity = "error" then 0 else if severity = "warning" then 1
    else if severity = "info" then 2 else 3
  | .missing => 2
  | .other _ => 3

def key (i : Item) : ReportKey :=
  { line := i.line?.getD farAway
    column := i.column?.getD farAway
    rank := i.rank
    source := i.source.text?.getD [] }

end Item

namespace Report

/-- Puts an item in front of the first one that it may precede. -/
def place (i : Item) : List Item → List Item
  | [] => [i]
  | next :: rest => if i.key.le next.key then i :: next :: rest else next :: place i rest

def sort (items : List Item) : List Item := items.foldr place []

theorem place_perm (i : Item) (items : List Item) : (place i items).Perm (i :: items) := by
  induction items with
  | nil => exact .refl _
  | cons next rest ih =>
    rw [place]
    split
    · exact .refl _
    · exact (ih.cons next).trans (.swap i next rest)

theorem sort_perm (items : List Item) : (sort items).Perm items := by
  induction items with
  | nil => exact .refl _
  | cons i rest ih => exact (place_perm i _).trans (ih.cons i)

end Report

end BannedCalls
