import BannedCalls.Json.Basic

/-!
# Report items

An item is one line of a report. The members by which items are ordered, counted and shown may be
missing, and where a text, a place or a message is expected any value may stand; such a value and
the other members are carried along as they are.
-/

namespace BannedCalls

/-- A member that should be a text. -/
inductive Entered
  | missing
  | given (text : Text)
  | other (value : Json)

namespace Entered

def ofJson : Option Json → Entered
  | none => missing
  | some (.str t) => given t
  | some value => other value

def member (name : Text) : Entered → List (Text × Json)
  | missing => []
  | given t => [(name, .str t)]
  | other value => [(name, value)]

def text? : Entered → Option Text
  | given t => some t
  | _ => none

end Entered

structure Item where
  severity : Entered
  source : Entered
  rule : Entered
  line : Option Json
  column : Option Json
  /-- The offset and the width of the text that an item is about. -/
  span : Option (Int × Int)
  message : Option Json
  details : List (Text × Json)

namespace Item

def member (name : Text) : Option Json → List (Text × Json)
  | some value => [(name, value)]
  | none => []

def spanMembers : Option (Int × Int) → List (Text × Json)
  | some (offset, width) => [("offset", .int offset), ("width", .int width)]
  | none => []

def members (i : Item) : List (Text × Json) :=
  i.severity.member "severity" ++ i.source.member "source" ++ i.rule.member "rule" ++
    member "line" i.line ++ member "column" i.column ++
    spanMembers i.span ++ member "message" i.message ++ i.details

def toJson (i : Item) : Json := .obj i.members

def knownNames : List Text := ["severity", "source", "rule", "line", "column", "message"]

def spanNames : List Text := ["offset", "width"]

def spanOf (members : List (Text × Json)) : Option (Int × Int) :=
  match Json.lookup? "offset" members, Json.lookup? "width" members with
  | some (.int offset), some (.int width) => some (offset, width)
  | _, _ => none

/-- The item with these members. Members that have no place of their own are details. -/
def ofMembers (members : List (Text × Json)) : Item :=
  let span := spanOf members
  let known := if span.isSome then spanNames ++ knownNames else knownNames
  { severity := .ofJson (Json.lookup? "severity" members)
    source := .ofJson (Json.lookup? "source" members)
    rule := .ofJson (Json.lookup? "rule" members)
    line := Json.lookup? "line" members
    column := Json.lookup? "column" members
    span
    message := Json.lookup? "message" members
    details := members.filter fun m => !known.contains m.1 }

/-- The number of a line or a column, if there is one. -/
def place? (value : Option Json) : Option Int := value.bind Json.integer?

def line? (i : Item) : Option Int := place? i.line

def column? (i : Item) : Option Int := place? i.column

def isError (i : Item) : Bool := i.severity.text? = some "error"

def isWarning (i : Item) : Bool := i.severity.text? = some "warning"

/-- An item with advice: what to do, and how sure the advice is. -/
def advised (severity source : Text) (rule : Option Text) (line column : Option Int)
    (span : Option (Int × Int)) (message suggestion : Text) (confidence : Numeral) : Item where
  severity := .given severity
  source := .given source
  rule := rule.elim (.other .null) .given
  line := some (line.elim .null .int)
  column := some (column.elim .null .int)
  span
  message := some (.str message)
  details := [("suggestion", .str suggestion), ("confidence", .real confidence)]

end Item

end BannedCalls
