import BannedCalls.Json.Shown
import BannedCalls.Report.Item
import BannedCalls.Text.Blank

/-!
# Items as lines of text
-/

namespace BannedCalls.Item

/-- The message of an item that is shown must be a text. -/
inductive LineError
  | messageNotText
  deriving DecidableEq, Repr

/-- A place as it is shown; what is no integer is left out. -/
def placeShown? : Option Json → Option Text
  | some (.int n) => some (Text.ofInt n)
  | some (.bool b) => some (boolShown b)
  | _ => none

def placeParts (label : Text) (value : Option Json) : List Text :=
  ((placeShown? value).map (label ++ ·)).toList

def placeText (i : Item) : Text :=
  let parts := placeParts "line " i.line ++ placeParts "column " i.column
  if parts = [] then [] else " (" ++ Text.join ", " parts ++ ")"

def messageText? (i : Item) : Option Text :=
  match i.message with
  | some value => value.text?
  | none => some []

def shown (i : Item) : Except LineError Text :=
  match i.messageText? with
  | some message =>
    .ok ((if i.isError then "[ERROR]" else "[WARN]") ++ " " ++ message.strip ++ i.placeText)
  | none => .error .messageNotText

end BannedCalls.Item
