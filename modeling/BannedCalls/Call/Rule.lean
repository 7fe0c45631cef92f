import BannedCalls.Ban.List
import BannedCalls.Call.Finding
import BannedCalls.Call.Shape

/-!
# The ban rule

A call is reported once for every entry of the ban list that names its receiver and its member.
The report is about the callee, wrappers left aside.
-/

namespace BannedCalls.BanRule

def name : Text := "ban"

def messageStart : Text := "function invocation disallowed: "

/-- What the rule is, and which options it takes. -/
def metadata : Json :=
  .obj [
    ("name", .str name),
    ("description", .str "Bans the use of specific functions."),
    ("options", .obj [
      ("type", .str "list"),
      ("description",
        .str "Contains ['object', 'function'] pairs so that object.function() is banned."),
      ("list_type", .obj [
        ("type", .str "array"),
        ("array_members", .arr [
          .obj [("description", .str "Object to ban"), ("type", .str "string")],
          .obj [("description", .str "Method name to ban"), ("type", .str "string")]])])]),
    ("option_examples",
      .arr [.str "[true, [\"console\", \"log\"], [\"someObject\", \"someFunction\"]]"]),
    ("type", .str "readability")]

def finding (shape : CallShape) : Finding :=
  let extent := shape.callee.info.extent
  { start := extent.start
    width := extent.stop - extent.start
    message := messageStart ++ shape.receiver ++ "." ++ shape.member
    line := some extent.line
    column := some extent.column
    rule := name }

def findings (list : BanList) (call : Cursor) : List Finding :=
  match call.shape? with
  | none => []
  | some shape =>
    (list.entries.filter fun entry =>
      shape.receiver = entry.receiver ∧ shape.member = entry.member).map fun _ => finding shape

end BannedCalls.BanRule
