import BannedCalls.Report.Hint
import BannedCalls.Report.Item
import BannedCalls.Source.Scope

/-!
# Items from diagnostics

Every compiler diagnostic that is not located in a foreign file becomes an item. An error among
them means that the tree cannot be relied on; one more item then says that the rules were not
applied, and points at the first line with an error.
-/

namespace BannedCalls

def Level.severity : Level → Text
  | warning => "warning"
  | error => "error"
  | fatal => "error"
  | _ => "info"

namespace Diagnostic

def toItem (d : Diagnostic) : Item :=
  let hint := Hint.ofMessage (d.text.flatMap Hint.lower)
  Item.advised d.level.severity "clang" none (d.location.map Location.line)
    (d.location.map Location.column) none d.text hint.suggestion hint.confidence

end Diagnostic

/-- A diagnostic in a named file belongs to the target only if that is its file, whatever name
the target has. -/
def Diagnostic.isAbout (d : Diagnostic) (fs : FileSystem) (target : Text) : Bool :=
  match d.location.bind Location.file with
  | some name => name = [] || fs.realPath name = target
  | none => true

namespace Report

def diagnosticItems (fs : FileSystem) (target : Text) (diagnostics : List Diagnostic) :
    List Item :=
  (diagnostics.filter fun d => d.isAbout fs target).map Diagnostic.toItem

def isBlocked (items : List Item) : Bool := items.any Item.isError

/-- The smallest line among the items that are errors and have one. -/
def firstErrorLine? (items : List Item) : Option Int :=
  ((items.filter Item.isError).filterMap Item.line?).min?

/-- A line may be given as any value; one that is no integer counts as none. -/
def limitedItem (line : Option Json) : Item where
  severity := .given "warning"
  source := .given "runtime"
  rule := .other .null
  line := some (match line with
    | some (.int n) => .int n
    | some (.bool b) => .bool b
    | _ => .null)
  column := some .null
  span := none
  message := some (.str ("Rule-based checks were limited because parser errors were found. " ++
    "Fix parser errors first, then run analysis again."))
  details := [
    ("suggestion", .str ("Resolve syntax/parse errors first; " ++
      "banned calls are only reported on code that parses.")),
    ("confidence", .real (.positional false 0 9 [7]))]

end Report

end BannedCalls
