import BannedCalls.Call.Shape
import BannedCalls.FrontEnd.Parsing
import BannedCalls.Number.Written
import BannedCalls.Source.Walk
import BannedCalls.Text.Quoted

/-!
# Call dumps

One line for every call of a source: where it is, the tokens of its first child, the receiver and
the member that the ban rule compares, or a dash, and the kinds of the cursors around it. Two line
numbers restrict the dump to the calls between them.
-/

namespace BannedCalls.CallDump

def calleeText (call : Cursor) : Text :=
  match call.children with
  | [] => []
  | first :: _ => Text.join " " (first.info.tokens.map Token.spelling)

def shapeText (call : Cursor) : Text :=
  match call.shape? with
  | some shape => shape.receiver ++ "." ++ shape.member
  | none => "-"

/-- The kinds of the three nearest ancestors. -/
def ancestorText (n : Node) : Text :=
  Text.join " -> " ((n.ancestors.take 3).map fun info => info.kind.shown)

def line (n : Node) : Text :=
  "line=" ++ Text.ofInt n.info.location.line ++ " column=" ++ Text.ofInt n.info.location.column ++
    " name=" ++ n.info.name ++ " callee=" ++ calleeText n.cursor ++
    " shape=" ++ shapeText n.cursor ++ " parents=" ++ ancestorText n

/-- Only both bounds together restrict anything. -/
def isWithin (first last : Option Int) (line : Int) : Bool :=
  match first, last with
  | some first, some last => first ≤ line && line ≤ last
  | _, _ => true

def lines (nodes : List Node) (first last : Option Int) : List Text :=
  (nodes.filter fun n =>
    n.info.kind = .callExpr && isWithin first last n.info.location.line).map line

inductive DumpError
  | usage
  | notInteger (argument : Text)
  | parse (error : ParseError)
  | noTree
  deriving DecidableEq, Repr

def usageText : Text := "Usage: python3 debug_dump.py <file> [line_start] [line_end]\n"

/-- A message shows the first two hundred code points of a quoted argument. -/
def DumpError.message : DumpError → Text
  | usage => usageText
  | notInteger argument =>
    "invalid literal for int() with base 10: " ++ argument.quoted.take 200
  | parse error => error.message
  | noTree => "The source has no tree."

/-- The exit status of a dump that was called without a file. -/
def usageStatus : Nat := 1

structure Outcome where
  exit : Except DumpError Unit
  stdout : Text

def bound (argument : Option Text) : Except DumpError (Option Int) :=
  match argument with
  | none => .ok none
  | some text => (Written.int? text).elim (.error (.notInteger text)) fun n => .ok (some n)

def dump (host : Host) (path : Text) (arguments : List Text) : Except DumpError (List Text) := do
  let first ← bound arguments[0]?
  let last ← bound arguments[1]?
  let unit ← (host.parseFile path []).result.mapError .parse
  let some root := unit.root | .error .noTree
  return lines root.nodes first last

def run (host : Host) (args : List Text) : Outcome :=
  match args with
  | [] => ⟨.error .usage, DumpError.usage.message⟩
  | path :: arguments =>
    match dump host path arguments with
    | .ok lines => ⟨.ok (), lines.flatMap (· ++ "\n")⟩
    | .error e => ⟨.error e, []⟩

end BannedCalls.CallDump
