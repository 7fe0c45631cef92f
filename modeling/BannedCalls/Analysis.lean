import BannedCalls.Clock
import BannedCalls.Engine
import BannedCalls.FrontEnd.Parsing
import BannedCalls.Report.Diagnostics
import BannedCalls.Report.Order
import BannedCalls.Report.Summary
import BannedCalls.Report.Timing

/-!
# Analysis of a file

A file is parsed, walked, and checked by an engine of its own. A file that cannot be parsed has a
report of one item. Where a diagnostic is an error the engine is not asked. There is no report
where the front end gave no tree to walk, or where the engine refuses a pair.

An analysis also tells what it did on the way: the trace of the walk, the requests to the front
end, and how often it read the clock.
-/

namespace BannedCalls

structure FileReport where
  file : Text
  path : Text
  /-- Why the file could not be parsed. -/
  error : Option Text
  findings : List Text
  items : List Item
  summary : Summary
  timing : Timing

namespace FileReport

def ok (r : FileReport) : Bool := r.error.isNone

def toJson (r : FileReport) : Json :=
  .obj [("file", .str r.file), ("path", .str r.path), ("ok", .bool r.ok),
    ("error", r.error.elim .null .str), ("findings", .arr (r.findings.map .str)),
    ("items", .arr (r.items.map Item.toJson)), ("summary", r.summary.toJson),
    ("timing_ms", r.timing.toJson)]

end FileReport

inductive AnalysisError
  | noTree
  | pair (error : PairError)

def AnalysisError.message : AnalysisError → Text
  | noTree => "A source has no tree."
  | pair error => error.message

structure Analysis where
  report : Except AnalysisError FileReport
  trace : Text
  calls : List ParseCall
  readings : Nat

namespace Analysis

def failureText (path : Text) (e : ParseError) : Text :=
  "Failed to parse " ++ Path.baseName path ++ ": " ++ e.message

def failureItem (message : Text) : Item :=
  Item.advised "error" "runtime" none none none none message
    ("Check that the file exists, then run " ++
      "clang++ -std=gnu++17 -fsyntax-only <file> for detailed syntax diagnostics.")
    (.positional false 1 0 [])

def failureReport (host : Host) (clock : Clock) (path : Text) (e : ParseError) : FileReport :=
  let message := failureText path e
  { file := Path.baseName path
    path := host.fileSystem.realPath path
    error := some message
    findings := []
    items := [failureItem message]
    summary := { error := 1, warning := 0, info := 0, byRule := [] }
    timing := Timing.ofStages (clock.elapsed 1) 0 0 }

/-- The items of a file: what the front end said, what the rule found, and the warning that the
rule was not asked. -/
def gather (diagnostics : List Item) (findings : List Finding) : List Item :=
  diagnostics ++ findings.map Finding.toItem ++
    if Report.isBlocked diagnostics then
      [Report.limitedItem ((Report.firstErrorLine? diagnostics).map .int)]
    else []

def successReport (host : Host) (path : Text) (diagnostics : List Item) (findings : List Finding)
    (timing : Timing) : FileReport :=
  let items := Report.sort (gather diagnostics findings)
  { file := Path.baseName path
    path := host.fileSystem.realPath path
    error := none
    findings := findings.map Finding.message
    items
    summary := Summary.ofItems items
    timing }

/-- The analysis of a file whose tree is `root`. -/
def ofTree (host : Host) (offers : List Offer) (traced : Bool) (clock : Clock) (path : Text)
    (root : Cursor) (unit : SourceUnit) (calls : List ParseCall) : Analysis :=
  let target := host.fileSystem.realPath path
  let nodes := Scope.nodes ⟨host.fileSystem, some target⟩ root
  let trace := if traced then nodes.flatMap Node.trace else []
  let diagnostics := Report.diagnosticItems host.fileSystem target unit.diagnostics
  let timing := Timing.ofStages (clock.elapsed 1) ((clock.advance 2).elapsed 1)
  if Report.isBlocked diagnostics then
    { report := .ok (successReport host path diagnostics [] (timing 0))
      trace, calls, readings := 4 }
  else
    match BanList.ofOffers offers with
    | .error e => { report := .error (.pair e), trace, calls, readings := 5 }
    | .ok list =>
      { report := .ok (successReport host path diagnostics (list.engine.run nodes)
          (timing ((clock.advance 4).elapsed 1)))
        trace, calls, readings := 6 }

/-- The analysis of a file that the front end could parse. -/
def ofUnit (host : Host) (offers : List Offer) (traced : Bool) (clock : Clock) (path : Text)
    (unit : SourceUnit) (calls : List ParseCall) : Analysis :=
  match unit.root with
  | none => { report := .error .noTree, trace := [], calls, readings := 3 }
  | some root => ofTree host offers traced clock path root unit calls

end Analysis

/-- The analysis of the file at `path`, begun at the first reading of the clock. -/
def analyze (host : Host) (offers : List Offer) (traced : Bool) (clock : Clock) (path : Text) :
    Analysis :=
  let parsing := host.parseFile path []
  match parsing.result with
  | .error e =>
    { report := .ok (Analysis.failureReport host clock path e)
      trace := []
      calls := parsing.calls
      readings := 2 }
  | .ok unit => Analysis.ofUnit host offers traced clock path unit parsing.calls

end BannedCalls
