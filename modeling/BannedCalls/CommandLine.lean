import BannedCalls.Analysis
import BannedCalls.Ban.Config
import BannedCalls.Json.Printer
import BannedCalls.Report.Line

/-!
# The command line

The arguments are files and four options, which may stand anywhere: `--text`, `--debug`, and
`--config` and `--ban` with a value each. Options are taken out in that order of kinds, so one
of them can be the value of a later kind but not of an earlier one.

All files are checked for the pairs of the configurations, followed by those of the ban values.
The outcome is a line of JSON, or text with the errors and warnings of every file. A fault in the
options ends the run before any file is looked at.
-/

namespace BannedCalls

namespace Arguments

/-- Takes out the first `flag` with the argument behind it, as long as there is one. A flag in
last place has no value. -/
def takeOption (flag : Text) (args : List Text) : List (Option Text) × List Text :=
  let before := args.takeWhile (· ≠ flag)
  match _h : args.dropWhile (· ≠ flag) with
  | [] => ([], args)
  | [_] => ([none], before)
  | _ :: value :: after =>
    let (values, rest) := takeOption flag (before ++ after)
    (some value :: values, rest)
termination_by args.length
decreasing_by
  have hl := congrArg List.length (List.takeWhile_append_dropWhile (p := (· ≠ flag)) (l := args))
  simp only [_h, List.length_append, List.length_cons] at hl ⊢
  omega

end Arguments

/-- The arguments sorted out; a value that is missing is none. -/
structure Settings where
  text : Bool
  traced : Bool
  configs : List (Option Text)
  bans : List (Option Text)
  files : List Text
  deriving DecidableEq, Repr

namespace Settings

def without (flag : Text) (args : List Text) : List Text := args.filter (· ≠ flag)

def ofArguments (args : List Text) : Settings :=
  let untexted := without "--text" args
  let (configs, rest) := Arguments.takeOption "--config" (without "--debug" untexted)
  let (bans, files) := Arguments.takeOption "--ban" rest
  { text := args.contains "--text"
    traced := untexted.contains "--debug"
    configs, bans, files }

def configPairs (fs : FileSystem) : Option Text → Except BanConfig.LoadError (List BannedPair)
  | none => .error (.config .noConfigValue)
  | some path => BanConfig.load fs path

def banPairs : Option Text → Except BanConfig.LoadError (List BannedPair)
  | none => .error (.config .noBanValue)
  | some argument => (BanConfig.pairsOfArgument argument).mapError .config

/-- The pairs of all configurations, then those of all ban values; the first fault counts. -/
def pairs (s : Settings) (fs : FileSystem) : Except BanConfig.LoadError (List BannedPair) := do
  let ofConfigs ← s.configs.mapM (configPairs fs)
  let ofBans ← s.bans.mapM banPairs
  return ofConfigs.flatten ++ ofBans.flatten

end Settings

/-- A failure that ends the program without an exit status. -/
inductive Escape
  | isDirectory
  | notUtf8
  | analysis (error : AnalysisError)
  | messageNotText

inductive UsageError
  | config (error : ConfigError)
  | noFiles

def UsageError.message : UsageError → Text
  | config error => error.message
  | noFiles => "No files provided."

/-- What a run of the program leaves behind. -/
structure Outcome where
  exit : Except Escape Nat
  stdout : Text
  stderr : Text
  calls : List ParseCall
  readings : Nat

/-- The analyses of the files in turn, up to the first that fails. -/
structure Batch where
  reports : List FileReport
  failure : Option AnalysisError
  trace : Text
  calls : List ParseCall
  readings : Nat

namespace Batch

def run (host : Host) (offers : List Offer) (traced : Bool) (clock : Clock) : List Text → Batch
  | [] => { reports := [], failure := none, trace := [], calls := [], readings := 0 }
  | path :: rest =>
    let first := analyze host offers traced clock path
    match first.report with
    | .error e =>
      { reports := [], failure := some e, trace := first.trace, calls := first.calls
        readings := first.readings }
    | .ok report =>
      let others := run host offers traced (clock.advance first.readings) rest
      { reports := report :: others.reports
        failure := others.failure
        trace := first.trace ++ others.trace
        calls := first.calls ++ others.calls
        readings := first.readings + others.readings }

end Batch

namespace CommandLine

/-- Prints lines up to the first that fails. -/
def printLines : List (Except Escape Text) → Text × Option Escape
  | [] => ([], none)
  | .ok line :: rest =>
    let (text, failure) := printLines rest
    (line ++ "\n" ++ text, failure)
  | .error e :: _ => ([], some e)

def itemLines (r : FileReport) : List (Except Escape Text) :=
  (r.items.filter fun i => i.isError || i.isWarning).map fun i =>
    i.shown.mapError fun _ => .messageNotText

/-- The lines of one report among `count`; a blank line parts it from the next one. -/
def reportLines (count : Nat) (isLast : Bool) (r : FileReport) : List (Except Escape Text) :=
  (if count > 1 then [.ok ("=== " ++ r.file ++ " ===")] else []) ++ itemLines r ++
    [.ok r.timing.line] ++ if isLast then [] else [.ok []]

/-- The lines of the reports on the last of `count` files; `left` files follow the first report. -/
def allLines (count : Nat) : Nat → List FileReport → List (Except Escape Text)
  | _, [] => []
  | left, r :: rest => reportLines count (left == 0) r ++ allLines count (left - 1) rest

def usagePayload (e : UsageError) : Json :=
  .obj [("ok", .bool false), ("error", .str e.message)]

def payload (reports : List FileReport) (total : Numeral) (pairs : List BannedPair) : Json :=
  .obj [("ok", .bool true), ("results", .arr (reports.map FileReport.toJson)),
    ("timing_ms", .obj [("total", .real total)]), ("ban", .arr (pairs.map BannedPair.toJson))]

def usageOutcome (text : Bool) (e : UsageError) : Outcome where
  exit := .ok 2
  stdout := (if text then e.message else (usagePayload e).print) ++ "\n"
  stderr := []
  calls := []
  readings := 0

def escapeOutcome (e : Escape) : Outcome := ⟨.error e, [], [], [], 0⟩

/-- The time from the first reading to the one after `readings` more. -/
def totalTime (clock : Clock) (readings : Nat) : Numeral :=
  Timing.rounded (clock.elapsed (1 + readings))

def textOutcome (count : Nat) (batch : Batch) : Outcome :=
  let lines := allLines count (count - 1) batch.reports ++
    (batch.failure.map fun e => .error (.analysis e)).toList
  let (text, failure) := printLines lines
  { exit := failure.elim (.ok 0) .error
    stdout := text
    stderr := batch.trace
    calls := batch.calls
    readings := 1 + batch.readings }

def jsonOutcome (clock : Clock) (pairs : List BannedPair) (batch : Batch) : Outcome :=
  match batch.failure with
  | some e =>
    { exit := .error (.analysis e), stdout := [], stderr := batch.trace, calls := batch.calls
      readings := 1 + batch.readings }
  | none =>
    { exit := .ok 0
      stdout := (payload batch.reports (totalTime clock batch.readings) pairs).print ++ "\n"
      stderr := batch.trace
      calls := batch.calls
      readings := 2 + batch.readings }

def runFiles (host : Host) (clock : Clock) (s : Settings) (pairs : List BannedPair) : Outcome :=
  let batch := Batch.run host (pairs.map BannedPair.offer) s.traced clock.next s.files
  if s.text then textOutcome s.files.length batch else jsonOutcome clock pairs batch

def run (host : Host) (clock : Clock) (args : List Text) : Outcome :=
  let s := Settings.ofArguments args
  match s.pairs host.fileSystem with
  | .error (.config e) => usageOutcome s.text (.config e)
  | .error .isDirectory => escapeOutcome .isDirectory
  | .error .notUtf8 => escapeOutcome .notUtf8
  | .ok pairs =>
    if s.files = [] then usageOutcome s.text .noFiles else runFiles host clock s pairs

end CommandLine

end BannedCalls
