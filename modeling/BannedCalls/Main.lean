import BannedCalls.CommandLine
import BannedCalls.Json.Reader
import BannedCalls.Snapshot

/-!
# The program

Runs the command line on the snapshot that is read from standard input.
-/

namespace BannedCalls

def Escape.describe : Escape → Text
  | isDirectory => "A configuration path names a directory."
  | notUtf8 => "A configuration file is not UTF-8."
  | analysis error => error.message
  | messageNotText => "A message is not a text."

end BannedCalls

open BannedCalls in
def main (args : List String) : IO UInt32 := do
  let input ← (← IO.getStdin).readToEnd
  match Json.read input with
  | .error e =>
    IO.eprintln e.message.toString
    return 1
  | .ok snapshot =>
    let outcome := CommandLine.run (Snapshot.host snapshot) (Snapshot.clock snapshot)
      (args.map Text.ofString)
    IO.print outcome.stdout.toString
    IO.eprint outcome.stderr.toString
    match outcome.exit with
    | .ok status => return status.toUInt32
    | .error e =>
      IO.eprintln e.describe.toString
      return 1
