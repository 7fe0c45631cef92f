import BannedCalls.FileSystem.Basic
import BannedCalls.Source.Cursor
import BannedCalls.Text.Blank

/-!
# Parsing sources

Sources are parsed by a front end that is asked with a path and its arguments. What it makes of
each path is given, and so is what the program says that knows the path of the system headers.
Every request is recorded, answered or not.
-/

namespace BannedCalls

/-- What became of asking for the path of the system headers. -/
inductive SdkProbe
  | missing
  | failed (status : Int)
  | printed (output : Text)

structure ParseCall where
  path : Text
  arguments : List Text
  /-- Sources held in memory, by the names of their buffers. -/
  buffers : Option (List (Text × Text))
  deriving DecidableEq, Repr

/-- The front end is to keep a record of preprocessing. -/
def ParseCall.options : Int := 1

inductive ParseError
  | fileMissing (path : Text)
  | notFile (path : Text)
  | refused (path : Text)
  deriving DecidableEq, Repr

def ParseError.message : ParseError → Text
  | fileMissing path => "Input file does not exist: " ++ path
  | notFile path => "Input path is not a file: " ++ path
  | refused path =>
    "Could not parse '" ++ Path.baseName path ++ "'. " ++
      "This usually means severe syntax errors or missing C++ headers/toolchain paths. " ++
      "Try: clang++ -std=gnu++17 -fsyntax-only <file> to see compiler diagnostics."

def defaultArguments : List Text := ["-x", "c++", "-std=gnu++17"]

/-- Where the headers are, if the program was found, succeeded, and printed more than blanks. -/
def SdkProbe.arguments : SdkProbe → List Text
  | printed output =>
    let path := output.strip
    if path = [] then []
    else ["-isysroot", path, "-I", Path.join path "usr/include/c++/v1"]
  | _ => []

/-- The surroundings of a run. -/
structure Host where
  fileSystem : FileSystem
  units : List (Text × SourceUnit)
  sdk : SdkProbe
  environment : List (Text × Text)

/-- A result, and the requests made for it. -/
structure Parsing where
  result : Except ParseError SourceUnit
  calls : List ParseCall

namespace Host

def unit? (host : Host) (path : Text) : Option SourceUnit :=
  (host.units.find? fun entry => entry.1 = path).map Prod.snd

def request (host : Host) (path : Text) (extra : List Text)
    (buffers : Option (List (Text × Text))) : Parsing where
  result := (host.unit? path).elim (.error (.refused path)) .ok
  calls := [⟨path, defaultArguments ++ host.sdk.arguments ++ extra, buffers⟩]

def parseFile (host : Host) (path : Text) (extra : List Text) : Parsing :=
  if !host.fileSystem.exists? path then ⟨.error (.fileMissing path), []⟩
  else if !host.fileSystem.isFile path then ⟨.error (.notFile path), []⟩
  else host.request path extra none

/-- Parses a source held in memory; the path only names its buffer. -/
def parseSource (host : Host) (source path : Text) (extra : List Text) : Parsing :=
  host.request path extra (some [(path, source)])

end Host

end BannedCalls
