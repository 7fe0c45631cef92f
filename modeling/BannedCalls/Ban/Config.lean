import BannedCalls.Ban.List
import BannedCalls.FileSystem.Basic
import BannedCalls.Json.Reader
import BannedCalls.Text.Utf8

/-!
# Ban configurations

Banned pairs come from a JSON file or from the command line. A file holds a list of pairs, or an
object with such a list as its `ban` member; a truth value in front of the pairs switches the
list on or off. The command line writes a pair with a dot and separates pairs with commas. In
both forms blanks around a name do not belong to it, and a name must not be blank.
-/

namespace BannedCalls

inductive ConfigError
  | notPair (entry : Json)
  | blankName (entry : Json)
  | notList
  | notDotted (part : Text)
  | noEntries
  | fileMissing (path : Text)
  | notJson (path : Text) (error : Json.ReadError)
  | noBanMember (path : Text)
  | noConfigValue
  | noBanValue

def ConfigError.message : ConfigError → Text
  | notPair entry => "Each ban entry must be an ['object', 'function'] pair, got " ++ entry.shown
  | blankName entry => "Ban entry names must be non-empty strings, got " ++ entry.shown
  | notList => "Ban options must be a list of ['object', 'function'] pairs"
  | notDotted part =>
    "Invalid ban entry '" ++ part ++ "' (expected object.function with exactly one dot)"
  | noEntries => "Expected at least one object.function entry after --ban"
  | fileMissing path => "Config file not found: " ++ Path.shown path
  | notJson path error =>
    "Config file is not valid JSON: " ++ Path.shown path ++ " (" ++ error.message ++ ")"
  | noBanMember path => "Config object in " ++ Path.shown path ++ " has no 'ban' key"
  | noConfigValue => "Missing value after --config (expected a JSON file path)."
  | noBanValue => "Missing value after --ban (expected comma-separated object.function names)."

namespace BanConfig

def pairOfEntry (entry : Json) : Except ConfigError BannedPair :=
  match entry with
  | .arr [receiver, member] =>
    match receiver, member with
    | .str r, .str m =>
      if r.isBlank || m.isBlank then .error (.blankName entry) else .ok ⟨r.strip, m.strip⟩
    | _, _ => .error (.blankName entry)
  | _ => .error (.notPair entry)

def pairsOfOptions : Json → Except ConfigError (List BannedPair)
  | .arr (.bool false :: _) => .ok []
  | .arr (.bool true :: entries) => entries.mapM pairOfEntry
  | .arr entries => entries.mapM pairOfEntry
  | _ => .error .notList

def pairOfPart (part : Text) : Except ConfigError BannedPair :=
  match Text.splitOn '.' part with
  | [receiver, member] => pairOfEntry (.arr [.str receiver, .str member])
  | _ => .error (.notDotted part)

/-- The parts between commas, stripped; blank ones are left out. -/
def partsOfArgument (argument : Text) : List Text :=
  ((Text.splitOn ',' argument).map Text.strip).filter (· ≠ [])

def pairsOfArgument (argument : Text) : Except ConfigError (List BannedPair) := do
  match ← (partsOfArgument argument).mapM pairOfPart with
  | [] => .error .noEntries
  | pairs => .ok pairs

/-- What can go wrong with a configuration file; the last two are no fault of its contents as
JSON and are not reported as one. -/
inductive LoadError
  | config (error : ConfigError)
  | isDirectory
  | notUtf8

def pairsOfDocument (path : Text) : Json → Except ConfigError (List BannedPair)
  | .obj members =>
    match Json.lookup? "ban" members with
    | some options => pairsOfOptions options
    | none => .error (.noBanMember path)
  | options => pairsOfOptions options

def pairsOfFile (path : Text) (bytes : List UInt8) : Except LoadError (List BannedPair) := do
  let some text := Utf8.decode bytes | .error .notUtf8
  match Json.read text.unifyNewlines with
  | .error e => .error (.config (.notJson path e))
  | .ok document => (pairsOfDocument path document).mapError .config

/-- A configuration is looked up by the path that its messages show, so an empty path names the
working directory. -/
def load (fs : FileSystem) (path : Text) : Except LoadError (List BannedPair) :=
  let path := Path.shown path
  match fs.contents? path with
  | some bytes => pairsOfFile path bytes
  | none => .error (if fs.isDirectory path then .isDirectory else .config (.fileMissing path))

end BanConfig

end BannedCalls
