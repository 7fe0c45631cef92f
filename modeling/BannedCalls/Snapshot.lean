import BannedCalls.Clock
import BannedCalls.FrontEnd.Parsing
import BannedCalls.Json.Basic
import BannedCalls.Text.Utf8

/-!
# Snapshots

The surroundings of a run, recorded as a JSON object: files, directories and links, the units
that the front end makes of each path, the environment, the path of the system headers, and the
readings of the clock. What is missing, or of another form than expected, takes its default.
-/

namespace BannedCalls

namespace Json

def intOr (default : Int) : Option Json → Int
  | some value => value.integer?.getD default
  | none => default

def textOr (default : Text) : Option Json → Text
  | some value => value.text?.getD default
  | none => default

def items : Option Json → List Json
  | some (arr items) => items
  | _ => []

def membersOf : Option Json → List (Text × Json)
  | some (obj members) => members
  | _ => []

def texts (value : Option Json) : List Text := (items value).filterMap text?

/-- Whether a value is there and stands for something. -/
def isSet (value : Option Json) : Bool := value.any fun v => !v.isNothing

/-- A number as a double. -/
def float? : Json → Option Float
  | int n => some (Binary64.nearest (n < 0) n.natAbs 1)
  | real x => some x.toFloat
  | _ => none

end Json

namespace Snapshot

/-! ## Units -/

def tokenKinds : List (Text × TokenKind) :=
  [("IDENTIFIER", .identifier), ("KEYWORD", .keyword), ("LITERAL", .literal),
    ("PUNCTUATION", .punctuation), ("COMMENT", .comment)]

def token? : Json → Option Token
  | .arr [.str kind, .str spelling, .int offset] => do
    let (_, kind) ← tokenKinds.find? fun entry => entry.1 = kind
    return ⟨kind, spelling, offset⟩
  | _ => none

/-- A position in a table, where a negative one counts from the end. -/
def position (length : Nat) (i : Int) : Nat :=
  min length (if i < 0 then Int.ofNat length + i else i).toNat

def slice (tokens : List Token) : Option Json → List Token
  | some (.arr [.int first, .int stop]) =>
    let length := tokens.length
    (tokens.take (position length stop)).drop (position length first)
  | _ => []

/-- A file name as it stands; null is none, and a missing one is the default. -/
def fileOr (default : Option Text) : Option Json → Option Text
  | some (.str name) => some name
  | some _ => none
  | none => default

def location (file : Option Text) (members : List (Text × Json)) : Location where
  file := fileOr file (Json.lookup? "file" members)
  line := Json.intOr 0 (Json.lookup? "line" members)
  column := Json.intOr 0 (Json.lookup? "col" members)

def extent (place : Location) : Option Json → Extent
  | some (.arr [.int start, .int stop, .int line, .int column]) => ⟨start, stop, line, column⟩
  | _ => ⟨0, 0, place.line, place.column⟩

/-- The file and the tokens that the cursors of a unit refer to. -/
structure UnitTables where
  file : Option Text
  tokens : List Token

def info (tables : UnitTables) (members : List (Text × Json)) : CursorInfo :=
  let place := location tables.file members
  { kind := CursorKind.ofName (Json.textOr [] (Json.lookup? "kind" members))
    name := Json.textOr [] (Json.lookup? "name" members)
    location := place
    extent := extent place (Json.lookup? "span" members)
    tokens := slice tables.tokens (Json.lookup? "toks" members) }

mutual

def cursor (tables : UnitTables) : Json → Cursor
  | .obj members => .node (info tables members) (childrenIn tables members)
  | _ => .node (info tables []) []

def childrenIn (tables : UnitTables) : List (Text × Json) → List Cursor
  | [] => []
  | (name, value) :: rest => if name = "kids" then children tables value else childrenIn tables rest

def children (tables : UnitTables) : Json → List Cursor
  | .arr items => cursors tables items
  | _ => []

def cursors (tables : UnitTables) : List Json → List Cursor
  | [] => []
  | item :: rest => cursor tables item :: cursors tables rest

end

def diagnostic (value : Json) : Diagnostic :=
  let members := Json.membersOf value
  { level := Level.ofCode (Json.intOr 0 (Json.lookup? "severity" members))
    text := Json.textOr [] (Json.lookup? "text" members)
    location :=
      if Json.isSet (Json.lookup? "noloc" members) then none else some (location none members) }

def unit (value : Json) : SourceUnit :=
  let tables : UnitTables :=
    ⟨fileOr none (value.member? "file"), (Json.items (value.member? "tokens")).filterMap token?⟩
  { root := ((value.member? "cursor").filter fun c => !c.isNothing).map (cursor tables)
    diagnostics := (Json.items (value.member? "diags")).map diagnostic }

/-! ## Surroundings -/

def hexBytes : Text → List UInt8
  | high :: low :: rest =>
    match high.hexDigit?, low.hexDigit? with
    | some a, some b => UInt8.ofNat (16 * a.val + b.val) :: hexBytes rest
    | _, _ => []
  | _ => []

/-- A file is given by its text, or by its bytes in hexadecimal. -/
def contents : Json → List UInt8
  | .str t => Utf8.encode t
  | value => hexBytes (Json.textOr [] (value.member? "hex"))

def textMembers (value : Option Json) : List (Text × Text) :=
  (Json.membersOf value).filterMap fun (name, value) => value.text?.map (name, ·)

def sdk : Option Json → SdkProbe
  | some (.str output) => .printed output
  | some (.int status) => .failed status
  | _ => .missing

def workingDirectory : Text := "/work"

/-- A path of a unit is an empty file unless it is entered as another. Of two entries of one file
the later counts. -/
def fileSystem (value : Json) : FileSystem where
  files := ((Json.membersOf (value.member? "files")).map fun (path, file) =>
      (path, contents file)).reverse ++
    (Json.membersOf (value.member? "tus")).map fun (path, _) => (path, [])
  directories := Json.texts (value.member? "dirs")
  links := textMembers (value.member? "links")
  workingDirectory

def host (value : Json) : Host where
  fileSystem := fileSystem value
  units := (Json.membersOf (value.member? "tus")).map fun (path, source) => (path, unit source)
  sdk := sdk (value.member? "xcrun")
  environment := textMembers (value.member? "env")

def clock (value : Json) : Clock := ⟨(Json.items (value.member? "clock")).filterMap Json.float?⟩

end Snapshot

end BannedCalls
