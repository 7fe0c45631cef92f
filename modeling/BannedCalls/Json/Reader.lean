import BannedCalls.Json.Basic
import BannedCalls.Number.Written

/-!
# Reading JSON

A document is one value with white space around it. Besides the standard grammar, the words
`NaN`, `Infinity` and `-Infinity` are numbers. A text between quotes may hold any code point from
U+0020 on; two escapes that name the halves of a surrogate pair stand for one code point.

A reader that cannot go on says what it missed and what was left of the document, from which
`Json.read` finds the place to report.
-/

namespace BannedCalls.Json

inductive Fault
  | value
  | name
  | colon
  | comma
  | unclosed
  | control
  | escape
  | unicodeEscape
  | extra
  | byteOrderMark
  deriving DecidableEq, Repr

def Fault.message : Fault → Text
  | .value => "Expecting value"
  | .name => "Expecting property name enclosed in double quotes"
  | .colon => "Expecting ':' delimiter"
  | .comma => "Expecting ',' delimiter"
  | .unclosed => "Unterminated string starting at"
  | .control => "Invalid control character at"
  | .escape => "Invalid \\escape"
  | .unicodeEscape => "Invalid \\uXXXX escape"
  | .extra => "Extra data"
  | .byteOrderMark => "Unexpected UTF-8 BOM (decode using utf-8-sig)"

/-- A fault, and the document from the place of the fault on. -/
structure Stop where
  fault : Fault
  rest : Text

abbrev Attempt := Except Stop

def isSpace (c : CodePoint) : Bool := c = ' ' || c = '\t' || c = '\n' || c = '\r'

def skip (t : Text) : Text := t.dropWhile isSpace

/-- What follows `c`, if the text starts with it. -/
def after? (c : CodePoint) : Text → Option Text
  | [] => none
  | d :: rest => if d = c then some rest else none

/-! ## Texts -/

def unescape? (c : CodePoint) : Option CodePoint :=
  if c = '\x22' then some '\x22'
  else if c = '\\' then some '\\'
  else if c = '/' then some '/'
  else if c = 'b' then some '\x08'
  else if c = 'f' then some '\x0C'
  else if c = 'n' then some '\n'
  else if c = 'r' then some '\r'
  else if c = 't' then some '\t'
  else none

/-- An escape under way: its start, and for a numbered one the digits read so far. -/
inductive Escape
  | none
  | opened (start : Text)
  | numbered (start : Text) (count value : Nat)

/-- The code points up to the closing quote. A numbered escape must have something behind it. -/
def readUnits (opening : Text) (escape : Escape) : Text → Attempt (Text × Text)
  | [] =>
    match escape with
    | .numbered start _ _ => .error ⟨.unicodeEscape, start⟩
    | _ => .error ⟨.unclosed, opening⟩
  | c :: rest =>
    match escape with
    | .none =>
      if c = '\x22' then .ok ([], rest)
      else if c = '\\' then readUnits opening (.opened (c :: rest)) rest
      else if c.val < 0x20 then .error ⟨.control, c :: rest⟩
      else do
        let (units, rest) ← readUnits opening .none rest
        return (c :: units, rest)
    | .opened start =>
      if c = 'u' then readUnits opening (.numbered (c :: rest) 0 0) rest
      else match unescape? c with
        | some unit => do
          let (units, rest) ← readUnits opening .none rest
          return (unit :: units, rest)
        | none => .error ⟨.escape, start⟩
    | .numbered start count value =>
      match c.hexDigit? with
      | none => .error ⟨.unicodeEscape, start⟩
      | some d =>
        if count < 3 then readUnits opening (.numbered start (count + 1) (16 * value + d.val)) rest
        else if rest = [] then .error ⟨.unicodeEscape, start⟩
        else do
          let (units, rest) ← readUnits opening .none rest
          return (Fin.ofNat _ (16 * value + d.val) :: units, rest)

/-- The halves of a surrogate pair become the code point that they name. -/
def joinPairs : Text → Text
  | high :: low :: rest =>
    if high.isHighSurrogate && low.isLowSurrogate then
      Fin.ofNat _ (0x10000 + (high.val - 0xD800) * 0x400 + (low.val - 0xDC00)) :: joinPairs rest
    else high :: joinPairs (low :: rest)
  | rest => rest

/-- The text whose opening quote is the first code point of `opening` and precedes `rest`. -/
def readText (opening rest : Text) : Attempt (Text × Text) := do
  let (units, rest) ← readUnits opening .none rest
  return (joinPairs units, rest)

/-! ## Numbers and words -/

def readWhole? : Text → Option (Nat × Text)
  | [] => none
  | c :: rest =>
    if c = '0' then some (0, rest)
    else match Written.digitRun (c :: rest) with
      | ([], _) => none
      | (digits, rest) => some (Numeral.natOfDigits digits, rest)

/-- A point counts only with a digit behind it. -/
def readFraction : Text → List (Fin 10) × Text
  | [] => ([], [])
  | c :: rest =>
    if c = '.' then
      match Written.digitRun rest with
      | ([], _) => ([], c :: rest)
      | found => found
    else ([], c :: rest)

/-- A power of ten counts only with a digit in it. -/
def readExponent : Text → Option Int × Text
  | [] => (none, [])
  | c :: rest =>
    if c = 'e' ∨ c = 'E' then
      let (negative, body) := Written.unsign rest
      match Written.digitRun body with
      | ([], _) => (none, c :: rest)
      | (digits, rest) => (some (Written.signed negative (Numeral.natOfDigits digits)), rest)
    else (none, c :: rest)

def number (negative : Bool) (whole : Nat) : List (Fin 10) → Option Int → Json
  | [], none => int (Written.signed negative whole)
  | tenths :: finer, none => real (.positional negative whole tenths finer)
  | fraction, some exponent => real (.scientific negative whole fraction exponent)

/-- The longest number at the front of a text. -/
def readNumber? (t : Text) : Option (Json × Text) := do
  let (negative, body) := match after? '-' t with
    | some rest => (true, rest)
    | none => (false, t)
  let (whole, rest) ← readWhole? body
  let (fraction, rest) := readFraction rest
  let (exponent, rest) := readExponent rest
  return (number negative whole fraction exponent, rest)

def words : List (Text × Json) :=
  [("null", null), ("true", bool true), ("false", bool false), ("NaN", real .nan),
    ("Infinity", real (.infinite false)), ("-Infinity", real (.infinite true))]

def readWord? (t : Text) : Option (Json × Text) :=
  words.findSome? fun (word, value) =>
    if word.isPrefixOf t then some (value, t.drop word.length) else none

/-! ## Values -/

mutual

/-- Every call hands on one unit of fuel less; two for each code point are enough. -/
def readValue : Nat → Text → Attempt (Json × Text)
  | 0, t => .error ⟨.value, t⟩
  | fuel + 1, t =>
    match after? '\x22' t with
    | some rest => do
      let (text, rest) ← readText t rest
      return (str text, rest)
    | none =>
    match after? '[' t with
    | some rest =>
      match after? ']' (skip rest) with
      | some rest => .ok (arr [], rest)
      | none => do
        let (items, rest) ← readItems fuel (skip rest)
        return (arr items, rest)
    | none =>
    match after? '\x7b' t with
    | some rest =>
      match after? '\x7d' (skip rest) with
      | some rest => .ok (obj [], rest)
      | none => do
        let (members, rest) ← readMembers fuel (skip rest)
        return (object members, rest)
    | none =>
    match (readWord? t).or (readNumber? t) with
    | some found => .ok found
    | none => .error ⟨.value, t⟩

def readItems : Nat → Text → Attempt (List Json × Text)
  | 0, t => .error ⟨.value, t⟩
  | fuel + 1, t => do
    let (item, rest) ← readValue fuel t
    let rest := skip rest
    match after? ',' rest with
    | some rest => do
      let (items, rest) ← readItems fuel (skip rest)
      return (item :: items, rest)
    | none =>
    match after? ']' rest with
    | some rest => .ok ([item], rest)
    | none => .error ⟨.comma, rest⟩

def readMembers : Nat → Text → Attempt (List (Text × Json) × Text)
  | 0, t => .error ⟨.name, t⟩
  | fuel + 1, t =>
    match after? '\x22' t with
    | none => .error ⟨.name, t⟩
    | some rest => do
      let (name, rest) ← readText t rest
      let rest := skip rest
      match after? ':' rest with
      | none => .error ⟨.colon, rest⟩
      | some rest => do
        let (value, rest) ← readValue fuel (skip rest)
        let rest := skip rest
        match after? ',' rest with
        | some rest => do
          let (members, rest) ← readMembers fuel (skip rest)
          return ((name, value) :: members, rest)
        | none =>
        match after? '\x7d' rest with
        | some rest => .ok ([(name, value)], rest)
        | none => .error ⟨.comma, rest⟩

end

def readDocument (t : Text) : Attempt Json := do
  if t.head? = some 0xFEFF then .error ⟨.byteOrderMark, t⟩
  let (value, rest) ← readValue (2 * t.length + 2) (skip t)
  let rest := skip rest
  if rest = [] then return value else .error ⟨.extra, rest⟩

/-! ## Places -/

/-- A fault at `position` code points from the start; lines and columns count from one. -/
structure ReadError where
  fault : Fault
  position : Nat
  line : Nat
  column : Nat
  deriving DecidableEq, Repr

def Stop.place (document : Text) (stop : Stop) : ReadError :=
  let position := document.length - stop.rest.length
  let before := document.take position
  { fault := stop.fault
    position
    line := before.count (CodePoint.ofChar '\n') + 1
    column := (before.reverse.takeWhile (· ≠ CodePoint.ofChar '\n')).length + 1 }

def ReadError.message (e : ReadError) : Text :=
  e.fault.message ++ ": line " ++ Text.ofNat e.line ++ " column " ++ Text.ofNat e.column ++
    " (char " ++ Text.ofNat e.position ++ ")"

def read (t : Text) : Except ReadError Json := (readDocument t).mapError (Stop.place t)

end BannedCalls.Json
