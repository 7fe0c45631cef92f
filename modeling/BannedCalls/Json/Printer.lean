import BannedCalls.Json.Basic

/-!
# Printed JSON

One line of ASCII characters: a comma and a colon are followed by a space, and what is not
between the space and the tilde is escaped by UTF-16 code units in lower-case hexadecimal.
-/

namespace BannedCalls

/-- The UTF-16 code units of a code point. -/
def CodePoint.units (c : CodePoint) : List Nat :=
  if c.val < 0x10000 then [c.val]
  else [0xD800 + (c.val - 0x10000) / 0x400, 0xDC00 + (c.val - 0x10000) % 0x400]

namespace Json

def escapeUnit (n : Nat) : Text := "\\u" ++ Text.hexDigits 4 n

def escape (c : CodePoint) : Text :=
  if c = '\x22' then "\\\""
  else if c = '\\' then "\\\\"
  else if c = '\n' then "\\n"
  else if c = '\r' then "\\r"
  else if c = '\t' then "\\t"
  else if c.val = 0x08 then "\\b"
  else if c.val = 0x0C then "\\f"
  else if 0x20 ≤ c.val ∧ c.val ≤ 0x7E then [c]
  else c.units.flatMap escapeUnit

def printText (t : Text) : Text := "\"" ++ t.flatMap escape ++ "\""

mutual

def print : Json → Text
  | null => "null"
  | bool b => if b then "true" else "false"
  | int n => Text.ofInt n
  | real x => x.write "Infinity" "NaN"
  | str t => printText t
  | arr items => "[" ++ printItems items ++ "]"
  | obj members => "\x7b" ++ printMembers members ++ "\x7d"

def printItems : List Json → Text
  | [] => []
  | [item] => print item
  | item :: next :: rest => print item ++ ", " ++ printItems (next :: rest)

def printMembers : List (Text × Json) → Text
  | [] => []
  | [(name, value)] => printText name ++ ": " ++ print value
  | (name, value) :: next :: rest =>
    printText name ++ ": " ++ print value ++ ", " ++ printMembers (next :: rest)

end

example : print (arr [str "é😀\x7F", obj [("a", int (-1)), ("b", arr [])]]) =
    "[\"\\u00e9\\ud83d\\ude00\\u007f\", \x7b\"a\": -1, \"b\": []\x7d]" := by decide +kernel

end Json

end BannedCalls
