import BannedCalls.Json.Basic
import BannedCalls.Number.Shortest
import BannedCalls.Text.Quoted

/-!
# Values in messages

The way a message shows a value: texts quoted, real numbers by their shortest numeral, and
`None`, `True` and `False` for the constants. A fixed group of values stands in round brackets.
-/

namespace BannedCalls

def boolShown (b : Bool) : Text := if b then "True" else "False"

namespace Json

mutual

def shown : Json → Text
  | null => "None"
  | bool b => boolShown b
  | int n => Text.ofInt n
  | real x => (Numeral.ofFloat x.toFloat).plain
  | str t => t.quoted
  | arr items => "[" ++ shownItems items ++ "]"
  | obj members => "\x7b" ++ shownMembers members ++ "\x7d"

def shownItems : List Json → Text
  | [] => []
  | [item] => shown item
  | item :: next :: rest => shown item ++ ", " ++ shownItems (next :: rest)

def shownMembers : List (Text × Json) → Text
  | [] => []
  | [(name, value)] => name.quoted ++ ": " ++ shown value
  | (name, value) :: next :: rest =>
    name.quoted ++ ": " ++ shown value ++ ", " ++ shownMembers (next :: rest)

end

/-- A group of one keeps a comma behind its member. -/
def shownGroup : List Json → Text
  | [item] => "(" ++ shown item ++ ",)"
  | items => "(" ++ shownItems items ++ ")"

def typeName : Json → Text
  | null => "NoneType"
  | bool _ => "bool"
  | int _ => "int"
  | real _ => "float"
  | str _ => "str"
  | arr _ => "list"
  | obj _ => "dict"

example : shown (arr [str "a", null, real (.scientific false 1 [] 16), bool true]) =
    "['a', None, 1e+16, True]" := by decide +kernel

end Json

end BannedCalls
