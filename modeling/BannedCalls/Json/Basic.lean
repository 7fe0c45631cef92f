import BannedCalls.Number.Numeral

/-!
# JSON values

Integers are unbounded and kept apart from real numbers; a real number is kept as its numeral.
The members of an object stand in the order in which their names first came up, and a name that
comes up again replaces the value where it stands.
-/

namespace BannedCalls

inductive Json
  | null
  | bool (value : Bool)
  | int (value : Int)
  | real (value : Numeral)
  | str (value : Text)
  | arr (items : List Json)
  | obj (members : List (Text × Json))

namespace Json

def insert (name : Text) (value : Json) : List (Text × Json) → List (Text × Json)
  | [] => [(name, value)]
  | (other, old) :: rest =>
    if other = name then (name, value) :: rest else (other, old) :: insert name value rest

def object (members : List (Text × Json)) : Json :=
  obj (members.foldl (fun known member => insert member.1 member.2 known) [])

def lookup? (name : Text) (members : List (Text × Json)) : Option Json :=
  (members.find? fun member => member.1 = name).map Prod.snd

def member? (name : Text) : Json → Option Json
  | obj members => lookup? name members
  | _ => none

@[simp] theorem lookup?_insert_self (name : Text) (value : Json) (members : List (Text × Json)) :
    lookup? name (insert name value members) = some value := by
  induction members with
  | nil => simp [insert, lookup?]
  | cons member rest ih =>
    obtain ⟨other, old⟩ := member
    by_cases h : other = name
    · simp [insert, lookup?, h]
    · simp only [lookup?] at ih
      simp [insert, lookup?, h, ih]

def text? : Json → Option Text
  | str t => some t
  | _ => none

/-- Values that stand for nothing at all. -/
def isNothing : Json → Bool
  | null => true
  | bool b => !b
  | int n => n = 0
  | real x => x.toFloat == 0
  | str t => t = []
  | arr items => items.isEmpty
  | obj members => members.isEmpty

/-- The integer that a value counts as: a truth value counts as one or zero. -/
def integer? : Json → Option Int
  | int n => some n
  | bool b => some (if b then 1 else 0)
  | _ => none

end Json

end BannedCalls
