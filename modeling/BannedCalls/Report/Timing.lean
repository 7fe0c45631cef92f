import BannedCalls.Json.Shown
import BannedCalls.Number.Written

/-!
# Timings

Durations in milliseconds. One that is negative or no number counts as zero, and all are rounded
to thousandths by their exact value, a half to the even neighbour.
-/

namespace BannedCalls

/-- An exact or a measured number of milliseconds. -/
inductive Duration
  | exact (n : Int)
  | measured (x : Float)

namespace Duration

def ofValue? : Json → Option Duration
  | .real x => some (measured x.toFloat)
  | value => value.integer?.map exact

/-- The nearest double, unless an exact number is beyond all of them. -/
def toFloat? : Duration → Option Float
  | exact n =>
    let x := Binary64.nearest (n < 0) n.natAbs 1
    if x.isFinite then some x else none
  | measured x => some x

/-- The sum is exact as long as both terms are. -/
def add? : Duration → Duration → Option Duration
  | exact a, exact b => some (exact (a + b))
  | a, b => do return measured ((← a.toFloat?) + (← b.toFloat?))

end Duration

/-- Why a value is no duration. -/
inductive DurationError
  | notNumber (typeName : Text)
  | notWritten (text : Text)
  | tooLarge

def DurationError.message : DurationError → Text
  | notNumber typeName =>
    "float() argument must be a string or a real number, not '" ++ typeName ++ "'"
  | notWritten text => "could not convert string to float: " ++ text.quoted
  | tooLarge => "int too large to convert to float"

namespace Timing

/-- The nearest thousandth. -/
def thousandths (x : Float) : Float :=
  match Binary64.ofFloat x with
  | .finite negative mantissa exponent =>
    let (num, den) := Binary64.unscale 2 mantissa 1 (-exponent)
    Binary64.nearest negative (roundHalfEven (1000 * num) den) 1000
  | _ => x

def rounded (x : Float) : Numeral := Numeral.ofFloat (thousandths (if 0 < x then x else 0))

end Timing

structure Timing where
  parse : Numeral
  traversal : Numeral
  interpretation : Numeral
  total : Numeral
  deriving DecidableEq, Repr

namespace Timing

/-- The rounded milliseconds that a value stands for: a number, or a text that is one written by
hand. -/
def ofValue (value : Json) : Except DurationError Numeral :=
  match value with
  | .real x => .ok (rounded x.toFloat)
  | .str t => (Written.real? t).elim (.error (.notWritten t)) fun x => .ok (rounded x)
  | _ =>
    match value.integer? with
    | some n => ((Duration.exact n).toFloat?).elim (.error .tooLarge) fun x => .ok (rounded x)
    | none => .error (.notNumber value.typeName)

def ofMilliseconds (parse traversal interpretation total : Float) : Timing :=
  { parse := rounded parse
    traversal := rounded traversal
    interpretation := rounded interpretation
    total := rounded total }

/-- The timing of three measured stages. -/
def ofStages (parse traversal interpretation : Float) : Timing :=
  ofMilliseconds parse traversal interpretation (parse + traversal + interpretation)

/-- Nothing if an exact duration is beyond all doubles. -/
def ofDurations? (parse traversal interpretation : Duration) : Option Timing := do
  let total ← (← parse.add? traversal).add? interpretation
  return ofMilliseconds (← parse.toFloat?) (← traversal.toFloat?) (← interpretation.toFloat?)
    (← total.toFloat?)

def toJson (t : Timing) : Json :=
  .obj [("parse", .real t.parse), ("traversal", .real t.traversal),
    ("interpretation", .real t.interpretation), ("total", .real t.total)]

def line (t : Timing) : Text :=
  "[timing] parse: " ++ t.parse.plain ++ " ms, traversal: " ++ t.traversal.plain ++
    " ms, interpretation: " ++ t.interpretation.plain ++ " ms, total: " ++ t.total.plain ++ " ms."

end Timing

end BannedCalls
