import BannedCalls.Number.Numeral

/-!
# Shortest numerals

A double is written with the fewest digits that read back as that double, and among those with
the ones nearest to it. The point is written where the number lies between a ten-thousandth and
10 ^ 16; outside, a power of ten is.
-/

namespace BannedCalls.Shortest

/-- The open or closed range of numbers that round to a double, as fractions with the common
denominator `den`; the ends belong to it when `closed`. -/
structure Interval where
  low : Nat
  value : Nat
  high : Nat
  den : Nat
  closed : Bool

/-- The range halves the steps to both neighbours; the lower step is half as wide at a power of
two. -/
def interval (mantissa : Nat) (exponent : Int) : Interval :=
  let narrow := mantissa == Nat.pow 2 52 && exponent != -1074
  let scale := Nat.pow 2 (exponent - 2).toNat
  { low := (4 * mantissa - (if narrow then 1 else 2)) * scale
    value := 4 * mantissa * scale
    high := (4 * mantissa + 2) * scale
    den := Nat.pow 2 (2 - exponent).toNat
    closed := mantissa % 2 == 0 }

def Interval.holds (i : Interval) (num den : Nat) : Bool :=
  let (x, low, high) := (num * i.den, i.low * den, i.high * den)
  if i.closed then low ≤ x && x ≤ high else low < x && x < high

/-- The multiple of `10 ^ place` in the range that is nearest to the value, if there is one: a
multiple in the range implies that a neighbour of the value is there too. -/
def Interval.multiple? (i : Interval) (place : Int) : Option Nat :=
  let (num, den) := Binary64.unscale 10 i.value i.den place
  let below := num / den
  let near := roundHalfEven num den
  let far := if near = below then below + 1 else below
  let inside (n : Nat) : Bool :=
    let scale := Nat.pow 10 place.natAbs
    if place < 0 then i.holds n scale else i.holds (n * scale) 1
  if inside near then some near else if inside far then some far else none

/-- Digits and the place of the last one: the coarsest place that has a multiple in the range. -/
def digits (mantissa : Nat) (exponent : Int) : Nat × Int :=
  let i := interval mantissa exponent
  let top : Int := (Text.decimalDigits (i.value / i.den)).length
  let found := (List.range 400).findSome? fun (k : Nat) =>
    (i.multiple? (top - k)).map fun n => (n, top - Int.ofNat k)
  found.getD (0, 0)

/-- Where the point goes: `0.d…` for a count of digits before it that is not positive. -/
def layout (negative : Bool) (digits : List (Fin 10)) (place : Int) : Numeral :=
  let before := Int.ofNat digits.length + place
  if -4 < before ∧ before ≤ 16 then
    let padded := List.replicate (1 - before).toNat 0 ++ digits ++ List.replicate place.toNat 0
    let (whole, fraction) := padded.splitAt (max 1 before.toNat)
    match fraction with
    | [] => .positional negative (Numeral.natOfDigits whole) 0 []
    | tenths :: finer => .positional negative (Numeral.natOfDigits whole) tenths finer
  else .scientific negative (digits.headD 0).val digits.tail (before - 1)

end BannedCalls.Shortest

namespace BannedCalls

def Numeral.ofFloat (x : Float) : Numeral :=
  match Binary64.ofFloat x with
  | .finite negative 0 _ => .positional negative 0 0 []
  | .finite negative mantissa exponent =>
    let (n, place) := Shortest.digits mantissa exponent
    Shortest.layout negative (Text.decimalDigits n) place
  | .infinite negative => .infinite negative
  | .nan => .nan

end BannedCalls
