/-!
# Doubles as exact numbers

A finite double is a sign, a mantissa and a power of two. `nearest` goes the other way: it
rounds a quotient of natural numbers to the nearest double, and a value midway between two of
them to the one with the even mantissa.
-/

namespace BannedCalls

/-- The quotient rounded to the nearest natural number, a half to the even neighbour. -/
def roundHalfEven (num den : Nat) : Nat :=
  let whole := num / den
  let twice := 2 * (num % den)
  if twice < den then whole else if den < twice then whole + 1 else whole + whole % 2

/-- What a double stands for: `mantissa * 2 ^ exponent` with a sign, an infinity, or nothing. -/
inductive Binary64
  | finite (negative : Bool) (mantissa : Nat) (exponent : Int)
  | infinite (negative : Bool)
  | nan

namespace Binary64

def ofFloat (x : Float) : Binary64 :=
  let bits := x.toBits.toNat
  let negative := bits / Nat.pow 2 63 == 1
  let field := bits / Nat.pow 2 52 % Nat.pow 2 11
  let fraction := bits % Nat.pow 2 52
  if field = Nat.pow 2 11 - 1 then if fraction = 0 then infinite negative else nan
  else if field = 0 then finite negative fraction (-1074)
  else finite negative (Nat.pow 2 52 + fraction) (Int.ofNat field - 1075)

/-- `num / den` as a fraction of natural numbers after division by `base ^ exponent`. -/
def unscale (base num den : Nat) (exponent : Int) : Nat × Nat :=
  let scale := Nat.pow base exponent.natAbs
  if exponent < 0 then (num * scale, den) else (num, den * scale)

/-- The greatest `k` with `2 ^ k ≤ num / den`, for positive `num` and `den`. -/
def floorLog2 (num den : Nat) : Int :=
  let guess : Int := Int.ofNat num.log2 - Int.ofNat den.log2
  let (n, d) := unscale 2 num den guess
  if n < d then guess - 1 else guess

/-- The bits of a double run on from one mantissa and exponent to the next, so a mantissa that
rounds up to the next power of two, the smallest exponent and an overflow need no case of their
own. -/
def nearest (negative : Bool) (num den : Nat) : Float :=
  let magnitude :=
    if num = 0 then 0
    else
      let exponent := max (-1074) (floorLog2 num den - 52)
      let (n, d) := unscale 2 num den exponent
      min ((exponent + 1074).toNat * Nat.pow 2 52 + roundHalfEven n d)
        ((Nat.pow 2 11 - 1) * Nat.pow 2 52)
  Float.ofBits (UInt64.ofNat (if negative then Nat.pow 2 63 + magnitude else magnitude))

/-- `digits * 10 ^ exponent` as a double. Beyond a thousand places the result is zero or infinite
whatever the digits are. -/
def nearestDecimal (negative : Bool) (digits : Nat) (exponent : Int) : Float :=
  let places : Int := Int.ofNat digits.log2 / 3 + 1
  let exponent := max (-1000 - places) (min 1000 exponent)
  let (n, d) := unscale 10 digits 1 (-exponent)
  nearest negative n d

end Binary64

end BannedCalls
