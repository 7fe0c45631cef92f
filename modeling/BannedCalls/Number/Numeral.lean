import BannedCalls.Text.Basic
import BannedCalls.Number.Binary64

/-!
# Numerals of real numbers

A real number as it is written: with a decimal point, with a power of ten, or as one of the
words for what is not finite. No numeral can be taken for that of an integer.

Texts and JSON documents write the words differently, so `Numeral.write` takes them.
-/

namespace BannedCalls

inductive Numeral
  | positional (negative : Bool) (whole : Nat) (tenths : Fin 10) (finer : List (Fin 10))
  | scientific (negative : Bool) (whole : Nat) (fraction : List (Fin 10)) (exponent : Int)
  | infinite (negative : Bool)
  | nan
  deriving DecidableEq, Repr

namespace Numeral

def sign (negative : Bool) : Text := if negative then "-" else ""

def fractionText (fraction : List (Fin 10)) : Text :=
  if fraction = [] then [] else '.' :: Text.ofDigits fraction

/-- The exponent carries its sign and has two digits or more. -/
def exponentText (n : Int) : Text :=
  let digits := Text.ofNat n.natAbs
  (if n < 0 then "-" else "+") ++ (if digits.length < 2 then "0" ++ digits else digits)

/-- `infinity` and `nan` are the words for what is not finite. -/
def write (infinity nan : Text) : Numeral → Text
  | .positional negative whole tenths finer =>
    sign negative ++ Text.ofNat whole ++ fractionText (tenths :: finer)
  | .scientific negative whole fraction exponent =>
    sign negative ++ Text.ofNat whole ++ fractionText fraction ++ "e" ++ exponentText exponent
  | .infinite negative => sign negative ++ infinity
  | .nan => nan

/-- A numeral in a message or in a line of text. -/
def plain (n : Numeral) : Text := n.write "inf" "nan"

def natOfDigits (digits : List (Fin 10)) : Nat := digits.foldl (fun n d => 10 * n + d.val) 0

/-- The double nearest to what the numeral says. -/
def toFloat : Numeral → Float
  | .positional negative whole tenths finer =>
    let fraction := tenths :: finer
    Binary64.nearestDecimal negative
      (whole * Nat.pow 10 fraction.length + natOfDigits fraction) (-Int.ofNat fraction.length)
  | .scientific negative whole fraction exponent =>
    Binary64.nearestDecimal negative
      (whole * Nat.pow 10 fraction.length + natOfDigits fraction)
      (exponent - Int.ofNat fraction.length)
  | .infinite negative => Float.ofBits (if negative then 0xFFF0000000000000 else 0x7FF0000000000000)
  | .nan => Float.ofBits 0x7FF8000000000000

end Numeral

end BannedCalls
