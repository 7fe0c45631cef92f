import BannedCalls.Text.Blank
import BannedCalls.Text.Digit
import BannedCalls.Number.Numeral

/-!
# Numbers written by hand

Integers and real numbers as a person types them: blanks around, a sign, digits of any script,
and a single underscore between two digits. A real number may also be one of the words `inf`,
`infinity` and `nan` in any case.
-/

namespace BannedCalls.Written

/-- Digits and blanks beyond ASCII read as their ASCII counterparts. -/
def fold (c : CodePoint) : CodePoint :=
  if c.val < 0x7F then c
  else if c.isBlank then ' '
  else match c.decimal? with
    | some d => CodePoint.ofDigit d
    | none => c

/-- The blanks that may surround a number: the ASCII separators are not among them. -/
def isPadding (c : CodePoint) : Bool := (0x09 ≤ c.val && c.val ≤ 0x0D) || c = ' '

def unpad (t : Text) : Text := ((t.dropWhile isPadding).reverse.dropWhile isPadding).reverse

def isDigit (c : CodePoint) : Bool := c.digit?.isSome

/-- Takes the underscores out; each must stand between two digits. -/
def ungroup? (afterDigit : Bool) : Text → Option Text
  | [] => some []
  | c :: rest =>
    if c = '_' then
      if afterDigit && rest.head?.any isDigit then ungroup? false rest else none
    else (ungroup? (isDigit c) rest).map (c :: ·)

def unsign : Text → Bool × Text
  | [] => (false, [])
  | c :: rest => if c = '-' then (true, rest) else if c = '+' then (false, rest) else (false, c :: rest)

/-- The digits at the front of a text, and what follows them. -/
def digitRun (t : Text) : List (Fin 10) × Text :=
  ((t.takeWhile isDigit).filterMap CodePoint.digit?, t.dropWhile isDigit)

def signed (negative : Bool) (n : Nat) : Int := if negative then -Int.ofNat n else Int.ofNat n

def int? (t : Text) : Option Int := do
  let (negative, body) := unsign (← ungroup? false (unpad (t.map fold)))
  match digitRun body with
  | (d :: ds, []) => some (signed negative (Numeral.natOfDigits (d :: ds)))
  | _ => none

def lower (c : CodePoint) : CodePoint :=
  if h : 0x41 ≤ c.val ∧ c.val ≤ 0x5A then ⟨c.val + 0x20, c.lowered_lt h⟩ else c

/-- A power of ten at the end of a number; its absence stands for the zeroth. -/
def exponent? : Text → Option Int
  | [] => some 0
  | c :: rest =>
    if lower c = 'e' then
      let (negative, body) := unsign rest
      match digitRun body with
      | (d :: ds, []) => some (signed negative (Numeral.natOfDigits (d :: ds)))
      | _ => none
    else none

def fraction : Text → List (Fin 10) × Text
  | [] => ([], [])
  | c :: rest => if c = '.' then digitRun rest else ([], c :: rest)

def real? (t : Text) : Option Float := do
  let (negative, body) := unsign (← ungroup? false (unpad (t.map fold)))
  let word := body.map lower
  if word = "inf" ∨ word = "infinity" then return (Numeral.infinite negative).toFloat
  if word = "nan" then return Numeral.nan.toFloat
  let (whole, rest) := digitRun body
  let (part, rest) := fraction rest
  if whole = [] ∧ part = [] then none
  let exponent ← exponent? rest
  return Binary64.nearestDecimal negative (Numeral.natOfDigits (whole ++ part))
    (exponent - Int.ofNat part.length)

example : int? " +1_000\n" = some 1000 := by decide +kernel

example : int? "1__0" = none := by decide +kernel

end BannedCalls.Written
