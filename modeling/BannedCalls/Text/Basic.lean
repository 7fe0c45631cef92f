/-!
# Text

A text is a list of code points. Code points run over the whole Unicode range, so a
surrogate half that an escape sequence names on its own is a code point like any other.

The cuts and searches below keep every code point: `Text.join_splitOn` puts the pieces of a
cut together again.
-/

namespace BannedCalls

abbrev CodePoint := Fin 0x110000

abbrev Text := List CodePoint

-- Literals use these two. Their zero is named, so it is the same whatever else is imported.
instance CodePoint.instNeZero : @NeZero Nat Zero.ofOfNat0 0x110000 := ⟨by decide⟩

instance Digit.instNeZero : @NeZero Nat Zero.ofOfNat0 10 := ⟨by decide⟩

theorem CodePoint.lowered_lt {c : CodePoint} (h : 0x41 ≤ c.val ∧ c.val ≤ 0x5A) :
    c.val + 0x20 < 0x110000 := by
  omega

def CodePoint.ofChar (c : Char) : CodePoint :=
  ⟨c.toNat, by
    have h := c.valid
    simp only [UInt32.isValidChar, Nat.isValidChar] at h
    simp only [Char.toNat]
    omega⟩

/-- The character at a code point; a surrogate half has none and shows as the replacement
character. -/
def CodePoint.toChar (c : CodePoint) : Char :=
  if h : Nat.isValidChar c.val then Char.ofNatAux c.val h else '\uFFFD'

instance : Coe Char CodePoint := ⟨CodePoint.ofChar⟩

def CodePoint.isHighSurrogate (c : CodePoint) : Bool := 0xD800 ≤ c.val && c.val ≤ 0xDBFF

def CodePoint.isLowSurrogate (c : CodePoint) : Bool := 0xDC00 ≤ c.val && c.val ≤ 0xDFFF

def CodePoint.isSurrogate (c : CodePoint) : Bool := c.isHighSurrogate || c.isLowSurrogate

/-- The value of an ASCII decimal digit. -/
def CodePoint.digit? (c : CodePoint) : Option (Fin 10) :=
  if h : 0x30 ≤ c.val ∧ c.val ≤ 0x39 then some ⟨c.val - 0x30, by omega⟩ else none

def CodePoint.ofDigit (d : Fin 10) : CodePoint := ⟨0x30 + d.val, by omega⟩

@[simp] theorem CodePoint.digit?_ofDigit (d : Fin 10) : (CodePoint.ofDigit d).digit? = some d := by
  have h : 0x30 ≤ (CodePoint.ofDigit d).val ∧ (CodePoint.ofDigit d).val ≤ 0x39 := by
    simp only [CodePoint.ofDigit]; omega
  simp only [CodePoint.digit?, dif_pos h]
  simp [CodePoint.ofDigit]

/-- The value of an ASCII hexadecimal digit of either case. -/
def CodePoint.hexDigit? (c : CodePoint) : Option (Fin 16) :=
  if h : 0x30 ≤ c.val ∧ c.val ≤ 0x39 then some ⟨c.val - 0x30, by omega⟩
  else if h : 0x61 ≤ c.val ∧ c.val ≤ 0x66 then some ⟨c.val - 0x57, by omega⟩
  else if h : 0x41 ≤ c.val ∧ c.val ≤ 0x46 then some ⟨c.val - 0x37, by omega⟩
  else none

/-- Hexadecimal digits are written in lower case. -/
def CodePoint.ofHexDigit (d : Fin 16) : CodePoint :=
  if d.val < 10 then ⟨0x30 + d.val, by omega⟩ else ⟨0x57 + d.val, by omega⟩

@[simp] theorem CodePoint.hexDigit?_ofHexDigit (d : Fin 16) :
    (CodePoint.ofHexDigit d).hexDigit? = some d := by
  revert d; decide

namespace Text

def ofString (s : String) : Text := s.toList.map CodePoint.ofChar

instance : Coe String Text := ⟨ofString⟩

def toString (t : Text) : String := String.ofList (t.map CodePoint.toChar)

/-- The pieces of `t` between the occurrences of `sep`; there is always one more than there
are occurrences. -/
def splitOn (sep : CodePoint) : Text → List Text
  | [] => [[]]
  | c :: rest =>
    match splitOn sep rest with
    | [] => [[c]]
    | piece :: pieces => if c = sep then [] :: piece :: pieces else (c :: piece) :: pieces

def join (sep : Text) : List Text → Text
  | [] => []
  | [piece] => piece
  | piece :: next :: pieces => piece ++ sep ++ join sep (next :: pieces)

theorem splitOn_ne_nil (sep : CodePoint) (t : Text) : splitOn sep t ≠ [] := by
  cases t with
  | nil => simp [splitOn]
  | cons c rest =>
    rw [splitOn]
    split
    · simp
    · split <;> simp

theorem join_splitOn (sep : CodePoint) (t : Text) : join [sep] (splitOn sep t) = t := by
  induction t with
  | nil => rfl
  | cons c rest ih =>
    rw [splitOn]
    cases h : splitOn sep rest with
    | nil => exact absurd h (splitOn_ne_nil sep rest)
    | cons piece pieces =>
      rw [h] at ih
      by_cases hc : c = sep
      · simp [hc, join, ih]
      · cases pieces with
        | nil => simpa [hc, join] using ih
        | cons next pieces => simpa [hc, join] using ih

/-- Whether `part` stands somewhere in the text. -/
def includes (part : Text) : Text → Bool
  | [] => part.isEmpty
  | c :: rest => part.isPrefixOf (c :: rest) || includes part rest

/-- Line ends are read alike: a carriage return, alone or before a line feed, is a line feed. -/
def unifyNewlines : Text → Text
  | [] => []
  | c :: rest =>
    if c = '\r' then
      match rest with
      | [] => ['\n']
      | d :: more => if d = '\n' then '\n' :: unifyNewlines more else '\n' :: unifyNewlines (d :: more)
    else c :: unifyNewlines rest

def ofDigits (ds : List (Fin 10)) : Text := ds.map CodePoint.ofDigit

/-- Decimal digits, most significant first; zero has one. -/
def decimalDigits (n : Nat) : List (Fin 10) :=
  if _h : n < 10 then [⟨n, _h⟩] else decimalDigits (n / 10) ++ [⟨n % 10, by omega⟩]

def ofNat (n : Nat) : Text := ofDigits (decimalDigits n)

def ofInt (n : Int) : Text := if n < 0 then '-' :: ofNat n.natAbs else ofNat n.natAbs

/-- The `width` low hexadecimal digits of `n`. -/
def hexDigits : Nat → Nat → Text
  | 0, _ => []
  | width + 1, n => hexDigits width (n / 16) ++ [CodePoint.ofHexDigit ⟨n % 16, by omega⟩]

end Text

end BannedCalls
