import BannedCalls.Text.Basic

/-!
# UTF-8

Texts as bytes. `decode` is strict: it refuses a stray or missing continuation byte, a longer
form than needed, a surrogate half and what lies above U+10FFFF. On a text without surrogate
halves it undoes `encode`.
-/

namespace BannedCalls.Utf8

/-- The six low bits of a continuation byte. -/
def tail? (b : UInt8) : Option Nat :=
  if 0x80 ≤ b.toNat && b.toNat < 0xC0 then some (b.toNat - 0x80) else none

/-- A code point at or above `least` that is no surrogate half. -/
def scalar? (least n : Nat) : Option CodePoint :=
  if h : n < 0x110000 then
    if n < least || CodePoint.isSurrogate ⟨n, h⟩ then none else some ⟨n, h⟩
  else none

/-- Reads on with `owed` continuation bytes still to come, `bits` read so far of the code point
that they complete, and `least` the smallest value for which its length is due. -/
def decodeFrom (owed least bits : Nat) : List UInt8 → Option Text
  | [] => if owed = 0 then some [] else none
  | b :: rest =>
    if owed = 0 then
      if b.toNat < 0x80 then do
        let c ← scalar? 0 b.toNat
        return c :: (← decodeFrom 0 0 0 rest)
      else if b.toNat < 0xC0 then none
      else if b.toNat < 0xE0 then decodeFrom 1 0x80 (b.toNat - 0xC0) rest
      else if b.toNat < 0xF0 then decodeFrom 2 0x800 (b.toNat - 0xE0) rest
      else if b.toNat < 0xF8 then decodeFrom 3 0x10000 (b.toNat - 0xF0) rest
      else none
    else do
      let x ← tail? b
      if owed = 1 then
        let c ← scalar? least (bits * 0x40 + x)
        return c :: (← decodeFrom 0 0 0 rest)
      else decodeFrom (owed - 1) least (bits * 0x40 + x) rest

def decode (bytes : List UInt8) : Option Text := decodeFrom 0 0 0 bytes

def tail (n : Nat) : UInt8 := UInt8.ofNat (0x80 + n % 0x40)

def encodeOne (c : CodePoint) : List UInt8 :=
  if c.val < 0x80 then [UInt8.ofNat c.val]
  else if c.val < 0x800 then [UInt8.ofNat (0xC0 + c.val / 0x40), tail c.val]
  else if c.val < 0x10000 then
    [UInt8.ofNat (0xE0 + c.val / 0x1000), tail (c.val / 0x40), tail c.val]
  else [UInt8.ofNat (0xF0 + c.val / 0x40000), tail (c.val / 0x1000), tail (c.val / 0x40), tail c.val]

def encode (t : Text) : List UInt8 := t.flatMap encodeOne

theorem decode_encode_ascii {t : Text} (h : ∀ c ∈ t, c.val < 0x80) :
    decode (encode t) = some t := by
  induction t with
  | nil => rfl
  | cons c rest ih =>
    have hc : c.val < 0x80 := h c (by simp)
    have hb : (UInt8.ofNat c.val).toNat = c.val := by
      simp only [UInt8.toNat_ofNat']
      omega
    have hs : scalar? 0 c.val = some c := by
      simp [scalar?, CodePoint.isSurrogate, CodePoint.isHighSurrogate, CodePoint.isLowSurrogate]
      omega
    have hr := ih fun d hd => h d (by simp [hd])
    simp only [decode, encode] at hr ⊢
    simp [encodeOne, decodeFrom, hb, hc, hs, hr]

end BannedCalls.Utf8
