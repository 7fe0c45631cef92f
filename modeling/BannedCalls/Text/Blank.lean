import BannedCalls.Text.Basic

/-!
# Blank code points

The white space of Unicode, together with the four ASCII separators from U+001C to U+001F.
`Text.strip` cuts blanks from both ends of a text and leaves those inside.
-/

namespace BannedCalls

def CodePoint.isBlank (c : CodePoint) : Bool :=
  [(0x09, 0x0D), (0x1C, 0x20), (0x85, 0x85), (0xA0, 0xA0), (0x1680, 0x1680), (0x2000, 0x200A),
    (0x2028, 0x2029), (0x202F, 0x202F), (0x205F, 0x205F), (0x3000, 0x3000)].any
    fun range => range.1 ≤ c.val && c.val ≤ range.2

theorem CodePoint.isBlank_of_isWhitespace {c : Char} (h : c.isWhitespace) :
    (CodePoint.ofChar c).isBlank := by
  simp only [Char.isWhitespace, Bool.or_eq_true, decide_eq_true_eq] at h
  rcases h with ((rfl | rfl) | rfl) | rfl <;> decide

namespace Text

def isBlank (t : Text) : Bool := t.all CodePoint.isBlank

def stripStart (t : Text) : Text := t.dropWhile CodePoint.isBlank

def stripEnd (t : Text) : Text := (stripStart t.reverse).reverse

def strip (t : Text) : Text := stripEnd (stripStart t)

theorem stripStart_cons (c : CodePoint) (rest : Text) :
    stripStart (c :: rest) = if c.isBlank then stripStart rest else c :: rest := by
  rw [stripStart, List.dropWhile_cons]
  rfl

theorem stripStart_eq_nil_iff {t : Text} : stripStart t = [] ↔ t.isBlank := by
  induction t with
  | nil => simp [stripStart, isBlank]
  | cons c rest ih =>
    rw [stripStart_cons]
    by_cases hc : c.isBlank
    · rw [if_pos hc, ih]
      simp [isBlank, hc]
    · rw [if_neg hc]
      simp [isBlank, hc]

theorem stripEnd_eq_nil_iff {t : Text} : stripEnd t = [] ↔ t.isBlank := by
  rw [stripEnd, List.reverse_eq_nil_iff, stripStart_eq_nil_iff]
  simp [isBlank]

theorem isBlank_stripStart {t : Text} : (stripStart t).isBlank ↔ t.isBlank := by
  induction t with
  | nil => simp [stripStart]
  | cons c rest ih =>
    rw [stripStart_cons]
    by_cases hc : c.isBlank
    · rw [if_pos hc, ih]
      simp [isBlank, hc]
    · rw [if_neg hc]

/-- Nothing remains of a text exactly when it is blank throughout. -/
theorem strip_eq_nil_iff {t : Text} : strip t = [] ↔ t.isBlank := by
  rw [strip, stripEnd_eq_nil_iff, isBlank_stripStart]

end Text

end BannedCalls
