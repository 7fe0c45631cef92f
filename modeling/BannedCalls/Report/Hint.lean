import BannedCalls.Number.Numeral

/-!
# Hints

Advice on a compiler message, by the first phrase of a list that the message holds. Messages are
compared in lower case; the phrases are ASCII, so of the letters beyond ASCII only the two whose
lower case has an ASCII letter matter.
-/

namespace BannedCalls

structure Hint where
  suggestion : Text
  confidence : Numeral
  deriving DecidableEq, Repr

namespace Hint

/-- Phrases, in the order in which they are looked for, with the advice on them. -/
def table : List (Text × Hint) := [
  ("expected ';'",
    ⟨"Add a semicolon to end the previous statement.", .positional false 0 9 [6]⟩),
  ("expected expression",
    ⟨"Complete the expression (for example: value, function call, or operation).",
      .positional false 0 9 [4]⟩),
  ("use of undeclared identifier",
    ⟨"Declare this identifier first, or fix a misspelled variable/function name.",
      .positional false 0 9 [2]⟩),
  ("no member named",
    ⟨"Check the class definition and member spelling; verify the object type is correct.",
      .positional false 0 9 []⟩),
  ("file not found",
    ⟨"Check include/file paths and ensure the referenced header/file exists.",
      .positional false 0 9 []⟩),
  ("unknown type name",
    ⟨"Include the correct header and verify the type name and namespace.",
      .positional false 0 9 []⟩),
  ("no type named",
    ⟨"Include the correct header and verify the type name and namespace.",
      .positional false 0 9 []⟩)]

def fallback : Hint :=
  ⟨"Review this diagnostic and fix the code so it compiles.", .positional false 0 8 [8]⟩

def ofMessage (message : Text) : Hint :=
  ((table.find? fun entry => Text.includes entry.1 message).map Prod.snd).getD fallback

/-- The lower case of a code point, as far as ASCII goes: beyond it, the Kelvin sign becomes a
`k`, and a capital I with a dot an `i` and a combining dot. -/
def lower (c : CodePoint) : Text :=
  if h : 0x41 ≤ c.val ∧ c.val ≤ 0x5A then [⟨c.val + 0x20, c.lowered_lt h⟩]
  else if c.val = 0x212A then ['k']
  else if c.val = 0x130 then ['i', 0x307]
  else [c]

end Hint

end BannedCalls
