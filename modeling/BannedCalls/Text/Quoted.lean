import BannedCalls.Text.Printable

/-!
# Quoted text

The way a message shows a text: between single quotes, or between double quotes when it holds
a single quote and no double one. A backslash, the quote in use, and what is not printable are
escaped, so that a shown text is printable throughout.
-/

namespace BannedCalls

def Text.quoteMark (t : Text) : CodePoint :=
  if t.contains '\x27' && !t.contains '\x22' then '\x22' else '\x27'

/-- One code point as it stands between the quote marks `mark`. -/
def CodePoint.quoted (mark c : CodePoint) : Text :=
  if c = mark || c = '\\' then ['\\', c]
  else if c = '\n' then "\\n"
  else if c = '\r' then "\\r"
  else if c = '\t' then "\\t"
  else if c.isPrintable then [c]
  else if c.val < 0x100 then "\\x" ++ Text.hexDigits 2 c.val
  else if c.val < 0x10000 then "\\u" ++ Text.hexDigits 4 c.val
  else "\\U" ++ Text.hexDigits 8 c.val

def Text.quoted (t : Text) : Text :=
  let mark := t.quoteMark
  mark :: t.flatMap (CodePoint.quoted mark) ++ [mark]

example : Text.quoted "a\"b" = "'a\"b'" := by decide +kernel

example : Text.quoted "it's" = "\"it's\"" := by decide +kernel

example : Text.quoted "'\"\t\x00" = "'\\'\"\\t\\x00'" := by decide +kernel

end BannedCalls
