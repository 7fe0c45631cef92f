import BannedCalls.Report.Item

/-!
# Findings

A finding is a stretch of the source that breaks a rule, with the place where it starts.
-/

namespace BannedCalls

structure Finding where
  start : Int
  width : Int
  message : Text
  line : Option Int
  column : Option Int
  rule : Text
  deriving DecidableEq, Repr

namespace Finding

def stop (f : Finding) : Int := f.start + f.width

def suggestion : Text := "Replace this call with an allowed API, or remove it."

def toItem (f : Finding) : Item :=
  Item.advised "warning" "rule" (some f.rule) f.line f.column (some (f.start, f.width)) f.message
    suggestion (.positional false 1 0 [])

end Finding

end BannedCalls
