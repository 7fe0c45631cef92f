import BannedCalls.Source.Cursor

/-!
# Call shapes

A call has a shape when it reads `receiver.member(` in the source. Its callee is the first child,
looked for through unexposed cursors that wrap a single child over the same offsets; it must be a
member reference spelled by exactly an identifier, a dot and an identifier, and the first token
of the call from the end of the callee on must open a bracket.
-/

namespace BannedCalls

structure CallShape where
  receiver : Text
  member : Text
  callee : Cursor
  /-- How far below the call the callee lies; a child lies at depth one. -/
  depth : Nat

def Extent.sameOffsets (a b : Extent) : Bool := a.start = b.start && a.stop = b.stop

namespace Cursor

/-- What a cursor wraps, with the number of wrappers taken off. -/
def unwrap : Cursor → Option (Cursor × Nat)
  | node info children =>
    if info.kind = .unexposedExpr then
      match children with
      | [inner] =>
        if inner.info.extent.sameOffsets info.extent then
          (unwrap inner).map fun found => (found.1, found.2 + 1)
        else none
      | _ => none
    else some (node info children, 0)

def callee? (call : Cursor) : Option (Cursor × Nat) :=
  match call.children with
  | [] => none
  | first :: _ => first.unwrap

end Cursor

/-- The receiver and the member that three tokens spell. -/
def memberAccess? : List Token → Option (Text × Text)
  | [receiver, dot, member] =>
    if receiver.kind = .identifier ∧ member.kind = .identifier ∧ dot.spelling = "." then
      some (receiver.spelling, member.spelling)
    else none
  | _ => none

/-- Whether the first of a call's tokens from `offset` on opens a bracket. -/
def CursorInfo.opensAt (call : CursorInfo) (offset : Int) : Bool :=
  match call.ownTokens.find? fun token => offset ≤ token.offset with
  | some token => token.spelling = "("
  | none => false

def Cursor.shape? (call : Cursor) : Option CallShape := do
  let (callee, wrappers) ← call.callee?
  if callee.kind ≠ .memberRefExpr then none
  let (receiver, member) ← memberAccess? callee.info.ownTokens
  if call.info.opensAt callee.info.extent.stop then
    return { receiver, member, callee, depth := wrappers + 1 }
  else none

end BannedCalls
