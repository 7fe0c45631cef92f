import BannedCalls.Text.Basic

/-!
# Cursor trees

A parsed source file as a tree of cursors. A cursor has a kind, a spelling, a location, an extent
of offsets and the tokens that it was spelled with; a token is known by its start only. Nothing
is promised about how extents lie to each other.
-/

namespace BannedCalls

inductive TokenKind
  | identifier
  | keyword
  | literal
  | punctuation
  | comment
  deriving DecidableEq, Repr

structure Token where
  kind : TokenKind
  spelling : Text
  offset : Int
  deriving DecidableEq, Repr

/-- The kinds that matter to the rule, and all others by name. -/
inductive CursorKind
  | callExpr
  | memberRefExpr
  | unexposedExpr
  | other (name : Text)
  deriving DecidableEq, Repr

namespace CursorKind

def name : CursorKind → Text
  | callExpr => "CALL_EXPR"
  | memberRefExpr => "MEMBER_REF_EXPR"
  | unexposedExpr => "UNEXPOSED_EXPR"
  | other name => name

def ofName (name : Text) : CursorKind :=
  if name = callExpr.name then callExpr
  else if name = memberRefExpr.name then memberRefExpr
  else if name = unexposedExpr.name then unexposedExpr
  else other name

theorem name_ofName (name : Text) : (ofName name).name = name := by
  unfold ofName
  split
  · next h => exact h.symm
  · split
    · next h => exact h.symm
    · split
      · next h => exact h.symm
      · rfl

def shown (kind : CursorKind) : Text := "CursorKind." ++ kind.name

end CursorKind

structure Location where
  file : Option Text
  line : Int
  column : Int
  deriving DecidableEq, Repr

/-- Offsets from `start` up to but not including `stop`, and where `start` lies. -/
structure Extent where
  start : Int
  stop : Int
  line : Int
  column : Int
  deriving DecidableEq, Repr

def Extent.holds (e : Extent) (offset : Int) : Bool := e.start ≤ offset && offset < e.stop

structure CursorInfo where
  kind : CursorKind
  name : Text
  location : Location
  extent : Extent
  tokens : List Token
  deriving DecidableEq, Repr

/-- Some front ends hand back a token past the end of a cursor; it does not count, and neither do
comments. -/
def CursorInfo.ownTokens (info : CursorInfo) : List Token :=
  info.tokens.filter fun token => token.kind ≠ .comment && info.extent.holds token.offset

inductive Cursor
  | node (info : CursorInfo) (children : List Cursor)

namespace Cursor

def info : Cursor → CursorInfo
  | node info _ => info

def children : Cursor → List Cursor
  | node _ children => children

def kind (c : Cursor) : CursorKind := c.info.kind

mutual

def size : Cursor → Nat
  | node _ children => 1 + sizeAll children

def sizeAll : List Cursor → Nat
  | [] => 0
  | c :: rest => size c + sizeAll rest

end

end Cursor

/-- How grave a diagnostic is; a code without a meaning is kept as it is. -/
inductive Level
  | ignored
  | note
  | warning
  | error
  | fatal
  | unknown (code : Int)
  deriving DecidableEq, Repr

def Level.ofCode (code : Int) : Level :=
  if code = 0 then ignored
  else if code = 1 then note
  else if code = 2 then warning
  else if code = 3 then error
  else if code = 4 then fatal
  else unknown code

structure Diagnostic where
  level : Level
  text : Text
  location : Option Location
  deriving DecidableEq, Repr

/-- What a front end makes of a source. A unit may lack its tree and still have diagnostics. -/
structure SourceUnit where
  root : Option Cursor
  diagnostics : List Diagnostic

end BannedCalls
