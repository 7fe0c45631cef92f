import BannedCalls.Source.Scope

/-!
# Walks

A walk lists the cursors of a tree in depth-first pre-order. A node of it is a cursor, with all
below it, and what stands above it. `Cursor.outline` is the same list by numbers: an entry names
its parent and its children by their positions.
-/

namespace BannedCalls

/-- A cursor of a walk; its ancestors stand nearest first. -/
structure Node where
  cursor : Cursor
  ancestors : List CursorInfo

namespace Node

def info (n : Node) : CursorInfo := n.cursor.info

/-- The line by which a traced walk reports a node. -/
def trace (n : Node) : Text :=
  "VISITING: " ++ n.info.kind.shown ++ " line " ++ Text.ofInt n.info.location.line ++ "\n"

end Node

/-- An entry of an outline. -/
structure Entry where
  info : CursorInfo
  parent : Option Nat
  children : List Nat

namespace Cursor

mutual

def nodesUnder (ancestors : List CursorInfo) : Cursor → List Node
  | node info children => ⟨node info children, ancestors⟩ :: nodesUnderAll (info :: ancestors) children

def nodesUnderAll (ancestors : List CursorInfo) : List Cursor → List Node
  | [] => []
  | c :: rest => nodesUnder ancestors c ++ nodesUnderAll ancestors rest

end

def nodes (c : Cursor) : List Node := c.nodesUnder []

/-- The positions of siblings, of which the first stands at `position`. -/
def positions (position : Nat) : List Cursor → List Nat
  | [] => []
  | c :: rest => position :: positions (position + c.size) rest

mutual

def outlineFrom (parent : Option Nat) (position : Nat) : Cursor → List Entry
  | node info children =>
    ⟨info, parent, positions (position + 1) children⟩ :: outlineAll position (position + 1) children

def outlineAll (parent position : Nat) : List Cursor → List Entry
  | [] => []
  | c :: rest => outlineFrom (some parent) position c ++ outlineAll parent (position + c.size) rest

end

def outline (c : Cursor) : List Entry := c.outlineFrom none 0

mutual

theorem length_nodesUnder (ancestors : List CursorInfo) :
    (c : Cursor) → (c.nodesUnder ancestors).length = c.size
  | node info children => by
    rw [nodesUnder, List.length_cons, length_nodesUnderAll, size, Nat.add_comm]

theorem length_nodesUnderAll (ancestors : List CursorInfo) :
    (cs : List Cursor) → (nodesUnderAll ancestors cs).length = sizeAll cs
  | [] => rfl
  | c :: rest => by
    rw [nodesUnderAll, List.length_append, length_nodesUnder, length_nodesUnderAll, sizeAll]

end

mutual

theorem map_info_outlineFrom (parent : Option Nat) (position : Nat) (ancestors : List CursorInfo) :
    (c : Cursor) → (c.outlineFrom parent position).map Entry.info =
      (c.nodesUnder ancestors).map Node.info
  | node info children => by
    rw [outlineFrom, nodesUnder, List.map_cons, List.map_cons,
      map_info_outlineAll position (position + 1) (info :: ancestors)]
    rfl

theorem map_info_outlineAll (parent position : Nat) (ancestors : List CursorInfo) :
    (cs : List Cursor) → (outlineAll parent position cs).map Entry.info =
      (nodesUnderAll ancestors cs).map Node.info
  | [] => rfl
  | c :: rest => by
    rw [outlineAll, nodesUnderAll, List.map_append, List.map_append,
      map_info_outlineFrom _ _ ancestors, map_info_outlineAll _ _ ancestors]

end

end Cursor

namespace Scope

/-- The nodes of what the scope leaves of a tree; a foreign root leaves none. -/
def nodes (scope : Scope) (root : Cursor) : List Node := (scope.trim root).elim [] Cursor.nodes

def outline (scope : Scope) (root : Cursor) : List Entry := (scope.trim root).elim [] Cursor.outline

end Scope

end BannedCalls
