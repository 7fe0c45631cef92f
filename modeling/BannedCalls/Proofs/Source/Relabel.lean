import BannedCalls.Source.Walk

/-!
# Relabelled trees

Relabelling replaces the data of every cursor and leaves the shape of the tree as it is. The walk of
a relabelled tree is the walk of the tree, node by node relabelled. That is so in a scope too, if it
keeps the same cursors under their new data.
-/

namespace BannedCalls

namespace Cursor

mutual

def relabel (f : CursorInfo → CursorInfo) : Cursor → Cursor
  | node info children => node (f info) (relabelAll f children)

def relabelAll (f : CursorInfo → CursorInfo) : List Cursor → List Cursor
  | [] => []
  | c :: rest => relabel f c :: relabelAll f rest

end

@[simp] theorem info_relabel (f : CursorInfo → CursorInfo) (c : Cursor) :
    (c.relabel f).info = f c.info := by
  cases c with
  | node info children => rw [relabel]; rfl

@[simp] theorem children_relabel (f : CursorInfo → CursorInfo) (c : Cursor) :
    (c.relabel f).children = relabelAll f c.children := by
  cases c with
  | node info children => rw [relabel]; rfl

theorem relabelAll_eq_map (f : CursorInfo → CursorInfo) (cs : List Cursor) :
    relabelAll f cs = cs.map (relabel f) := by
  induction cs with
  | nil => rfl
  | cons c rest ih => rw [relabelAll, ih, List.map_cons]

end Cursor

def Node.relabel (f : CursorInfo → CursorInfo) (n : Node) : Node :=
  ⟨n.cursor.relabel f, n.ancestors.map f⟩

@[simp] theorem Node.info_relabel (f : CursorInfo → CursorInfo) (n : Node) :
    (n.relabel f).info = f n.info := Cursor.info_relabel f n.cursor

namespace Cursor

mutual

theorem nodesUnder_relabel (f : CursorInfo → CursorInfo) (ancestors : List CursorInfo) :
    (c : Cursor) → (c.relabel f).nodesUnder (ancestors.map f) =
      (c.nodesUnder ancestors).map (Node.relabel f)
  | node info children => by
    rw [relabel, nodesUnder, nodesUnder, List.map_cons, ← List.map_cons,
      nodesUnderAll_relabelAll f (info :: ancestors) children, Node.relabel, relabel]

theorem nodesUnderAll_relabelAll (f : CursorInfo → CursorInfo) (ancestors : List CursorInfo) :
    (cs : List Cursor) → nodesUnderAll (ancestors.map f) (relabelAll f cs) =
      (nodesUnderAll ancestors cs).map (Node.relabel f)
  | [] => rfl
  | c :: rest => by
    rw [relabelAll, nodesUnderAll, nodesUnderAll, List.map_append, nodesUnder_relabel f ancestors c,
      nodesUnderAll_relabelAll f ancestors rest]

end

theorem nodes_relabel (f : CursorInfo → CursorInfo) (c : Cursor) :
    (c.relabel f).nodes = c.nodes.map (Node.relabel f) := nodesUnder_relabel f [] c

variable {f : CursorInfo → CursorInfo} {keeps : CursorInfo → Bool}

mutual

theorem prune_relabel (hk : ∀ info, keeps (f info) = keeps info) :
    (c : Cursor) → (c.relabel f).prune keeps = (c.prune keeps).map (relabel f)
  | node info children => by
    rw [relabel, prune, prune, hk info, pruneAll_relabelAll hk children]
    cases keeps info with
    | true => rw [if_pos rfl, if_pos rfl, Option.map_some, relabel]
    | false => rfl

theorem pruneAll_relabelAll (hk : ∀ info, keeps (f info) = keeps info) :
    (cs : List Cursor) → pruneAll keeps (relabelAll f cs) = relabelAll f (pruneAll keeps cs)
  | [] => rfl
  | c :: rest => by
    rw [relabelAll, pruneAll, pruneAll, prune_relabel hk c, pruneAll_relabelAll hk rest]
    cases c.prune keeps <;> rfl

end

end Cursor

theorem Scope.nodes_relabel {f : CursorInfo → CursorInfo} {scope : Scope}
    (hk : ∀ info, scope.keeps (f info) = scope.keeps info) (root : Cursor) :
    scope.nodes (root.relabel f) = (scope.nodes root).map (Node.relabel f) := by
  rw [nodes, nodes, trim_eq, trim_eq, Cursor.prune_relabel hk]
  cases root.prune scope.keeps with
  | none => rfl
  | some kept => exact Cursor.nodes_relabel f kept

end BannedCalls
