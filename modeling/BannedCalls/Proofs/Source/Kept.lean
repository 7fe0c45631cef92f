import BannedCalls.Source.Walk

/-!
# What a pruned walk keeps

A node of a walk is kept when neither its cursor nor an ancestor is pruned away. Pruning a tree
and walking it gives the kept nodes of the unpruned walk, in the same order and below the same
ancestors; of the tree below each node, only what is pruned away is missing.
-/

namespace BannedCalls

/-- The cursor without what is pruned away below it. -/
def Cursor.pruneBelow (keeps : CursorInfo → Bool) (c : Cursor) : Cursor :=
  .node c.info (pruneAll keeps c.children)

@[simp] theorem Cursor.pruneBelow_info (keeps : CursorInfo → Bool) (c : Cursor) :
    (c.pruneBelow keeps).info = c.info := rfl

theorem Cursor.pruneBelow_node (keeps : CursorInfo → Bool) (info : CursorInfo)
    (children : List Cursor) :
    (node info children).pruneBelow keeps = node info (pruneAll keeps children) := rfl

namespace Node

def isKept (keeps : CursorInfo → Bool) (n : Node) : Bool := (n.info :: n.ancestors).all keeps

/-- The node as it stands in the pruned tree. -/
def trimmed (keeps : CursorInfo → Bool) (n : Node) : Node :=
  ⟨n.cursor.pruneBelow keeps, n.ancestors⟩

end Node

namespace Cursor

variable {keeps : CursorInfo → Bool}

theorem prune_of_keeps {c : Cursor} (h : keeps c.info) :
    c.prune keeps = some (c.pruneBelow keeps) := by
  cases c with
  | node info children => rw [prune, if_pos (by exact h)]; rfl

theorem prune_of_not_keeps {c : Cursor} (h : ¬ keeps c.info) : c.prune keeps = none := by
  cases c with
  | node info children => rw [prune, if_neg (by exact h)]

theorem pruneAll_cons_of_keeps {c : Cursor} (h : keeps c.info) (rest : List Cursor) :
    pruneAll keeps (c :: rest) = c.pruneBelow keeps :: pruneAll keeps rest := by
  rw [pruneAll, prune_of_keeps h]

theorem pruneAll_cons_of_not_keeps {c : Cursor} (h : ¬ keeps c.info) (rest : List Cursor) :
    pruneAll keeps (c :: rest) = pruneAll keeps rest := by
  rw [pruneAll, prune_of_not_keeps h]

theorem pruneAll_eq (keeps : CursorInfo → Bool) (cs : List Cursor) :
    pruneAll keeps cs = (cs.filter (keeps ·.info)).map (pruneBelow keeps) := by
  induction cs with
  | nil => rfl
  | cons c rest ih =>
    by_cases h : keeps c.info
    · rw [pruneAll_cons_of_keeps h, ih, List.filter_cons, if_pos h, List.map_cons]
    · rw [pruneAll_cons_of_not_keeps h, ih, List.filter_cons, if_neg h]

mutual

theorem prune_of_forall (h : ∀ info, keeps info) : (c : Cursor) → c.prune keeps = some c
  | node info children => by rw [prune, if_pos (h info), pruneAll_of_forall h children]

theorem pruneAll_of_forall (h : ∀ info, keeps info) :
    (cs : List Cursor) → pruneAll keeps cs = cs
  | [] => rfl
  | c :: rest => by rw [pruneAll, prune_of_forall h c]; simp [pruneAll_of_forall h rest]

end

mutual

/-- Below a pruned ancestor nothing is kept. -/
theorem isKept_eq_false_of_mem_nodesUnder {ancestors : List CursorInfo}
    (h : ancestors.all keeps = false) :
    (c : Cursor) → ∀ n ∈ c.nodesUnder ancestors, n.isKept keeps = false
  | node info children => by
    intro n hn
    rw [nodesUnder] at hn
    rcases List.mem_cons.1 hn with rfl | hn
    · simp [Node.isKept, h]
    · exact isKept_eq_false_of_mem_nodesUnderAll (by simp [h]) children n hn

theorem isKept_eq_false_of_mem_nodesUnderAll {ancestors : List CursorInfo}
    (h : ancestors.all keeps = false) :
    (cs : List Cursor) → ∀ n ∈ nodesUnderAll ancestors cs, n.isKept keeps = false
  | [] => by simp [nodesUnderAll]
  | c :: rest => by
    intro n hn
    rw [nodesUnderAll] at hn
    rcases List.mem_append.1 hn with hn | hn
    · exact isKept_eq_false_of_mem_nodesUnder h c n hn
    · exact isKept_eq_false_of_mem_nodesUnderAll h rest n hn

end

mutual

theorem nodesUnder_prune {ancestors : List CursorInfo} (h : ancestors.all keeps) :
    (c : Cursor) → (c.prune keeps).elim [] (nodesUnder ancestors) =
      ((c.nodesUnder ancestors).filter (Node.isKept keeps)).map (Node.trimmed keeps)
  | node info children => by
    cases hk : keeps info with
    | true =>
      have ha : (info :: ancestors).all keeps := by simp [hk, h]
      have hn : Node.isKept keeps ⟨node info children, ancestors⟩ := ha
      rw [prune, if_pos hk, Option.elim_some, nodesUnder, nodesUnder, List.filter_cons_of_pos hn,
        List.map_cons, nodesUnderAll_pruneAll ha children]
      rfl
    | false =>
      have ha : (info :: ancestors).all keeps = false := by simp [hk]
      have hn : (nodesUnder ancestors (node info children)).filter (Node.isKept keeps) = [] := by
        rw [List.filter_eq_nil_iff, nodesUnder]
        intro n hm
        rcases List.mem_cons.1 hm with rfl | hm
        · simp [Node.isKept, Node.info, Cursor.info, hk]
        · simp [isKept_eq_false_of_mem_nodesUnderAll ha children n hm]
      rw [prune, hn]
      simp [hk]

theorem nodesUnderAll_pruneAll {ancestors : List CursorInfo} (h : ancestors.all keeps) :
    (cs : List Cursor) → nodesUnderAll ancestors (pruneAll keeps cs) =
      ((nodesUnderAll ancestors cs).filter (Node.isKept keeps)).map (Node.trimmed keeps)
  | [] => rfl
  | c :: rest => by
    have hc := nodesUnder_prune h c
    have hr := nodesUnderAll_pruneAll h rest
    rw [nodesUnderAll, List.filter_append, List.map_append, ← hc, ← hr, pruneAll]
    cases c.prune keeps <;> rfl

end

end Cursor

namespace Scope

/-- A scope walks the nodes of the whole tree that lie in it and below nothing foreign to it. -/
theorem nodes_eq (scope : Scope) (root : Cursor) :
    scope.nodes root =
      (root.nodes.filter (Node.isKept scope.keeps)).map (Node.trimmed scope.keeps) := by
  rw [nodes, trim_eq]
  exact Cursor.nodesUnder_prune rfl root

theorem nodes_of_keeps {scope : Scope} {root : Cursor} (h : scope.keeps root.info) :
    scope.nodes root = (root.pruneBelow scope.keeps).nodes := by
  rw [nodes, trim_eq, Cursor.prune_of_keeps h]
  rfl

theorem nodes_of_not_keeps {scope : Scope} {root : Cursor} (h : ¬ scope.keeps root.info) :
    scope.nodes root = [] := by
  rw [nodes, trim_eq, Cursor.prune_of_not_keeps h]
  rfl

/-- Without a target the whole tree is walked. -/
theorem nodes_of_target_none (fs : FileSystem) (root : Cursor) :
    nodes ⟨fs, none⟩ root = root.nodes := by
  rw [nodes, trim_eq, Cursor.prune_of_forall fun info => by simp [keeps, keepsFile, test]]
  rfl

end Scope

end BannedCalls
