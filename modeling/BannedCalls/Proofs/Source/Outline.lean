import BannedCalls.Proofs.Source.Blocks
import BannedCalls.Proofs.Source.Kept
import Mathlib.Data.List.Basic
import Mathlib.Logic.Relation

/-!
# Outlines

An outline keeps all of its tree. The links between its entries are those between the cursors, each
told twice, by the parent and by the child; along them one comes from an entry to its own block and
to nothing else; and read back they give the tree.
-/

namespace BannedCalls

namespace Entry

/-- The entry at `i` lists `j` among its children. -/
def Lists (entries : List Entry) (i j : Nat) : Prop :=
  ∃ e, entries[i]? = some e ∧ j ∈ e.children

theorem Lists.of_prefix_drop {xs ys : List Entry} {k i j : Nat} (h : Lists xs i j)
    (hp : xs <+: ys.drop k) : Lists ys (k + i) j := by
  obtain ⟨e, he, hj⟩ := h
  exact ⟨e, Cursor.getElem?_of_prefix_drop he hp, hj⟩

/-- The trees of some entries of which the first stands at `position`. They are read from the end,
so that the children of an entry are there before it. -/
def treesFrom (position : Nat) : List Entry → List Cursor
  | [] => []
  | e :: rest =>
    let below := treesFrom (position + 1) rest
    .node e.info (e.children.filterMap fun j =>
      if position < j then below[j - (position + 1)]? else none) :: below

/-- What is read back from some entries, one tree for each of them. -/
def trees (entries : List Entry) : List Cursor := treesFrom 0 entries

end Entry

namespace Cursor

/-! ## Links -/

mutual

theorem exists_lists (parent : Option Nat) (position : Nat) :
    (c : Cursor) → ∀ j, 0 < j → j < c.size →
      ∃ i < j, Entry.Lists (c.outlineFrom parent position) i (position + j)
  | node info children => by
    intro j hp hj
    obtain ⟨k, rfl⟩ := Nat.exists_eq_add_of_lt hp
    rw [Nat.zero_add] at hp hj ⊢
    rw [outlineFrom]
    have hk : k < sizeAll children := by rw [size] at hj; omega
    have hjk : position + (k + 1) = position + 1 + k := by omega
    rw [hjk]
    rcases exists_listsAll position (position + 1) children k hk with h | ⟨i, hi, h⟩
    · exact ⟨0, hp, _, rfl, h⟩
    · obtain ⟨e, he, hm⟩ := h
      exact ⟨i + 1, by omega, e, he, hm⟩

theorem exists_listsAll (parent position : Nat) :
    (cs : List Cursor) → ∀ j, j < sizeAll cs → position + j ∈ positions position cs ∨
      ∃ i < j, Entry.Lists (outlineAll parent position cs) i (position + j)
  | [] => fun _ hj => absurd hj (Nat.not_lt_zero _)
  | c :: rest => by
    intro j hj
    rw [positions, outlineAll]
    by_cases hc : j < c.size
    · by_cases h0 : j = 0
      · subst h0
        exact Or.inl List.mem_cons_self
      · obtain ⟨i, hi, h⟩ := exists_lists (some parent) position c j (Nat.pos_of_ne_zero h0) hc
        have hl := h.of_prefix_drop (k := 0) (List.prefix_append _
          (outlineAll parent (position + c.size) rest))
        rw [Nat.zero_add] at hl
        exact Or.inr ⟨i, hi, hl⟩
    · obtain ⟨k, rfl⟩ := Nat.exists_eq_add_of_le (Nat.le_of_not_lt hc)
      have hk : k < sizeAll rest := by rw [sizeAll] at hj; omega
      rw [← Nat.add_assoc]
      rcases exists_listsAll parent (position + c.size) rest k hk with h | ⟨i, hi, h⟩
      · exact Or.inl (List.mem_cons_of_mem _ h)
      · have hl := length_outlineFrom (some parent) position c
        refine Or.inr ⟨c.size + i, by omega, h.of_prefix_drop ?_⟩
        exact ⟨[], (List.append_nil _).trans (List.drop_left' hl).symm⟩

end

section
variable {c : Cursor} {i j : Nat} {e : Entry} {n : Node}

/-- What stands behind an entry: the outline of the children that it lists, and their walk. -/
theorem below_at (he : c.outline[i]? = some e) (hn : c.nodes[i]? = some n) :
    e.children = positions (i + 1) n.cursor.children ∧
      outlineAll i (i + 1) n.cursor.children <+: c.outline.drop (i + 1) ∧
      nodesUnderAll (n.info :: n.ancestors) n.cursor.children <+: c.nodes.drop (i + 1) := by
  obtain ⟨hd, hd'⟩ := block_at he hn
  rw [Nat.zero_add, outlineFrom_eq_cons] at hd
  rw [nodesUnder_eq_cons] at hd'
  obtain ⟨hx, ho⟩ := cons_prefix_drop hd he
  exact ⟨(congrArg Entry.children hx).symm, ho, (cons_prefix_drop hd' hn).2⟩

theorem exists_node (he : c.outline[i]? = some e) : ∃ n, c.nodes[i]? = some n := by
  obtain ⟨hi, -⟩ := List.getElem?_eq_some_iff.1 he
  rw [outline, length_outlineFrom, ← length_nodesUnder []] at hi
  exact ⟨_, List.getElem?_eq_getElem hi⟩

/-- An entry lists those that name it as their parent. -/
theorem parent_of_lists (h : Entry.Lists c.outline i j) :
    i < j ∧ ∃ e, c.outline[j]? = some e ∧ e.parent = some i := by
  obtain ⟨e, he, hj⟩ := h
  obtain ⟨n, hn⟩ := exists_node he
  obtain ⟨hc, ho, -⟩ := below_at he hn
  rw [hc] at hj
  have hb := bounds_of_mem_positions hj
  obtain ⟨f, hf, hp⟩ := @parent_of_mem_positions i _ _ _ hj
  have hd := getElem?_of_prefix_drop hf ho
  rw [Nat.add_sub_cancel' hb.1] at hd
  exact ⟨hb.1, f, hd, hp⟩

theorem lists_iff_of_lists (h : Entry.Lists c.outline i j) (k : Nat) :
    Entry.Lists c.outline k j ↔ k = i := by
  constructor
  · intro hk
    obtain ⟨-, e, he, hp⟩ := parent_of_lists h
    obtain ⟨-, f, hf, hq⟩ := parent_of_lists hk
    obtain rfl := Option.some.inj (he.symm.trans hf)
    exact Option.some.inj (hq.symm.trans hp)
  · rintro rfl
    exact h

theorem map_children (he : c.outline[i]? = some e) (hn : c.nodes[i]? = some n) :
    e.children.map (fun j => c.nodes[j]?) =
      n.cursor.children.map fun d => some ⟨d, n.info :: n.ancestors⟩ := by
  obtain ⟨hc, -, later, hl⟩ := below_at he hn
  have hm := map_positions id (n.info :: n.ancestors) (i + 1) n.cursor.children later
  rw [List.map_id, hl] at hm
  rw [hc]
  refine Eq.trans (List.map_congr_left fun j hj => ?_) hm
  rw [List.getElem?_drop, Nat.add_sub_cancel' (bounds_of_mem_positions hj).1]

/-- Along the lists of children one comes from an entry to those of its block. -/
theorem reaches_iff (hn : c.nodes[i]? = some n) (j : Nat) :
    Relation.ReflTransGen (Entry.Lists c.outline) i j ↔ i ≤ j ∧ j < i + n.cursor.size := by
  constructor
  · intro h
    induction h using Relation.ReflTransGen.head_induction_on generalizing n with
    | refl =>
      have := n.cursor.size_pos
      omega
    | head hk _ ih =>
      rename_i i k
      -- The child that comes next is in the block, and so is the whole of its own.
      obtain ⟨hlt, f, hf, -⟩ := parent_of_lists hk
      obtain ⟨m, hm⟩ := exists_node hf
      obtain ⟨e, he, hj⟩ := hk
      rw [(below_at he hn).1] at hj
      have hb := bounds_of_mem_positions hj
      have hs : n.cursor.size = 1 + sizeAll n.cursor.children := by
        cases n.cursor
        rw [size, children]
      have hle := size_le_of_mem_block hn hm (Nat.le_of_lt hlt) (by omega)
      have := ih hm
      omega
  · rintro ⟨hi, hj⟩
    induction j using Nat.strongRecOn with
    | ind j ih =>
      rcases Nat.eq_or_lt_of_le hi with rfl | hlt
      · exact Relation.ReflTransGen.refl
      · obtain ⟨e, he⟩ := exists_entry none 0 hn
        -- In the block an earlier entry lists this one.
        obtain ⟨k, hk, hl⟩ :=
          exists_lists e.parent i n.cursor (j - i) (Nat.sub_pos_of_lt hlt) (by omega)
        have hb := (block_at he hn).1
        rw [Nat.zero_add] at hb
        have hl' := hl.of_prefix_drop hb
        rw [Nat.add_sub_cancel' hi] at hl'
        exact (ih (i + k) (by omega) (by omega) (by omega)).tail hl'

end

/-! ## Reading back -/

theorem filterMap_positions (ancestors : List CursorInfo) (position : Nat)
    (cs later : List Cursor) :
    ((positions (position + 1) cs).filterMap fun j =>
      if position < j then
        ((nodesUnderAll ancestors cs).map Node.cursor ++ later)[j - (position + 1)]?
      else none) = cs := by
  have hm := map_positions Node.cursor ancestors (position + 1) cs later
  have hp : ∀ j ∈ positions (position + 1) cs, position < j :=
    fun _ hj => (bounds_of_mem_positions hj).1
  calc _ = (positions (position + 1) cs).filterMap fun j =>
        ((nodesUnderAll ancestors cs).map Node.cursor ++ later)[j - (position + 1)]? :=
      List.filterMap_congr fun j hj => if_pos (hp j hj)
    _ = (cs.map some).filterMap id := by rw [← hm, List.filterMap_map]; rfl
    _ = cs := by rw [List.filterMap_map]; exact List.filterMap_some

mutual

theorem treesFrom_outlineFrom (parent : Option Nat) (ancestors : List CursorInfo) :
    (c : Cursor) → ∀ (position : Nat) (later : List Entry),
      Entry.treesFrom position (c.outlineFrom parent position ++ later) =
        (c.nodesUnder ancestors).map Node.cursor ++ Entry.treesFrom (position + c.size) later
  | node info children => by
    intro position later
    have hs : position + 1 + sizeAll children = position + (node info children).size := by
      rw [size, Nat.add_assoc]
    rw [outlineFrom, nodesUnder, List.cons_append, Entry.treesFrom,
      treesFrom_outlineAll position (info :: ancestors) children (position + 1) later, hs]
    simp only [filterMap_positions, List.map_cons, List.cons_append]

theorem treesFrom_outlineAll (parent : Nat) (ancestors : List CursorInfo) :
    (cs : List Cursor) → ∀ (position : Nat) (later : List Entry),
      Entry.treesFrom position (outlineAll parent position cs ++ later) =
        (nodesUnderAll ancestors cs).map Node.cursor ++
          Entry.treesFrom (position + sizeAll cs) later
  | [] => fun _ _ => rfl
  | c :: rest => by
    intro position later
    rw [outlineAll, nodesUnderAll, List.append_assoc,
      treesFrom_outlineFrom (some parent) ancestors c,
      treesFrom_outlineAll parent ancestors rest, List.map_append, List.append_assoc, sizeAll,
      Nat.add_assoc]

end

theorem trees_outline (c : Cursor) : Entry.trees c.outline = c.nodes.map Node.cursor := by
  have h := treesFrom_outlineFrom none [] c 0 []
  rwa [List.append_nil, Entry.treesFrom, List.append_nil] at h

/-! ## Encodings -/

/-- Some entries stand for a tree, in the order of its walk and linked as its cursors are. -/
structure EncodedBy (tree : Cursor) (entries : List Entry) : Prop where
  infos : entries.map Entry.info = tree.nodes.map Node.info
  /-- An entry lists the positions of the children of its cursor, in their order. -/
  children : ∀ (i : Nat) (e : Entry) (n : Node), entries[i]? = some e → tree.nodes[i]? = some n →
    e.children.map (fun j => tree.nodes[j]?) =
      n.cursor.children.map fun d => some ⟨d, n.info :: n.ancestors⟩
  /-- No position is listed twice in one list, and none before the entry itself. -/
  increasing : ∀ (i : Nat) (e : Entry), entries[i]? = some e → (i :: e.children).Pairwise (· < ·)
  root : entries[0]?.map Entry.parent = some none
  /-- Every other entry is listed once, by the earlier entry that it names as its parent. -/
  parent : ∀ j, 0 < j → j < entries.length → ∃ i < j,
    entries[j]?.map Entry.parent = some (some i) ∧ ∀ k, Entry.Lists entries k j ↔ k = i
  /-- What lies below an entry follows it without a gap. -/
  block : ∀ (i : Nat) (n : Node), tree.nodes[i]? = some n →
    n.cursor.nodesUnder n.ancestors <+: tree.nodes.drop i ∧
      ∀ j, Relation.ReflTransGen (Entry.Lists entries) i j ↔ i ≤ j ∧ j < i + n.cursor.size
  trees : Entry.trees entries = tree.nodes.map Node.cursor
  tree : (Entry.trees entries).head? = some tree

theorem encodedBy_outline (c : Cursor) : c.EncodedBy c.outline where
  infos := map_info_outlineFrom none 0 [] c
  children _ _ _ he hn := map_children he hn
  increasing i e he := by
    obtain ⟨n, hn⟩ := exists_node he
    rw [(below_at he hn).1]
    refine List.pairwise_cons.2 ⟨fun j hj => ?_, pairwise_positions _ _⟩
    exact (bounds_of_mem_positions hj).1
  root := by rw [outline, outlineFrom_eq_cons]; rfl
  parent j hp hj := by
    rw [outline, length_outlineFrom] at hj
    obtain ⟨i, hi, hl⟩ := exists_lists none 0 c j hp hj
    rw [Nat.zero_add] at hl
    obtain ⟨-, e, he, hpe⟩ := parent_of_lists hl
    exact ⟨i, hi, by rw [he, ← hpe]; rfl, lists_iff_of_lists hl⟩
  block _ _ hn := ⟨nodesUnder_prefix_drop hn, reaches_iff hn⟩
  trees := trees_outline c
  tree := by
    rw [trees_outline, nodes, nodesUnder_eq_cons]
    rfl

end Cursor

namespace Scope

theorem not_keeps_iff (scope : Scope) (info : CursorInfo) :
    ¬ scope.keeps info ↔ ∃ target name, scope.target = some target ∧ target ≠ [] ∧
      info.location.file = some name ∧ name ≠ [] ∧ scope.fileSystem.realPath name ≠ target := by
  unfold keeps keepsFile test
  cases scope.target with
  | none => simp
  | some target =>
    cases info.location.file with
    | none => simp
    | some name =>
      by_cases h : target = [] ∨ name = []
      · rcases h with h | h <;> simp [h]
      · rw [not_or] at h
        simp [h]

/-- Whatever is asked of this memory is answered as without one, and the memory that is there
afterwards is right as well. -/
structure Transparent (scope : Scope) (memory : Memory) : Prop where
  name : ∀ name, (scope.resolveName memory name).1 = scope.fileSystem.realPath name ∧
    scope.Sound (scope.resolveName memory name).2
  cursor : ∀ info, (scope.judge memory info).1 = scope.keeps info ∧
    scope.Sound (scope.judge memory info).2
  tree : ∀ c, (scope.trimWith memory c).1 = c.prune scope.keeps ∧
    scope.Sound (scope.trimWith memory c).2
  trees : ∀ cs, (scope.trimAllWith memory cs).1 = Cursor.pruneAll scope.keeps cs ∧
    scope.Sound (scope.trimAllWith memory cs).2

theorem transparent_of_sound {scope : Scope} {memory : Memory} (h : scope.Sound memory) :
    scope.Transparent memory where
  name := scope.resolveName_eq h
  cursor := scope.judge_eq h
  tree := scope.trimWith_eq h
  trees := scope.trimAllWith_eq h

/-- A walk collects the cursors of a tree that are kept with all their ancestors, in pre-order and
with their kept children. The memory for file names begins right and stays so, and shows in no
answer. If the root is kept, the entries stand for the pruned tree; else there are none. -/
theorem outline_encodes (scope : Scope) (root : Cursor) :
    (∀ info, ¬ scope.keeps info ↔ ∃ target name, scope.target = some target ∧ target ≠ [] ∧
      info.location.file = some name ∧ name ≠ [] ∧ scope.fileSystem.realPath name ≠ target) ∧
    (scope.Sound [] ∧ ∀ memory, scope.Sound memory → scope.Transparent memory) ∧
    scope.nodes root =
      (root.nodes.filter (Node.isKept scope.keeps)).map (Node.trimmed scope.keeps) ∧
    (∀ n : Node, (n.trimmed scope.keeps).cursor.children =
      (n.cursor.children.filter (scope.keeps ·.info)).map (Cursor.pruneBelow scope.keeps)) ∧
    (scope.keeps root.info → root.prune scope.keeps = some (root.pruneBelow scope.keeps) ∧
      scope.nodes root = (root.pruneBelow scope.keeps).nodes ∧
      (root.pruneBelow scope.keeps).EncodedBy (scope.outline root)) ∧
    (¬ scope.keeps root.info → scope.nodes root = [] ∧ scope.outline root = []) := by
  refine ⟨scope.not_keeps_iff, ⟨?_, fun memory h => transparent_of_sound h⟩, scope.nodes_eq root,
    ?_, ?_, ?_⟩
  · intro entry h
    exact absurd h List.not_mem_nil
  · intro n
    exact Cursor.pruneAll_eq scope.keeps n.cursor.children
  · intro h
    refine ⟨Cursor.prune_of_keeps h, nodes_of_keeps h, ?_⟩
    rw [outline, trim_eq, Cursor.prune_of_keeps h]
    exact Cursor.encodedBy_outline _
  · intro h
    refine ⟨nodes_of_not_keeps h, ?_⟩
    rw [outline, trim_eq, Cursor.prune_of_not_keeps h]
    rfl

/-- A cursor of a namespace in `file`. -/
def namespaceCursor (name : Text) (file : Option Text) : List Cursor → Cursor :=
  .node ⟨.other "NAMESPACE", name, ⟨file, 1, 1⟩, ⟨0, 0, 1, 1⟩, []⟩

/-- Cursors of `main.cpp`, one of them under the name of a link, and of a header. -/
def linkedTree : Cursor :=
  namespaceCursor "unit" none [
    namespaceCursor "a" (some "main.cpp") [namespaceCursor "b" (some "alias.cpp") []],
    namespaceCursor "h" (some "f.h") [namespaceCursor "x" (some "main.cpp") []],
    namespaceCursor "c" (some []) [
      namespaceCursor "y" (some "f.h") [], namespaceCursor "d" (some "/work/main.cpp") []]]

/-- The header is left out with all below it, as a part of a tree or as its root. -/
theorem outline_encodes_linked :
    let files : FileSystem := ⟨[], [], [("/work/alias.cpp", "main.cpp")], "/work"⟩
    let scope : Scope := ⟨files, some "/work/main.cpp"⟩
    let memory : Memory := [("alias.cpp", "/work/main.cpp")]
    let header := namespaceCursor "h" (some "f.h") [namespaceCursor "x" (some "main.cpp") []]
    scope.Sound memory ∧ scope.Transparent memory ∧ scope.keeps linkedTree.info ∧
      (linkedTree.pruneBelow scope.keeps).EncodedBy (scope.outline linkedTree) ∧
      (scope.outline linkedTree).map (fun e => (e.info.name, e.parent, e.children)) =
        ([("unit", none, [1, 3]), ("a", some 0, [2]), ("b", some 1, []), ("c", some 0, [4]),
          ("d", some 3, [])] : List (Text × Option Nat × List Nat)) ∧
      ¬ scope.keeps header.info ∧ scope.outline header = [] := by
  intro files scope memory header
  obtain ⟨-, ⟨-, ht⟩, -, -, he, -⟩ := scope.outline_encodes linkedTree
  obtain ⟨-, -, -, -, -, hn⟩ := scope.outline_encodes header
  have hm : scope.Sound memory := by
    intro entry h
    obtain rfl := List.mem_singleton.1 h
    decide +kernel
  have hk : scope.keeps linkedTree.info := rfl
  have hf : ¬ scope.keeps header.info := by decide +kernel
  exact ⟨hm, ht memory hm, hk, (he hk).2.2, by decide +kernel, hf, (hn hf).2⟩

end Scope

end BannedCalls
