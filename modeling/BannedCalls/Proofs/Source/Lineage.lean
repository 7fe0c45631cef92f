import BannedCalls.Proofs.Source.Outline

/-!
# Lineages

Above every entry of an outline stands a single line of entries, each among the children of the
next, that ends with the root. These are the ancestors with which a walk meets the cursor, nearest
first. One comes along the line by asking each entry for its parent.
-/

namespace BannedCalls

namespace Entry

/-- The positions above an entry, nearest first: each entry is listed by the next, and the last is
that of the root. -/
structure Lineage (entries : List Entry) (i : Nat) (above : List Nat) : Prop where
  listed : (i :: above).IsChain fun child parent => Lists entries parent child
  last : (i :: above).getLast? = some 0

/-- The positions that one comes by from an entry to its parent, to the parent of that, and so on,
at most `limit` of them. -/
def climb (entries : List Entry) : Nat → Nat → List Nat
  | 0, _ => []
  | limit + 1, i =>
    match entries[i]?.bind Entry.parent with
    | none => []
    | some j => j :: climb entries limit j

end Entry

namespace Cursor

variable {c : Cursor} {i j : Nat} {n : Node} {above : List Nat}

theorem parent_bind_of_lists (h : Entry.Lists c.outline j i) :
    c.outline[i]?.bind Entry.parent = some j := by
  obtain ⟨-, e, he, hp⟩ := parent_of_lists h
  rw [he, Option.bind_some, hp]

theorem parent_bind_zero (c : Cursor) : c.outline[0]?.bind Entry.parent = none := by
  rw [outline, outlineFrom_eq_cons]
  rfl

/-- What stands above an entry: nothing above the root, and else its parent with all above that. -/
theorem lineage_cases (h : Entry.Lineage c.outline i above) :
    (i = 0 ∧ above = []) ∨ ∃ j rest, above = j :: rest ∧ j < i ∧
      Entry.Lists c.outline j i ∧ Entry.Lineage c.outline j rest := by
  obtain ⟨hc, hl⟩ := h
  cases above with
  | nil => exact Or.inl ⟨Option.some.inj hl, rfl⟩
  | cons j rest =>
    obtain ⟨hj, hc⟩ := List.isChain_cons_cons.1 hc
    rw [List.getLast?_cons_cons] at hl
    exact Or.inr ⟨j, rest, rfl, (parent_of_lists hj).1, hj, hc, hl⟩

theorem lineage_unique {other : List Nat} (h : Entry.Lineage c.outline i above)
    (ho : Entry.Lineage c.outline i other) : other = above := by
  induction above generalizing i other with
  | nil =>
    rcases lineage_cases h with ⟨rfl, -⟩ | ⟨j, rest, hr, -⟩
    · rcases lineage_cases ho with ⟨-, ho⟩ | ⟨j, rest, -, hj, -⟩
      · exact ho
      · exact absurd hj (Nat.not_lt_zero j)
    · exact absurd hr (List.cons_ne_nil j rest).symm
  | cons j rest ih =>
    rcases lineage_cases h with ⟨-, hr⟩ | ⟨k, above, hr, hki, hk, hrest⟩
    · exact absurd hr (List.cons_ne_nil j rest)
    · obtain ⟨rfl, rfl⟩ := List.cons.inj hr
      rcases lineage_cases ho with ⟨rfl, -⟩ | ⟨l, rest', rfl, -, hl, hrest'⟩
      · exact absurd hki (Nat.not_lt_zero j)
      · obtain rfl := (lists_iff_of_lists hk l).1 hl
        rw [ih hrest hrest']

theorem climb_eq_take (h : Entry.Lineage c.outline i above) (limit : Nat) :
    Entry.climb c.outline limit i = above.take limit := by
  induction limit generalizing i above with
  | zero => rfl
  | succ limit ih =>
    rcases lineage_cases h with ⟨rfl, rfl⟩ | ⟨j, rest, rfl, -, hj, hrest⟩
    · rw [Entry.climb, parent_bind_zero]
      rfl
    · rw [Entry.climb, parent_bind_of_lists hj, List.take_succ_cons]
      exact congrArg _ (ih hrest)

/-- A walk meets a cursor with the cursors of its lineage as its ancestors. -/
theorem exists_lineage (hn : c.nodes[i]? = some n) :
    ∃ above, Entry.Lineage c.outline i above ∧
      above.map (fun j => c.nodes[j]?.map Node.info) = n.ancestors.map some := by
  -- A parent stands in front of its children.
  induction i using Nat.strongRecOn generalizing n with
  | ind i ih =>
    rcases Nat.eq_zero_or_pos i with rfl | hi
    · obtain rfl : (⟨c, []⟩ : Node) = n := by
        rw [nodes, nodesUnder_eq_cons] at hn
        exact Option.some.inj hn
      exact ⟨[], ⟨List.IsChain.singleton _, rfl⟩, rfl⟩
    · have hlt : i < c.size := by
        obtain ⟨hlt, -⟩ := List.getElem?_eq_some_iff.1 hn
        rwa [nodes, length_nodesUnder] at hlt
      obtain ⟨j, hj, hl⟩ := exists_lists none 0 c i hi hlt
      rw [Nat.zero_add] at hl
      obtain ⟨e, he, hm⟩ := hl
      obtain ⟨parent, hp⟩ := exists_node he
      obtain ⟨above, ⟨hc, hlast⟩, ha⟩ := ih j hj hp
      have hk : c.nodes[i]? ∈ e.children.map fun k => c.nodes[k]? := List.mem_map_of_mem hm
      rw [map_children he hp, hn] at hk
      obtain ⟨d, -, hd⟩ := List.mem_map.1 hk
      obtain rfl := Option.some.inj hd
      refine ⟨j :: above, ⟨List.isChain_cons_cons.2 ⟨⟨e, he, hm⟩, hc⟩, ?_⟩, ?_⟩
      · rwa [List.getLast?_cons_cons]
      · rw [List.map_cons, ha, hp]
        rfl

end Cursor

namespace Scope

/-- The same of the walk of a scope. -/
theorem exists_lineage {scope : Scope} {root : Cursor} {i : Nat} {n : Node}
    (hn : (scope.nodes root)[i]? = some n) :
    ∃ above, Entry.Lineage (scope.outline root) i above ∧
      (∀ other, Entry.Lineage (scope.outline root) i other → other = above) ∧
      (∀ limit, Entry.climb (scope.outline root) limit i = above.take limit) ∧
      above.map (fun j => (scope.nodes root)[j]?.map Node.info) = n.ancestors.map some := by
  unfold nodes at hn ⊢
  unfold outline
  cases ht : scope.trim root with
  | none => simp [ht] at hn
  | some tree =>
    rw [ht] at hn
    obtain ⟨above, hl, ha⟩ := Cursor.exists_lineage hn
    exact ⟨above, hl, fun other => Cursor.lineage_unique hl, Cursor.climb_eq_take hl, ha⟩

end Scope

end BannedCalls
