import BannedCalls.Source.Walk

/-!
# Blocks of a walk

A cursor and all below it stand together in a walk, and so do their entries in an outline: at its
position stands the block of the cursor, which is its own walk there. Blocks are nested as the
cursors are. The positions that an outline gives for siblings are those of their blocks.
-/

namespace BannedCalls

namespace Cursor

theorem size_pos (c : Cursor) : 0 < c.size := by
  cases c with
  | node info children => rw [size]; omega

theorem length_outlineFrom (parent : Option Nat) (position : Nat) (c : Cursor) :
    (c.outlineFrom parent position).length = c.size := by
  rw [← List.length_map, map_info_outlineFrom parent position [], List.length_map,
    length_nodesUnder]

theorem outlineFrom_eq_cons (parent : Option Nat) (position : Nat) (c : Cursor) :
    c.outlineFrom parent position =
      ⟨c.info, parent, positions (position + 1) c.children⟩ ::
        outlineAll position (position + 1) c.children := by
  cases c with
  | node info children => rw [outlineFrom]; rfl

theorem nodesUnder_eq_cons (ancestors : List CursorInfo) (c : Cursor) :
    c.nodesUnder ancestors = ⟨c, ancestors⟩ :: nodesUnderAll (c.info :: ancestors) c.children := by
  cases c with
  | node info children => rw [nodesUnder]; rfl

/-! ## Positions of siblings -/

theorem bounds_of_mem_positions {position : Nat} {cs : List Cursor} {j : Nat}
    (h : j ∈ positions position cs) : position ≤ j ∧ j < position + sizeAll cs := by
  induction cs generalizing position with
  | nil => exact absurd h List.not_mem_nil
  | cons c rest ih =>
    rw [positions] at h
    rw [sizeAll]
    have := c.size_pos
    rcases List.mem_cons.1 h with rfl | h
    · omega
    · have := ih h
      omega

theorem pairwise_positions (position : Nat) (cs : List Cursor) :
    (positions position cs).Pairwise (· < ·) := by
  induction cs generalizing position with
  | nil => exact List.Pairwise.nil
  | cons c rest ih =>
    rw [positions]
    refine List.pairwise_cons.2 ⟨fun j hj => ?_, ih _⟩
    have := bounds_of_mem_positions hj
    have := c.size_pos
    omega

/-- In a walk of siblings their positions lead to the siblings. -/
theorem map_positions {α : Type} (g : Node → α) (ancestors : List CursorInfo) (position : Nat)
    (cs : List Cursor) (later : List α) :
    ((positions position cs).map fun j =>
      ((nodesUnderAll ancestors cs).map g ++ later)[j - position]?) =
        cs.map fun c => some (g ⟨c, ancestors⟩) := by
  induction cs generalizing position with
  | nil => rfl
  | cons c rest ih =>
    rw [positions, List.map_cons, List.map_cons, nodesUnderAll, Nat.sub_self]
    congr 1
    · rw [nodesUnder_eq_cons]
      rfl
    · rw [← ih (position + c.size)]
      refine List.map_congr_left fun j hj => ?_
      have hle := bounds_of_mem_positions hj
      have hl : ((c.nodesUnder ancestors).map g).length = c.size := by
        rw [List.length_map, length_nodesUnder]
      rw [List.map_append, List.append_assoc, List.getElem?_append_right (by omega), hl,
        Nat.sub_sub]

/-- In an outline of siblings they lead to entries that name the parent. -/
theorem parent_of_mem_positions {parent position : Nat} {cs : List Cursor} {j : Nat}
    (h : j ∈ positions position cs) :
    ∃ e, (outlineAll parent position cs)[j - position]? = some e ∧ e.parent = some parent := by
  induction cs generalizing position with
  | nil => exact absurd h List.not_mem_nil
  | cons c rest ih =>
    rw [positions] at h
    rw [outlineAll]
    rcases List.mem_cons.1 h with rfl | h
    · rw [outlineFrom_eq_cons, Nat.sub_self]
      exact ⟨_, rfl, rfl⟩
    · have hle := bounds_of_mem_positions h
      have hl := length_outlineFrom (some parent) position c
      rw [List.getElem?_append_right (by omega), hl, Nat.sub_sub]
      exact ih h

/-! ## Blocks -/

mutual

/-- At every position stands the block of a cursor, in the outline and in the walk alike. -/
theorem exists_block (parent : Option Nat) (position : Nat) (ancestors : List CursorInfo) :
    (c : Cursor) → ∀ i, i < c.size →
      ∃ (d : Cursor) (parent' : Option Nat) (ancestors' : List CursorInfo),
        d.outlineFrom parent' (position + i) <+: (c.outlineFrom parent position).drop i ∧
          d.nodesUnder ancestors' <+: (c.nodesUnder ancestors).drop i
  | node info children => by
    intro i hi
    cases i with
    | zero => exact ⟨node info children, parent, ancestors, List.prefix_rfl, List.prefix_rfl⟩
    | succ i =>
      have hi' : i < sizeAll children := by rw [size] at hi; omega
      rw [outlineFrom, nodesUnder, List.drop_succ_cons, List.drop_succ_cons, ← Nat.add_assoc,
        Nat.add_right_comm]
      exact exists_blockAll position (position + 1) (info :: ancestors) children i hi'

theorem exists_blockAll (parent position : Nat) (ancestors : List CursorInfo) :
    (cs : List Cursor) → ∀ i, i < sizeAll cs →
      ∃ (d : Cursor) (parent' : Option Nat) (ancestors' : List CursorInfo),
        d.outlineFrom parent' (position + i) <+: (outlineAll parent position cs).drop i ∧
          d.nodesUnder ancestors' <+: (nodesUnderAll ancestors cs).drop i
  | [] => fun _ hi => absurd hi (Nat.not_lt_zero _)
  | c :: rest => by
    intro i hi
    rw [outlineAll, nodesUnderAll]
    have hle := length_outlineFrom (some parent) position c
    have hln := length_nodesUnder ancestors c
    -- The position lies in the block of the first sibling or behind it.
    by_cases hc : i < c.size
    · obtain ⟨d, parent', ancestors', he, hn⟩ :=
        exists_block (some parent) position ancestors c i hc
      rw [List.drop_append_of_le_length (by omega), List.drop_append_of_le_length (by omega)]
      exact ⟨d, parent', ancestors', he.trans (List.prefix_append _ _),
        hn.trans (List.prefix_append _ _)⟩
    · obtain ⟨k, rfl⟩ := Nat.exists_eq_add_of_le (Nat.le_of_not_lt hc)
      have hk : k < sizeAll rest := by rw [sizeAll] at hi; omega
      obtain ⟨d, parent', ancestors', he, hn⟩ :=
        exists_blockAll parent (position + c.size) ancestors rest k hk
      rw [← Nat.add_assoc]
      refine ⟨d, parent', ancestors', ?_, ?_⟩
      · rwa [← hle, List.drop_length_add_append, hle]
      · rwa [← hln, List.drop_length_add_append]

end

theorem cons_prefix_drop {α : Type} {x y : α} {xs ys : List α} {i : Nat}
    (h : x :: xs <+: ys.drop i) (hy : ys[i]? = some y) : x = y ∧ xs <+: ys.drop (i + 1) := by
  obtain ⟨hi, rfl⟩ := List.getElem?_eq_some_iff.1 hy
  rwa [List.drop_eq_getElem_cons hi, List.cons_prefix_cons] at h

theorem getElem?_of_prefix_drop {α : Type} {x : α} {xs ys : List α} {k i : Nat}
    (h : xs[i]? = some x) (hp : xs <+: ys.drop k) : ys[k + i]? = some x := by
  obtain ⟨hi, rfl⟩ := List.getElem?_eq_some_iff.1 h
  rw [← List.getElem?_drop]
  exact List.prefix_iff_getElem?.1 hp i hi

section
variable {parent : Option Nat} {position : Nat} {ancestors : List CursorInfo} {c : Cursor} {i : Nat}
  {e : Entry} {n : Node}

theorem exists_entry (parent : Option Nat) (position : Nat)
    (hn : (c.nodesUnder ancestors)[i]? = some n) :
    ∃ e, (c.outlineFrom parent position)[i]? = some e := by
  obtain ⟨hi, -⟩ := List.getElem?_eq_some_iff.1 hn
  rw [length_nodesUnder, ← length_outlineFrom parent position] at hi
  exact ⟨_, List.getElem?_eq_getElem hi⟩

/-- The block at a position is that of the cursor which stands there. -/
theorem block_at (he : (c.outlineFrom parent position)[i]? = some e)
    (hn : (c.nodesUnder ancestors)[i]? = some n) :
    n.cursor.outlineFrom e.parent (position + i) <+: (c.outlineFrom parent position).drop i ∧
      n.cursor.nodesUnder n.ancestors <+: (c.nodesUnder ancestors).drop i := by
  obtain ⟨hi, -⟩ := List.getElem?_eq_some_iff.1 hn
  rw [length_nodesUnder] at hi
  obtain ⟨d, parent', ancestors', hd, hd'⟩ := exists_block parent position ancestors c i hi
  have hn' : ⟨d, ancestors'⟩ = n := by
    rw [nodesUnder_eq_cons] at hd'
    exact (cons_prefix_drop hd' hn).1
  have he' : ⟨d.info, parent', positions (position + i + 1) d.children⟩ = e := by
    rw [outlineFrom_eq_cons] at hd
    exact (cons_prefix_drop hd he).1
  subst hn' he'
  exact ⟨hd, hd'⟩

theorem nodesUnder_prefix_drop (hn : (c.nodesUnder ancestors)[i]? = some n) :
    n.cursor.nodesUnder n.ancestors <+: (c.nodesUnder ancestors).drop i := by
  obtain ⟨e, he⟩ := exists_entry none 0 hn
  exact (block_at he hn).2

/-- Blocks are nested. -/
theorem size_le_of_mem_block {k : Nat} {m : Node} (hn : (c.nodesUnder ancestors)[i]? = some n)
    (hm : (c.nodesUnder ancestors)[k]? = some m) (hi : i ≤ k) (hk : k < i + n.cursor.size) :
    k + m.cursor.size ≤ i + n.cursor.size := by
  obtain ⟨d, rfl⟩ := Nat.exists_eq_add_of_le hi
  have hd : (n.cursor.nodesUnder n.ancestors)[d]? = some m := by
    obtain ⟨later, hl⟩ := nodesUnder_prefix_drop hn
    rw [← List.getElem?_drop, ← hl, List.getElem?_append_left] at hm
    · exact hm
    · rw [length_nodesUnder]
      omega
  have hs := (nodesUnder_prefix_drop hd).length_le
  rw [List.length_drop, length_nodesUnder, length_nodesUnder] at hs
  omega

end

end Cursor

/-- The same of the walk of a scope. -/
theorem Scope.nodesUnder_prefix_drop {scope : Scope} {root : Cursor} {i : Nat} {n : Node}
    (hn : (scope.nodes root)[i]? = some n) :
    n.cursor.nodesUnder n.ancestors <+: (scope.nodes root).drop i := by
  unfold nodes at hn ⊢
  cases ht : scope.trim root with
  | none => simp [ht] at hn
  | some tree =>
    rw [ht] at hn
    exact Cursor.nodesUnder_prefix_drop hn

end BannedCalls
