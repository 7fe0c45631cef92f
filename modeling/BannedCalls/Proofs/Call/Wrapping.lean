import BannedCalls.Proofs.Analysis.Findings
import BannedCalls.Proofs.Call.Wrappers

/-!
# Wrappers put in

Wrappers may be put in above the cursors on the path from a call to its callee. A wrapper that has
the offsets of what it wraps, and no other child, is taken off again when the callee is looked for.
So the calls of the tree keep their sites, and nothing changes in what is found.
-/

namespace BannedCalls

theorem Extent.sameOffsets_congr {a b : Extent} (h : a.sameOffsets b) (e : Extent) :
    b.sameOffsets e = a.sameOffsets e := by
  obtain ⟨hs, he⟩ : a.start = b.start ∧ a.stop = b.stop := by simpa [sameOffsets] using h
  simp only [sameOffsets, hs, he]

namespace Cursor

/-- Whether the first kept child of a cursor is on the path to a callee: the cursor is a call, or it
is a wrapper on such a path and keeps no other child. -/
def leadsOn (keeps : CursorInfo → Bool) (onPath : Bool) (info : CursorInfo)
    (children : List Cursor) : Bool :=
  info.kind = .callExpr ||
    onPath && info.kind = .unexposedExpr && (children.filter (keeps ·.info)).length = 1

mutual

/-- The second tree is the first with wrappers put in above kept cursors on the path to a callee,
any number of them above each, and kept themselves. The flag says whether the root is on such a
path. -/
inductive Wrapped (keeps : CursorInfo → Bool) : Bool → Cursor → Cursor → Prop
  | node {onPath : Bool} {info : CursorInfo} {cs ds : List Cursor}
      (h : WrappedAll keeps (leadsOn keeps onPath info cs) cs ds) :
      Wrapped keeps onPath (node info cs) (node info ds)
  | wrap {onPath : Bool} {info : CursorInfo} {c d : Cursor} (hp : onPath) (hk : keeps info)
      (hu : info.kind = .unexposedExpr) (hs : c.info.extent.sameOffsets info.extent)
      (h : Wrapped keeps onPath c d) : Wrapped keeps onPath c (node info [d])

/-- The same for siblings. The flag says whether the first of them that is kept is on the path to a
callee. -/
inductive WrappedAll (keeps : CursorInfo → Bool) : Bool → List Cursor → List Cursor → Prop
  | nil {onPath : Bool} : WrappedAll keeps onPath [] []
  | cons {onPath : Bool} {c d : Cursor} {cs ds : List Cursor}
      (h : Wrapped keeps (onPath && keeps c.info) c d)
      (hs : WrappedAll keeps (onPath && !keeps c.info) cs ds) :
      WrappedAll keeps onPath (c :: cs) (d :: ds)

end

variable {keeps : CursorInfo → Bool}

mutual

theorem Wrapped.refl (keeps : CursorInfo → Bool) (onPath : Bool) :
    (c : Cursor) → Wrapped keeps onPath c c
  | node _ cs => .node (WrappedAll.refl keeps _ cs)

theorem WrappedAll.refl (keeps : CursorInfo → Bool) (onPath : Bool) :
    (cs : List Cursor) → WrappedAll keeps onPath cs cs
  | [] => .nil
  | c :: rest => .cons (Wrapped.refl keeps _ c) (WrappedAll.refl keeps _ rest)

end

theorem WrappedAll.length_eq : {onPath : Bool} → {cs ds : List Cursor} →
    WrappedAll keeps onPath cs ds → ds.length = cs.length
  | _, _, _, .nil => rfl
  | _, _, _, .cons _ hs => congrArg Nat.succ hs.length_eq

/-! ## Without the foreign cursors -/

theorem leadsOn_pruneAll (onPath : Bool) (info : CursorInfo) (cs : List Cursor) :
    leadsOn (fun _ => true) onPath info (pruneAll keeps cs) = leadsOn keeps onPath info cs := by
  simp [leadsOn, pruneAll_eq]

mutual

/-- A wrapper above a kept cursor is kept, so that pruning leaves wrappers put in. -/
theorem Wrapped.pruneBelow : {onPath : Bool} → {c d : Cursor} → Wrapped keeps onPath c d →
    (onPath → keeps c.info) → keeps d.info = keeps c.info ∧
      Wrapped (fun _ => true) onPath (c.pruneBelow keeps) (d.pruneBelow keeps)
  | _, _, _, .node h, _ => by
    refine ⟨rfl, .node ?_⟩
    rw [leadsOn_pruneAll]
    exact h.pruneAll
  | _, _, _, .wrap hp hk hu hs h, hc => by
    obtain ⟨hd, h⟩ := h.pruneBelow hc
    refine ⟨hk.trans (hc hp).symm, ?_⟩
    rw [pruneBelow_node, pruneAll_cons_of_keeps (hd.trans (hc hp))]
    exact .wrap hp rfl hu hs h

theorem WrappedAll.pruneAll : {onPath : Bool} → {cs ds : List Cursor} →
    WrappedAll keeps onPath cs ds →
    WrappedAll (fun _ => true) onPath (pruneAll keeps cs) (pruneAll keeps ds)
  | _, _, _, .nil => .nil
  | _, c :: cs, d :: ds, .cons h hs => by
    obtain ⟨hd, h⟩ := h.pruneBelow fun hp => (Bool.and_eq_true_iff.1 hp).2
    have hs := hs.pruneAll
    by_cases hk : keeps c.info
    · rw [pruneAll_cons_of_keeps hk, pruneAll_cons_of_keeps (hd.trans hk)]
      rw [hk] at h hs
      exact .cons h hs
    · rw [pruneAll_cons_of_not_keeps hk, pruneAll_cons_of_not_keeps (by rwa [hd])]
      rwa [Bool.eq_false_iff.2 hk, Bool.not_false, Bool.and_true] at hs

end

/-! ## Call sites -/

theorem Wrapped.sameOffsets {onPath : Bool} {c d : Cursor} (h : Wrapped keeps onPath c d)
    (e : Extent) : d.info.extent.sameOffsets e = c.info.extent.sameOffsets e := by
  cases h with
  | node h => rfl
  | wrap hp hk hu hs h => exact Extent.sameOffsets_congr hs e

/-- Unwrapping takes off the wrappers that were put in together with those that were there. -/
theorem Wrapped.map_unwrap {c d : Cursor} (h : Wrapped (fun _ => true) true c d) :
    d.unwrap.map (·.1.info) = c.unwrap.map (·.1.info) := by
  induction d using wrapper_induction generalizing c with
  | node info ds ih =>
    cases h with
    | wrap hp hk hu hs h =>
      -- Offsets pass from the wrapped cursor of the first tree to whatever stands above it by now.
      rw [unwrap_singleton hu (by rwa [h.sameOffsets]), Option.map_map]
      exact ih _ rfl h
    | @node _ _ cs _ h =>
      refine map_unwrap_congr h.length_eq fun hu c d hc hd => ?_
      subst hc hd
      have hl : leadsOn (fun _ => true) true info [c] = true := by simp [leadsOn, hu]
      rw [hl] at h
      cases h with
      | cons h hs => exact ⟨h.sameOffsets info.extent, ih d rfl h⟩

theorem WrappedAll.site {onPath : Bool} {info : CursorInfo} {cs ds : List Cursor}
    (hk : info.kind = .callExpr)
    (h : WrappedAll (fun _ => true) (leadsOn (fun _ => true) onPath info cs) cs ds) :
    (node info ds).site = (node info cs).site := by
  have hl : leadsOn (fun _ => true) onPath info cs = true := by simp [leadsOn, hk]
  rw [hl] at h
  cases h with
  | nil => rfl
  | cons h hs => exact congrArg (CallSite.mk info) h.map_unwrap

mutual

theorem Wrapped.sites : {onPath : Bool} → {c d : Cursor} → Wrapped (fun _ => true) onPath c d →
    ∀ ancestors ancestors', Node.sites (d.nodesUnder ancestors') =
      Node.sites (c.nodesUnder ancestors)
  | _, node info cs, node _ ds, .node h, ancestors, ancestors' => by
    rw [Node.sites_nodesUnder, Node.sites_nodesUnder,
      h.sites (info :: ancestors) (info :: ancestors')]
    congr 1
    by_cases hk : info.kind = .callExpr
    · rw [if_pos hk, if_pos hk, h.site hk]
    · rw [if_neg hk, if_neg hk]
  | _, c, node info [d], .wrap hp hk hu hs h, ancestors, ancestors' => by
    -- A wrapper is no call. It only adds an ancestor, of which no site knows.
    have hc : info.kind ≠ .callExpr := by simp [hu]
    rw [Node.sites_nodesUnder, if_neg hc, List.nil_append, Node.sites_nodesUnderAll,
      List.flatMap_singleton]
    exact h.sites ancestors (info :: ancestors')

theorem WrappedAll.sites : {onPath : Bool} → {cs ds : List Cursor} →
    WrappedAll (fun _ => true) onPath cs ds → ∀ ancestors ancestors',
      Node.sites (nodesUnderAll ancestors' ds) = Node.sites (nodesUnderAll ancestors cs)
  | _, _, _, .nil, _, _ => rfl
  | _, c :: cs, d :: ds, .cons h hs, ancestors, ancestors' => by
    rw [nodesUnderAll, nodesUnderAll, Node.sites_append, Node.sites_append,
      h.sites ancestors ancestors', hs.sites ancestors ancestors']

end

end Cursor

/-- Wrappers that are put in leave every call with its data and its callee's, in the same order, and
change nothing in what any list finds. -/
theorem Scope.run_nodes_of_wrapped {scope : Scope} {root root' : Cursor}
    (h : Cursor.Wrapped scope.keeps false root root') (list : BanList) :
    Node.sites (scope.nodes root') = Node.sites (scope.nodes root) ∧
      list.engine.run (scope.nodes root') = list.engine.run (scope.nodes root) := by
  obtain ⟨hk, hw⟩ := h.pruneBelow fun hp => absurd hp Bool.false_ne_true
  have hs : Node.sites (scope.nodes root') = Node.sites (scope.nodes root) := by
    by_cases hr : scope.keeps root.info
    · rw [nodes_of_keeps hr, nodes_of_keeps (hk.trans hr)]
      exact hw.sites [] []
    · rw [nodes_of_not_keeps hr, nodes_of_not_keeps (by rwa [hk])]
  obtain ⟨found, hf⟩ := list.exists_run_eq_flatMap_sites
  exact ⟨hs, by rw [hf, hf, hs]⟩

/-! ## Wrappers at both calls of a line -/

/-- A wrapper in `file`, over the same text as what it wraps. -/
def Cursor.wrapIn (file : Option Text) (c : Cursor) : Cursor :=
  .node ⟨.unexposedExpr, [], ⟨file, 1, 1⟩, c.info.extent, []⟩ [c]

/-- The tree of `nestedCall`, with two wrappers above the outer callee, one above the wrapper of the
inner callee, and one inside it. -/
def wrappedCall (file : Text) : Cursor :=
  let place : Location := ⟨some file, 1, 1⟩
  let inner := nestedTokens.drop 4
  let outerCallee : Cursor :=
    .node ⟨.memberRefExpr, "b", place, ⟨0, 3, 1, 1⟩, nestedTokens.take 3⟩ []
  let innerCallee : Cursor := .node ⟨.memberRefExpr, "d", place, ⟨4, 7, 1, 5⟩, inner.take 3⟩ []
  .node ⟨.callExpr, "b", place, ⟨0, 10, 1, 1⟩, nestedTokens⟩ [
    (outerCallee.wrapIn none).wrapIn (some file),
    .node ⟨.callExpr, "d", place, ⟨4, 9, 1, 5⟩, inner.take 5⟩ [
      Cursor.wrapIn (some []) (.node ⟨.unexposedExpr, "d", place, ⟨4, 7, 1, 5⟩, inner.take 3⟩ [
        innerCallee.wrapIn none])]]

theorem Cursor.Wrapped.wrapIn {keeps : CursorInfo → Bool} {onPath : Bool} {file : Option Text}
    {c d : Cursor} (hp : onPath)
    (hk : keeps ⟨.unexposedExpr, [], ⟨file, 1, 1⟩, d.info.extent, []⟩)
    (h : Wrapped keeps onPath c d) : Wrapped keeps onPath c (d.wrapIn file) := by
  refine .wrap hp hk rfl ?_ h
  rw [← h.sameOffsets]
  simp [Extent.sameOffsets]

theorem Scope.run_nodes_of_wrapped_nested :
    let scope : Scope := ⟨nestedHost.fileSystem, some "/work/main.cpp"⟩
    let list : BanList := ⟨[⟨"a", "b"⟩, ⟨"c", "d"⟩]⟩
    let call := nestedCall "main.cpp"
    let call' := wrappedCall "main.cpp"
    (scope.nodes call).length = 5 ∧ (scope.nodes call').length = 9 ∧
      Cursor.Wrapped scope.keeps false call call' ∧
      list.engine.run (scope.nodes call') = list.engine.run (scope.nodes call) ∧
      (list.engine.run (scope.nodes call')).map Finding.start = [0, 4] := by
  intro scope list call call'
  have hw : Cursor.Wrapped scope.keeps false call call' := by
    refine .node (.cons (.wrapIn ?_ ?_ (.wrapIn ?_ ?_ (.refl _ _ _))) (.cons (.node (.cons
      (.wrapIn ?_ ?_ (.node (.cons (.wrapIn ?_ ?_ (.refl _ _ _)) .nil))) .nil)) .nil))
    all_goals decide +kernel
  refine ⟨by decide +kernel, by decide +kernel, hw, (run_nodes_of_wrapped hw list).2, ?_⟩
  decide +kernel

end BannedCalls
