import BannedCalls.Proofs.Analysis.Findings
import BannedCalls.Proofs.Call.Wrappers

/-!
# The order of siblings

The children of any cursor may stand in another order, as long as the first kept child of a call
stays the first. Then every call keeps its callee, and what is found is the same up to its order.
-/

namespace BannedCalls

namespace Cursor

/-- The second tree is the first with siblings in another order, here and below. Of the children of
a call that are kept the same one is first. What is below a foreign cursor does not matter. -/
inductive Reordered (keeps : CursorInfo → Bool) : Cursor → Cursor → Prop
  | node {info : CursorInfo} {cs ds es : List Cursor} (h : List.Forall₂ (Reordered keeps) cs ds)
      (hp : ds.Perm es)
      (hf : info.kind = .callExpr → es.find? (keeps ·.info) = ds.find? (keeps ·.info)) :
      Reordered keeps (node info cs) (node info es)
  | foreign {info : CursorInfo} {cs es : List Cursor} (h : ¬ keeps info) :
      Reordered keeps (node info cs) (node info es)

variable {keeps : CursorInfo → Bool}

theorem Reordered.info_eq {c d : Cursor} (h : Reordered keeps c d) : d.info = c.info := by
  cases h <;> rfl

mutual

theorem Reordered.refl (keeps : CursorInfo → Bool) : (c : Cursor) → Reordered keeps c c
  | node _ cs => .node (forall₂_reordered_refl keeps cs) (.refl cs) fun _ => rfl

theorem forall₂_reordered_refl (keeps : CursorInfo → Bool) :
    (cs : List Cursor) → List.Forall₂ (Reordered keeps) cs cs
  | [] => .nil
  | c :: rest => .cons (Reordered.refl keeps c) (forall₂_reordered_refl keeps rest)

end

/-! ## Without the foreign cursors -/

theorem find?_pruneAll (cs : List Cursor) :
    (pruneAll keeps cs).find? (fun _ => true) =
      (cs.find? (keeps ·.info)).map (Cursor.pruneBelow keeps) := by
  simp [pruneAll_eq]

mutual

theorem Reordered.pruneBelow : (c : Cursor) → {d : Cursor} → Reordered keeps c d → keeps c.info →
    Reordered (fun _ => true) (c.pruneBelow keeps) (d.pruneBelow keeps)
  | node info cs, _, h, hk => by
    cases h with
    | foreign h => exact absurd hk h
    | @node _ _ ds es h hp hf =>
      have hp' : (pruneAll keeps ds).Perm (pruneAll keeps es) := by
        rw [pruneAll_eq, pruneAll_eq]
        exact (hp.filter _).map _
      rw [pruneBelow_node, pruneBelow_node]
      refine .node (forall₂_pruneAll cs h) hp' fun hc => ?_
      rw [find?_pruneAll, find?_pruneAll, hf hc]

theorem forall₂_pruneAll : (cs : List Cursor) → {ds : List Cursor} →
    List.Forall₂ (Reordered keeps) cs ds →
    List.Forall₂ (Reordered fun _ => true) (pruneAll keeps cs) (pruneAll keeps ds)
  | [], _, .nil => .nil
  | c :: cs, d :: ds, .cons h hs => by
    have hs' := forall₂_pruneAll cs hs
    by_cases hk : keeps c.info
    · rw [pruneAll_cons_of_keeps hk, pruneAll_cons_of_keeps (by rwa [h.info_eq])]
      exact .cons (Reordered.pruneBelow c h hk) hs'
    · rw [pruneAll_cons_of_not_keeps hk, pruneAll_cons_of_not_keeps (by rwa [h.info_eq])]
      exact hs'

end

/-! ## Call sites -/

theorem Reordered.map_unwrap {c d : Cursor} (h : Reordered (fun _ => true) c d) :
    d.unwrap.map (·.1.info) = c.unwrap.map (·.1.info) := by
  induction c using wrapper_induction generalizing d with
  | node info cs ih =>
    cases h with
    | foreign h => exact absurd rfl h
    | @node _ _ ds es h hp hf =>
      -- Only a single child is unwrapped, and that has no other order.
      have hl : es.length = cs.length := hp.length_eq.symm.trans h.length_eq.symm
      refine map_unwrap_congr hl fun _ c e hc he => ?_
      subst hc he
      obtain rfl := List.perm_singleton.1 hp
      cases h with
      | cons h hs => exact ⟨by rw [h.info_eq], ih c rfl h⟩

theorem Reordered.site {info : CursorInfo} {cs es : List Cursor}
    (h : Reordered (fun _ => true) (Cursor.node info cs) (Cursor.node info es))
    (hk : info.kind = .callExpr) : (Cursor.node info es).site = (Cursor.node info cs).site := by
  cases h with
  | foreign h => exact absurd rfl h
  | @node _ _ ds es h hp hf =>
    have hh := hf hk
    cases h with
    | nil => rw [hp.nil_eq]
    | @cons c d cs ds h hs =>
      cases es with
      | nil => simp at hp
      | cons e es =>
        obtain rfl : e = d := by simpa using hh
        exact congrArg (CallSite.mk info) h.map_unwrap

mutual

theorem Reordered.sites : (c : Cursor) → {d : Cursor} → Reordered (fun _ => true) c d →
    ∀ ancestors, (Node.sites (d.nodesUnder ancestors)).Perm (Node.sites (c.nodesUnder ancestors))
  | node info cs, _, h, ancestors => by
    cases h with
    | foreign h => exact absurd rfl h
    | @node _ _ ds es h hp hf =>
      have hs := Reordered.site (.node h hp hf)
      have hd : (Node.sites (nodesUnderAll (info :: ancestors) es)).Perm
          (Node.sites (nodesUnderAll (info :: ancestors) ds)) := by
        rw [Node.sites_nodesUnderAll, Node.sites_nodesUnderAll]
        exact hp.symm.flatMap_right _
      have hc := hd.trans (sites_perm_of_forall₂ cs h (info :: ancestors))
      rw [Node.sites_nodesUnder, Node.sites_nodesUnder]
      by_cases hk : info.kind = .callExpr
      · rw [if_pos hk, if_pos hk, hs hk]
        exact hc.append_left _
      · rw [if_neg hk, if_neg hk]
        exact hc

theorem sites_perm_of_forall₂ : (cs : List Cursor) → {ds : List Cursor} →
    List.Forall₂ (Reordered fun _ => true) cs ds → ∀ ancestors,
      (Node.sites (nodesUnderAll ancestors ds)).Perm (Node.sites (nodesUnderAll ancestors cs))
  | [], _, .nil, _ => .nil
  | c :: cs, d :: ds, .cons h hs, ancestors => by
    rw [nodesUnderAll, nodesUnderAll, Node.sites_append, Node.sites_append]
    exact (Reordered.sites c h ancestors).append (sites_perm_of_forall₂ cs hs ancestors)

end

end Cursor

/-- Siblings in another order leave every call with its data and its callee's, and change nothing in
what any list finds but the order. -/
theorem Scope.run_nodes_of_reordered {scope : Scope} {root root' : Cursor}
    (h : Cursor.Reordered scope.keeps root root') (list : BanList) :
    (Node.sites (scope.nodes root')).Perm (Node.sites (scope.nodes root)) ∧
      (list.engine.run (scope.nodes root')).Perm (list.engine.run (scope.nodes root)) := by
  have hs : (Node.sites (scope.nodes root')).Perm (Node.sites (scope.nodes root)) := by
    by_cases hr : scope.keeps root.info
    · rw [nodes_of_keeps hr, nodes_of_keeps (by rwa [h.info_eq])]
      exact Cursor.Reordered.sites _ (h.pruneBelow root hr) []
    · rw [nodes_of_not_keeps hr, nodes_of_not_keeps (by rwa [h.info_eq])]
  obtain ⟨found, hf⟩ := list.exists_run_eq_flatMap_sites
  rw [hf, hf]
  exact ⟨hs, hs.flatMap_right found⟩

/-- Two statements change places. In the call of the first, which has a header's call for its first
child, that child moves behind the callee. -/
theorem Scope.run_nodes_of_reordered_nested :
    let scope : Scope := ⟨nestedHost.fileSystem, some "/work/main.cpp"⟩
    let list : BanList := ⟨[⟨"a", "b"⟩, ⟨"c", "d"⟩]⟩
    let call := nestedCall "main.cpp"
    let header := nestedCall "h.h"
    let header' : Cursor := .node header.info header.children.reverse
    let root : Cursor :=
      .node nestedRoot.info (.node call.info (header :: call.children) :: call.children.tail)
    let root' : Cursor :=
      .node nestedRoot.info (call.children.tail ++ [.node call.info (call.children ++ [header'])])
    Cursor.Reordered scope.keeps root root' ∧
      (list.engine.run (scope.nodes root')).Perm (list.engine.run (scope.nodes root)) ∧
      (list.engine.run (scope.nodes root)).map Finding.start = [0, 4, 4] ∧
      (list.engine.run (scope.nodes root')).map Finding.start = [4, 0, 4] := by
  intro scope list call header header' root root'
  have hh : ¬ scope.keeps header.info := by decide +kernel
  have hh' : scope.keeps header'.info = false := Bool.eq_false_iff.2 hh
  have hr : Cursor.Reordered scope.keeps (.node call.info (header :: call.children))
      (.node call.info (call.children ++ [header'])) := by
    have hm : List.Forall₂ (Cursor.Reordered scope.keeps) (header :: call.children)
        (header' :: call.children) :=
      .cons (.foreign hh) (Cursor.forall₂_reordered_refl _ _)
    refine .node hm (List.perm_append_singleton header' call.children).symm fun _ => ?_
    simp [List.find?_append, hh']
  have hw : Cursor.Reordered scope.keeps root root' :=
    .node (.cons hr (Cursor.forall₂_reordered_refl _ _))
      (List.perm_append_singleton _ call.children.tail).symm fun hk => absurd hk (by decide)
  refine ⟨hw, (run_nodes_of_reordered hw list).2, ?_, ?_⟩
  · decide +kernel
  · decide +kernel

end BannedCalls
