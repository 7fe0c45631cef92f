import BannedCalls.Proofs.Call.Reports
import BannedCalls.Proofs.Call.Wrappers
import BannedCalls.Proofs.Source.Kept
import Mathlib.Data.List.Flatten
import Mathlib.Data.List.Perm.Subperm

/-!
# Calls seen through a scope

The engine sees a call as the walk of its scope left it. What the rule finds at a call depends on
the call itself and on its callee only, so leaving out foreign cursors matters where it changes the
callee: where the first child of the call is foreign, so that another child takes its place, or
where a wrapper of several cursors is left with one. At every other call the scope finds nothing
that the whole tree does not show.
-/

namespace BannedCalls

namespace Cursor

variable {keeps : CursorInfo → Bool}

/-- Whether a call's callee is looked for in the same child when the foreign cursors are left out:
the first child stays, and every wrapper on the way wraps a single cursor. -/
def calleeStays (keeps : CursorInfo → Bool) (call : Cursor) : Bool :=
  match call.children with
  | [] => false
  | first :: _ => keeps first.info && first.unwrap.isSome

/-- The callee that is found without the foreign cursors is the one of the whole tree, below the
same first child. -/
def SharesCallee (keeps : CursorInfo → Bool) (call : Cursor) : Prop :=
  ∃ first rest found, call.children = first :: rest ∧ keeps first.info ∧
    call.callee? = some found ∧
    (call.pruneBelow keeps).callee? = some (found.1.pruneBelow keeps, found.2)

theorem unwrap_pruneBelow (c : Cursor) {found found' : Cursor × Nat} (h : c.unwrap = some found)
    (h' : (c.pruneBelow keeps).unwrap = some found') :
    found' = (found.1.pruneBelow keeps, found.2) := by
  induction c using wrapper_induction generalizing found found' with
  | node info children ih =>
    by_cases hk : info.kind = .unexposedExpr
    · obtain ⟨inner, rfl, hs⟩ := eq_singleton_of_unwrap hk h
      rw [unwrap_singleton hk hs] at h
      obtain ⟨below, hb, rfl⟩ := Option.map_eq_some_iff.1 h
      rw [pruneBelow_node, pruneAll, pruneAll] at h'
      by_cases hi : keeps inner.info
      · rw [prune_of_keeps hi] at h'
        have hs' : (inner.pruneBelow keeps).info.extent.sameOffsets info.extent := hs
        have hu := h'.symm.trans (unwrap_singleton hk hs')
        obtain ⟨below', hb', rfl⟩ := Option.map_eq_some_iff.1 hu.symm
        rw [ih inner rfl hb hb']
      · simp [prune_of_not_keeps hi, unwrap_of_length_ne_one hk] at h'
    · rw [unwrap_of_not_unexposed hk] at h
      obtain rfl := Option.some.inj h
      rw [pruneBelow_node, unwrap_of_not_unexposed hk] at h'
      exact (Option.some.inj h').symm

/-- Where the callee stays it is the same cursor in both trees, as far as there is one. -/
theorem callee?_pruneBelow {call : Cursor} (hs : call.calleeStays keeps) {found' : Cursor × Nat}
    (h' : (call.pruneBelow keeps).callee? = some found') :
    ∃ found, call.callee? = some found ∧ found' = (found.1.pruneBelow keeps, found.2) := by
  obtain ⟨info, children⟩ := call
  cases children with
  | nil => simp [calleeStays, Cursor.children] at hs
  | cons first rest =>
    simp only [calleeStays, Cursor.children, Bool.and_eq_true] at hs
    obtain ⟨found, hf⟩ := Option.isSome_iff_exists.1 hs.2
    refine ⟨found, hf, first.unwrap_pruneBelow hf ?_⟩
    simpa only [pruneBelow, Cursor.info, Cursor.children, pruneAll, prune_of_keeps hs.1,
      callee?] using h'

theorem calleeStays_iff {call : Cursor} {found' : Cursor × Nat}
    (h' : (call.pruneBelow keeps).callee? = some found') :
    call.calleeStays keeps ↔ call.SharesCallee keeps := by
  constructor
  · intro hs
    obtain ⟨found, hf, rfl⟩ := callee?_pruneBelow hs h'
    cases hc : call.children with
    | nil => simp [callee?, hc] at hf
    | cons first rest =>
      simp only [calleeStays, hc, Bool.and_eq_true] at hs
      exact ⟨first, rest, found, hc, hs.1, hf, h'⟩
  · rintro ⟨first, rest, found, hc, hk, hf, -⟩
    simp only [callee?, hc] at hf
    simp [calleeStays, hc, hk, hf]

theorem callee?_of_not_calleeStays {call : Cursor} (hs : ¬ call.calleeStays keeps) :
    (∃ first rest, call.children = first :: rest ∧ ¬ keeps first.info) ∨ call.callee? = none := by
  cases hc : call.children with
  | nil => exact Or.inr (by simp [callee?, hc])
  | cons first rest =>
    by_cases hk : keeps first.info
    · simp only [calleeStays, hc, hk, Bool.true_and, Bool.not_eq_true, Option.isSome_eq_false_iff,
        Option.isNone_iff_eq_none] at hs
      exact Or.inr (by simp [callee?, hc, hs])
    · exact Or.inl ⟨first, rest, rfl, hk⟩

theorem findings_pruneBelow_sublist (list : BanList) {call : Cursor}
    (hs : call.calleeStays keeps) :
    (BanRule.findings list (call.pruneBelow keeps)).Sublist (BanRule.findings list call) := by
  cases h' : (call.pruneBelow keeps).callee? with
  | none =>
    rw [BanRule.findings_of_callee?_none list h']
    exact List.nil_sublist _
  | some found' =>
    obtain ⟨found, hf, rfl⟩ := callee?_pruneBelow hs h'
    rw [BanRule.findings_congr list (pruneBelow_info keeps call) (by simp [h', hf])]

end Cursor

namespace Scope

/-- The calls that the walk of a scope meets, as they stand in the whole tree. -/
def calls (scope : Scope) (root : Cursor) : List Node :=
  root.nodes.filter fun n => n.isKept scope.keeps && n.info.kind = .callExpr

/-- What the rule finds at a call when it is seen through a scope. -/
def found (scope : Scope) (list : BanList) (n : Node) : List Finding :=
  BanRule.findings list (n.cursor.pruneBelow scope.keeps)

theorem run_nodes (scope : Scope) (list : BanList) (root : Cursor) :
    list.engine.run (scope.nodes root) = (scope.calls root).flatMap (scope.found list) := by
  rw [BanList.run_engine, nodes_eq, List.filter_map, List.flatMap_map, List.filter_filter, calls]
  congr 1
  exact List.filter_congr fun n _ => Bool.and_comm _ _

theorem run_nodes_of_target_none (fs : FileSystem) (list : BanList) (root : Cursor) :
    list.engine.run (nodes ⟨fs, none⟩ root) =
      (root.nodes.filter fun n => n.info.kind = .callExpr).flatMap fun n =>
        BanRule.findings list n.cursor := by
  rw [nodes_of_target_none, BanList.run_engine]

theorem flatMap_found_sublist (scope : Scope) (list : BanList) (root : Cursor) {ns : List Node}
    (hn : ns.Sublist (scope.calls root))
    (h : ∀ n ∈ ns, scope.found list n ≠ [] → n.cursor.calleeStays scope.keeps) :
    (ns.flatMap (scope.found list)).Sublist
      (list.engine.run (nodes ⟨scope.fileSystem, none⟩ root)) := by
  have hf : ∀ n ∈ ns, (scope.found list n).Sublist (BanRule.findings list n.cursor) := by
    intro n hm
    by_cases he : scope.found list n = []
    · rw [he]
      exact List.nil_sublist _
    · exact Cursor.findings_pruneBelow_sublist list (h n hm he)
  have hc : (scope.calls root).Sublist (root.nodes.filter fun n => n.info.kind = .callExpr) := by
    rw [calls, ← List.filter_filter]
    exact List.filter_sublist
  rw [run_nodes_of_target_none]
  exact (List.Sublist.flatMap_right ns hf).trans ((hn.trans hc).flatMap _)

/-- Every finding of a scope is made at a call whose callee stays or at one whose callee does not.
The first are findings of the whole tree, in the same order. The others are made at calls that have
no callee in the whole tree, or one below a foreign first child. -/
theorem run_nodes_split (scope : Scope) (list : BanList) (root : Cursor) :
    let stays := fun n : Node => n.cursor.calleeStays scope.keeps
    (list.engine.run (scope.nodes root)).Perm
        (((scope.calls root).filter stays).flatMap (scope.found list) ++
          ((scope.calls root).filter (!stays ·)).flatMap (scope.found list)) ∧
      (((scope.calls root).filter stays).flatMap (scope.found list)).Sublist
        (list.engine.run (nodes ⟨scope.fileSystem, none⟩ root)) ∧
      ((∀ n ∈ scope.calls root, scope.found list n ≠ [] → stays n) →
        (list.engine.run (scope.nodes root)).Sublist
          (list.engine.run (nodes ⟨scope.fileSystem, none⟩ root))) ∧
      (∀ n ∈ scope.calls root, scope.found list n ≠ [] →
        (stays n ↔ n.cursor.SharesCallee scope.keeps)) ∧
      (∀ n ∈ scope.calls root, ¬ stays n →
        (∃ first rest, n.cursor.children = first :: rest ∧ ¬ scope.keeps first.info) ∨
          BanRule.findings list n.cursor = []) := by
  intro stays
  refine ⟨?_, ?_, ?_, ?_, ?_⟩
  · rw [run_nodes, ← List.flatMap_append]
    exact (List.filter_append_perm stays (scope.calls root)).symm.flatMap_right _
  · apply flatMap_found_sublist scope list root List.filter_sublist
    intro n hn _
    exact (List.mem_filter.1 hn).2
  · intro h
    rw [run_nodes]
    exact flatMap_found_sublist scope list root (List.Sublist.refl _) h
  · intro n _ hf
    cases h' : (n.cursor.pruneBelow scope.keeps).callee? with
    | none => exact absurd (BanRule.findings_of_callee?_none list h') hf
    | some found' => exact Cursor.calleeStays_iff h'
  · intro n _ hs
    rcases Cursor.callee?_of_not_calleeStays hs with hc | hc
    · exact Or.inl hc
    · exact Or.inr (BanRule.findings_of_callee?_none list hc)

/-- A call in `/work/main.cpp` whose first child is located in a header. -/
def maskedCall : Cursor :=
  let place (file : Text) : Location := ⟨some file, 1, 1⟩
  let tokens : List Token :=
    [⟨.identifier, "a", 0⟩, ⟨.punctuation, ".", 1⟩, ⟨.identifier, "b", 2⟩, ⟨.punctuation, "(", 3⟩,
      ⟨.punctuation, ")", 4⟩]
  .node ⟨.callExpr, "b", place "main.cpp", ⟨0, 5, 1, 1⟩, tokens⟩ [
    .node ⟨.other "DECL_REF_EXPR", "f", place "f.h", ⟨0, 0, 1, 1⟩, []⟩ [],
    .node ⟨.memberRefExpr, "b", place "main.cpp", ⟨0, 3, 1, 1⟩, tokens.take 3⟩ []]

/-- With the header left out, the member reference behind its cursor is taken for the callee. -/
theorem run_nodes_maskedCall :
    let fs : FileSystem := ⟨[], [], [], "/work"⟩
    let list : BanList := ⟨[⟨"a", "b"⟩]⟩
    ¬ (list.engine.run (nodes ⟨fs, some "/work/main.cpp"⟩ maskedCall)).Subperm
      (list.engine.run (nodes ⟨fs, none⟩ maskedCall)) := by
  intro fs list h
  have hw : list.engine.run (nodes ⟨fs, none⟩ maskedCall) = [] := by decide +kernel
  have hs : list.engine.run (nodes ⟨fs, some "/work/main.cpp"⟩ maskedCall) ≠ [] := by decide +kernel
  rw [hw, List.subperm_nil] at h
  exact hs h

end Scope

end BannedCalls
