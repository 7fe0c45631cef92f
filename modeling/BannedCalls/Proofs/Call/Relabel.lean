import BannedCalls.Proofs.Call.Reports
import BannedCalls.Proofs.Call.Wrappers
import BannedCalls.Proofs.Source.Relabel

/-!
# Calls of relabelled trees

The rule reads a cursor's kind, its extent, and those of its tokens that count. Relabelling that
keeps these three changes no finding.
-/

namespace BannedCalls

/-- The relabelling keeps all that the rule reads of a cursor. -/
structure CursorInfo.KeepsCalls (f : CursorInfo → CursorInfo) : Prop where
  kind : ∀ info, (f info).kind = info.kind
  extent : ∀ info, (f info).extent = info.extent
  ownTokens : ∀ info, (f info).ownTokens = info.ownTokens

/-- The shape with its callee relabelled. -/
def CallShape.relabel (f : CursorInfo → CursorInfo) (shape : CallShape) : CallShape :=
  { shape with callee := shape.callee.relabel f }

variable {f : CursorInfo → CursorInfo}

namespace Cursor

theorem unwrap_relabel (hf : CursorInfo.KeepsCalls f) (c : Cursor) :
    (c.relabel f).unwrap = c.unwrap.map fun found => (found.1.relabel f, found.2) := by
  induction c using wrapper_induction with
  | node info children ih =>
    by_cases hk : info.kind = .unexposedExpr
    · have hk' : (f info).kind = .unexposedExpr := (hf.kind info).trans hk
      rw [relabel, relabelAll_eq_map]
      by_cases hl : children.length = 1
      · obtain ⟨inner, rfl⟩ := List.length_eq_one_iff.1 hl
        have he : (inner.relabel f).info.extent.sameOffsets (f info).extent =
            inner.info.extent.sameOffsets info.extent := by
          rw [info_relabel, hf.extent, hf.extent]
        rw [List.map_singleton]
        by_cases hs : inner.info.extent.sameOffsets info.extent
        · rw [unwrap_singleton hk hs, unwrap_singleton hk' (he.trans hs), ih inner rfl,
            Option.map_map, Option.map_map]
          rfl
        · rw [unwrap_singleton_of_not_sameOffsets hk hs,
            unwrap_singleton_of_not_sameOffsets hk' (by rwa [he]), Option.map_none]
      · rw [unwrap_of_length_ne_one hk hl, unwrap_of_length_ne_one hk' (by rwa [List.length_map]),
          Option.map_none]
    · have hk' : (f info).kind ≠ .unexposedExpr := by rwa [hf.kind]
      rw [relabel, unwrap_of_not_unexposed hk, unwrap_of_not_unexposed hk', Option.map_some,
        relabel]

theorem callee?_relabel (hf : CursorInfo.KeepsCalls f) (call : Cursor) :
    (call.relabel f).callee? = call.callee?.map fun found => (found.1.relabel f, found.2) := by
  unfold callee?
  rw [children_relabel]
  cases call.children with
  | nil => rfl
  | cons first rest => exact unwrap_relabel hf first

theorem opensAt_relabel (hf : CursorInfo.KeepsCalls f) (info : CursorInfo) (offset : Int) :
    (f info).opensAt offset = info.opensAt offset := by
  unfold CursorInfo.opensAt
  rw [hf.ownTokens]

theorem shape?_relabel (hf : CursorInfo.KeepsCalls f) (call : Cursor) :
    (call.relabel f).shape? = call.shape?.map (CallShape.relabel f) := by
  unfold shape?
  rw [callee?_relabel hf]
  cases call.callee? with
  | none => rfl
  | some found =>
    obtain ⟨callee, wrappers⟩ := found
    simp only [Option.map_some, Option.bind_eq_bind, Option.bind_some, kind, info_relabel, hf.kind,
      hf.extent, hf.ownTokens, opensAt_relabel hf]
    by_cases hk : callee.info.kind = .memberRefExpr
    · cases memberAccess? callee.info.ownTokens with
      | none => simp [hk]
      | some names =>
        by_cases ho : call.info.opensAt callee.info.extent.stop
        · simp [hk, ho, CallShape.relabel]
        · simp [hk, ho]
    · simp [hk]

end Cursor

namespace BanRule

theorem finding_relabel (hf : CursorInfo.KeepsCalls f) (shape : CallShape) :
    finding (shape.relabel f) = finding shape := by
  simp only [finding, CallShape.relabel, Cursor.info_relabel, hf.extent]

theorem findings_relabel (hf : CursorInfo.KeepsCalls f) (list : BanList) (call : Cursor) :
    findings list (call.relabel f) = findings list call := by
  unfold findings
  rw [Cursor.shape?_relabel hf]
  cases call.shape? with
  | none => rfl
  | some shape => simp only [Option.map_some, finding_relabel hf]; rfl

end BanRule

namespace BanList

theorem run_nodes_relabel (hf : CursorInfo.KeepsCalls f) (list : BanList) (ns : List Node) :
    list.engine.run (ns.map (Node.relabel f)) = list.engine.run ns := by
  have hc (n : Node) : BanRule.findings list (n.relabel f).cursor =
      BanRule.findings list n.cursor := BanRule.findings_relabel hf list n.cursor
  have hk : (fun n : Node => decide (n.info.kind = .callExpr)) ∘ Node.relabel f =
      fun n => decide (n.info.kind = .callExpr) := by
    funext n
    simp [hf.kind]
  simp only [run_engine, List.filter_map, List.flatMap_map, hc, hk]

end BanList

end BannedCalls
