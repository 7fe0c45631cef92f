import BannedCalls.Engine
import Mathlib.Logic.Function.Basic

/-!
# What a ban list finds

At a call the rule finds the shape of the call, once for every entry of the list that names it. Of
the call it reads nothing but its own data and its callee's, the site of the call; so what is found
over a walk is a matter of the sites of its calls.
-/

namespace BannedCalls

namespace BanRule

theorem findings_eq (list : BanList) (call : Cursor) :
    findings list call = (call.shape?.toList.flatMap fun shape =>
      List.replicate (list.entries.count ⟨shape.receiver, shape.member⟩) shape).map finding := by
  unfold findings
  cases call.shape? with
  | none => rfl
  | some shape =>
    have hc (entry : BannedPair) : decide (shape.receiver = entry.receiver ∧
        shape.member = entry.member) = (entry == ⟨shape.receiver, shape.member⟩) := by
      rw [Bool.eq_iff_iff, decide_eq_true_iff, beq_iff_eq, BannedPair.mk.injEq, eq_comm,
        @eq_comm _ shape.member]
    simp only [hc, Option.toList_some, List.flatMap_cons, List.flatMap_nil, List.append_nil,
      List.map_replicate, List.map_const', List.count, List.countP_eq_length_filter]

theorem exists_shape_of_mem_findings {list : BanList} {call : Cursor} {f : Finding}
    (h : f ∈ findings list call) : ∃ shape, call.shape? = some shape ∧
      ⟨shape.receiver, shape.member⟩ ∈ list.entries ∧ f = finding shape := by
  rw [findings_eq] at h
  obtain ⟨shape, hs, rfl⟩ := List.mem_map.1 h
  obtain ⟨found, hf, hs⟩ := List.mem_flatMap.1 hs
  obtain ⟨hn, rfl⟩ := List.mem_replicate.1 hs
  exact ⟨shape, Option.mem_toList.1 hf, List.count_pos_iff.1 (Nat.pos_of_ne_zero hn), rfl⟩

/-- What the rule finds depends only on a call's own data and on its callee's. -/
theorem findings_congr (list : BanList) {call other : Cursor} (hi : call.info = other.info)
    (hc : call.callee?.map (·.1.info) = other.callee?.map (·.1.info)) :
    findings list call = findings list other := by
  unfold findings Cursor.shape?
  cases h : call.callee? with
  | none =>
    cases h' : other.callee? with
    | none => rfl
    | some found => simp [h, h'] at hc
  | some found =>
    cases h' : other.callee? with
    | none => simp [h, h'] at hc
    | some found' =>
      obtain ⟨d, k⟩ := found
      obtain ⟨d', k'⟩ := found'
      have hd : d.info = d'.info := by simpa [h, h'] using hc
      simp only [Option.bind_eq_bind, Option.bind_some, Cursor.kind, hd, hi]
      by_cases hk : d'.info.kind = .memberRefExpr
      · cases memberAccess? d'.info.ownTokens with
        | none => simp [hk]
        | some names =>
          by_cases ho : other.info.opensAt d'.info.extent.stop
          · simp [hk, ho, finding, hd]
          · simp [hk, ho]
      · simp [hk]

theorem findings_of_callee?_none (list : BanList) {call : Cursor} (h : call.callee? = none) :
    findings list call = [] := by simp [findings, Cursor.shape?, h]

end BanRule

namespace BanList

theorem run_engine (list : BanList) (ns : List Node) :
    list.engine.run ns = (ns.filter fun n => n.info.kind = .callExpr).flatMap fun n =>
      BanRule.findings list n.cursor := by
  simp [RuleEngine.run, RuleEngine.reports, engine]

theorem exists_shape_of_mem_run {list : BanList} {ns : List Node} {f : Finding}
    (h : f ∈ list.engine.run ns) : ∃ shape : CallShape,
      ⟨shape.receiver, shape.member⟩ ∈ list.entries ∧ f = BanRule.finding shape := by
  rw [run_engine] at h
  obtain ⟨n, -, hf⟩ := List.mem_flatMap.1 h
  obtain ⟨shape, -, he⟩ := BanRule.exists_shape_of_mem_findings hf
  exact ⟨shape, he⟩

end BanList

/-! ## Call sites -/

/-- What the rule reads at a call: the call's own data, and its callee's if it has one. -/
structure CallSite where
  call : CursorInfo
  callee : Option CursorInfo

namespace Cursor

def site (call : Cursor) : CallSite := ⟨call.info, call.callee?.map (·.1.info)⟩

end Cursor

theorem BanRule.factorsThrough_site (list : BanList) :
    (findings list).FactorsThrough Cursor.site := by
  intro call other h
  exact findings_congr list (congrArg CallSite.call h) (congrArg CallSite.callee h)

namespace Node

/-- The sites of the calls among some nodes. -/
def sites (ns : List Node) : List CallSite :=
  (ns.filter fun n => n.info.kind = .callExpr).map fun n => n.cursor.site

theorem sites_append (xs ys : List Node) : sites (xs ++ ys) = sites xs ++ sites ys := by
  simp [sites]

theorem sites_nodesUnder (ancestors : List CursorInfo) (info : CursorInfo)
    (children : List Cursor) :
    sites ((Cursor.node info children).nodesUnder ancestors) =
      (if info.kind = .callExpr then [(Cursor.node info children).site] else []) ++
        sites (Cursor.nodesUnderAll (info :: ancestors) children) := by
  rw [Cursor.nodesUnder, ← List.singleton_append, sites_append]
  congr 1
  by_cases hk : info.kind = .callExpr
  · have hn : (⟨.node info children, ancestors⟩ : Node).info.kind = .callExpr := hk
    simp [sites, hk, hn]
  · have hn : (⟨.node info children, ancestors⟩ : Node).info.kind ≠ .callExpr := hk
    simp [sites, hk, hn]

theorem sites_nodesUnderAll (ancestors : List CursorInfo) (cs : List Cursor) :
    sites (Cursor.nodesUnderAll ancestors cs) =
      cs.flatMap fun c => sites (c.nodesUnder ancestors) := by
  induction cs with
  | nil => rfl
  | cons c rest ih => rw [Cursor.nodesUnderAll, sites_append, ih, List.flatMap_cons]

end Node

/-- What a list finds over a walk depends on nothing but the call sites, one after the other. -/
theorem BanList.exists_run_eq_flatMap_sites (list : BanList) :
    ∃ found : CallSite → List Finding, ∀ ns,
      list.engine.run ns = (Node.sites ns).flatMap found := by
  obtain ⟨found, hf⟩ :=
    (Function.factorsThrough_iff (BanRule.findings list)).1 (BanRule.factorsThrough_site list)
  refine ⟨found, fun ns => ?_⟩
  rw [run_engine, Node.sites, List.flatMap_map]
  simp only [hf, Function.comp_apply]

end BannedCalls
