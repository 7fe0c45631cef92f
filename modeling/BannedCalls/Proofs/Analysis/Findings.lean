import BannedCalls.Proofs.Analysis.Cases
import BannedCalls.Proofs.Ban.Accepted
import BannedCalls.Proofs.Call.Scoped

/-!
# The findings of a report

A file without errors is reported on exactly: its findings are the banned calls of its tree, taken
in depth-first pre-order, each as often as the ban list names it. A call counts when no cursor from
it up to the root is located in another file.
-/

namespace BannedCalls

/-- The cursor is located in the target, in a file without a name, or in no file. -/
def CursorInfo.isAbout (info : CursorInfo) (fs : FileSystem) (target : Text) : Bool :=
  match info.location.file with
  | some name => name = [] || fs.realPath name = target
  | none => true

theorem Path.orDot_ne_nil (p : Text) : Path.orDot p ≠ [] := by
  unfold Path.orDot
  split
  · decide
  · assumption

theorem FileSystem.realPath_ne_nil (fs : FileSystem) (p : Text) : fs.realPath p ≠ [] :=
  Path.orDot_ne_nil _

theorem Scope.keeps_of_target_ne_nil (fs : FileSystem) {target : Text} (h : target ≠ []) :
    keeps ⟨fs, some target⟩ = fun info => info.isAbout fs target := by
  funext info
  unfold keeps keepsFile test CursorInfo.isAbout
  cases info.location.file with
  | none => rfl
  | some name => by_cases hn : name = [] <;> simp [h, hn]

/-- The calls of a tree that the target holds and that name a pair of the list, once for every such
pair. -/
def Cursor.bannedCalls (root : Cursor) (fs : FileSystem) (target : Text)
    (pairs : List BannedPair) : List CallShape :=
  let keeps := fun info : CursorInfo => info.isAbout fs target
  (root.nodes.filter fun n => n.isKept keeps && n.info.kind = .callExpr).flatMap fun n =>
    (n.cursor.pruneBelow keeps).shape?.toList.flatMap fun shape =>
      List.replicate (pairs.count ⟨shape.receiver, shape.member⟩) shape

namespace CallShape

def message (shape : CallShape) : Text :=
  "function invocation disallowed: " ++ shape.receiver ++ "." ++ shape.member

/-- The item of a report about a banned call: it points at the callee. -/
def item (shape : CallShape) : Item :=
  let extent := shape.callee.info.extent
  Item.advised "warning" "rule" (some "ban") (some extent.line) (some extent.column)
    (some (extent.start, extent.stop - extent.start)) shape.message Finding.suggestion
    (.positional false 1 0 [])

end CallShape

theorem Cursor.map_finding_bannedCalls (root : Cursor) (host : Host) (path : Text)
    (list : BanList) :
    list.engine.run ((host.scope path).nodes root) =
      (root.bannedCalls host.fileSystem (host.fileSystem.realPath path) list.entries).map
        BanRule.finding := by
  have hk := Scope.keeps_of_target_ne_nil host.fileSystem
    (host.fileSystem.realPath_ne_nil path)
  rw [Scope.run_nodes, bannedCalls, List.map_flatMap, Scope.calls, Host.scope, hk]
  congr 1
  funext n
  rw [Scope.found, hk, BanRule.findings_eq]

/-- Where no diagnostic about the file is an error, its report holds the banned calls and nothing
else from the rule. -/
theorem analyze_findings {host : Host} {path : Text} {root : Cursor}
    {diagnostics : List Diagnostic} {offers : List Offer} {pairs : List BannedPair}
    (hp : (host.parseFile path []).result = .ok ⟨some root, diagnostics⟩)
    (hd : ∀ d ∈ diagnostics, d.isAbout host.fileSystem (host.fileSystem.realPath path) →
      d.level ≠ .error ∧ d.level ≠ .fatal)
    (hw : offers.map Offer.members = pairs.map fun p => .ok [.str p.receiver, .str p.member])
    (hn : ∀ p ∈ pairs, p.Named) (traced : Bool) (clock : Clock) :
    let banned := root.bannedCalls host.fileSystem (host.fileSystem.realPath path) pairs
    ∃ r, (analyze host offers traced clock path).report = .ok r ∧
      r.findings = banned.map CallShape.message ∧
      (r.items.filter (Item.isFrom "rule")).Perm (banned.map CallShape.item) := by
  intro banned
  have hb : ¬ Report.isBlocked (host.diagnosticItems path diagnostics) := by
    intro hb
    obtain ⟨d, hm, ha, hl⟩ := Report.isBlocked_diagnosticItems.1 hb
    rcases hl with hl | hl
    · exact (hd d hm ha).1 hl
    · exact (hd d hm ha).2 hl
  obtain ⟨timing, hr, -⟩ := analyze_of_clean hp hb (BanList.ofOffers_of_writes hw hn) traced clock
  refine ⟨_, hr, ?_, ?_⟩
  · simp only [Analysis.successReport, Cursor.map_finding_bannedCalls, List.map_map]
    rfl
  · have hs := (Report.sort_perm (Analysis.gather (host.diagnosticItems path diagnostics)
      (banned.map BanRule.finding))).filter (Item.isFrom "rule")
    rw [Host.diagnosticItems, Analysis.filter_isFrom_rule_gather (Bool.eq_false_iff.2 hb),
      List.map_map] at hs
    simp only [Analysis.successReport, Cursor.map_finding_bannedCalls]
    exact hs

/-! ## A nested call beside a header -/

/-- The tokens of `a.b(c.d())`. -/
def nestedTokens : List Token := [
  ⟨.identifier, "a", 0⟩, ⟨.punctuation, ".", 1⟩, ⟨.identifier, "b", 2⟩, ⟨.punctuation, "(", 3⟩,
  ⟨.identifier, "c", 4⟩, ⟨.punctuation, ".", 5⟩, ⟨.identifier, "d", 6⟩, ⟨.punctuation, "(", 7⟩,
  ⟨.punctuation, ")", 8⟩, ⟨.punctuation, ")", 9⟩]

/-- The tree of `a.b(c.d())` in `file`, with the inner callee below a wrapper. -/
def nestedCall (file : Text) : Cursor :=
  let place : Location := ⟨some file, 1, 1⟩
  let inner := nestedTokens.drop 4
  .node ⟨.callExpr, "b", place, ⟨0, 10, 1, 1⟩, nestedTokens⟩ [
    .node ⟨.memberRefExpr, "b", place, ⟨0, 3, 1, 1⟩, nestedTokens.take 3⟩ [],
    .node ⟨.callExpr, "d", place, ⟨4, 9, 1, 5⟩, inner.take 5⟩ [
      .node ⟨.unexposedExpr, "d", place, ⟨4, 7, 1, 5⟩, inner.take 3⟩ [
        .node ⟨.memberRefExpr, "d", place, ⟨4, 7, 1, 5⟩, inner.take 3⟩ []]]]

def nestedRoot : Cursor :=
  .node ⟨.other "TRANSLATION_UNIT", "main.cpp", ⟨none, 0, 0⟩, ⟨0, 10, 1, 1⟩, []⟩
    [nestedCall "h.h", nestedCall "main.cpp"]

def nestedDiagnostics : List Diagnostic :=
  [⟨.error, "unknown type name", some ⟨some "h.h", 1, 1⟩⟩,
    ⟨.warning, "unused variable", some ⟨some "main.cpp", 1, 1⟩⟩]

def nestedHost : Host where
  fileSystem := ⟨[("main.cpp", [])], [], [], "/work"⟩
  units := [("main.cpp", ⟨some nestedRoot, nestedDiagnostics⟩)]
  sdk := .missing
  environment := []

theorem analyze_findings_nested :
    let pairs : List BannedPair := [⟨"a", "b"⟩, ⟨"c", "d"⟩, ⟨"a", "b"⟩]
    ∃ r, (analyze nestedHost (pairs.map BannedPair.offer) false ⟨[]⟩ "main.cpp").report = .ok r ∧
      r.findings = ["function invocation disallowed: a.b", "function invocation disallowed: a.b",
        "function invocation disallowed: c.d"] ∧
      (r.items.filter (Item.isFrom "rule")).length = 3 := by
  intro pairs
  have hd : ∀ d ∈ nestedDiagnostics, d.isAbout nestedHost.fileSystem
      (nestedHost.fileSystem.realPath "main.cpp") → d.level ≠ .error ∧ d.level ≠ .fatal := by
    decide +kernel
  have hn : ∀ p ∈ pairs, p.Named := by decide
  obtain ⟨r, hr, hf, hi⟩ := @analyze_findings nestedHost "main.cpp" nestedRoot nestedDiagnostics
    (pairs.map BannedPair.offer) pairs rfl hd rfl hn false ⟨[]⟩
  refine ⟨r, hr, hf.trans ?_, hi.length_eq.trans ?_⟩
  · decide +kernel
  · decide +kernel

end BannedCalls
