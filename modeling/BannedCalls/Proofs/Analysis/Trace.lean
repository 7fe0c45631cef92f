import BannedCalls.Proofs.Analysis.Findings

/-!
# What a traced analysis writes

A traced analysis is the untraced one with its trace beside it. The trace has a line for every
cursor of the file that has no foreign cursor above it and is none itself, in depth-first pre-order.
-/

namespace BannedCalls

/-- The cursors of a tree that belong to the target, up to the root. -/
def Cursor.visited (root : Cursor) (fs : FileSystem) (target : Text) : List Node :=
  root.nodes.filter (Node.isKept fun info => info.isAbout fs target)

namespace Host

variable (host : Host) (path : Text)

/-- The lines about a file, if the front end parses it. -/
def visits : Text :=
  match (host.parseFile path []).result with
  | .ok ⟨some root, _⟩ =>
    (root.visited host.fileSystem (host.fileSystem.realPath path)).flatMap Node.trace
  | _ => []

theorem trace_nodes_eq_visited (root : Cursor) :
    ((host.scope path).nodes root).flatMap Node.trace =
      (root.visited host.fileSystem (host.fileSystem.realPath path)).flatMap Node.trace := by
  have hk := Scope.keeps_of_target_ne_nil host.fileSystem
    (host.fileSystem.realPath_ne_nil path)
  have ht (keeps : CursorInfo → Bool) (n : Node) : (n.trimmed keeps).trace = n.trace := rfl
  rw [Scope.nodes_eq, List.flatMap_map, scope, hk]
  simp only [ht]
  rfl

end Host

variable {host : Host} {path : Text}

theorem Analysis.ofTree_traced (host : Host) (offers : List Offer) (clock : Clock) (path : Text)
    (root : Cursor) (unit : SourceUnit) (calls : List ParseCall) :
    ofTree host offers true clock path root unit calls =
      { ofTree host offers false clock path root unit calls with
        trace := ((host.scope path).nodes root).flatMap Node.trace } := by
  unfold ofTree
  dsimp only
  split
  · rfl
  · split <;> rfl

theorem Analysis.trace_ofTree_untraced (host : Host) (offers : List Offer) (clock : Clock)
    (path : Text) (root : Cursor) (unit : SourceUnit) (calls : List ParseCall) :
    (ofTree host offers false clock path root unit calls).trace = [] := by
  unfold ofTree
  dsimp only
  split
  · rfl
  · split <;> rfl

theorem analyze_of_unit {unit : SourceUnit} (h : (host.parseFile path []).result = .ok unit)
    (offers : List Offer) (traced : Bool) (clock : Clock) :
    analyze host offers traced clock path =
      Analysis.ofUnit host offers traced clock path unit (host.parseFile path []).calls := by
  simp [analyze, h]

/-- Tracing an analysis adds the visits of its file, and changes nothing else. -/
theorem analyze_traced (host : Host) (offers : List Offer) (clock : Clock) (path : Text) :
    analyze host offers true clock path =
      { analyze host offers false clock path with trace := host.visits path } := by
  unfold Host.visits
  cases h : (host.parseFile path []).result with
  | error e => simp [analyze, h]
  | ok unit =>
    rw [analyze_of_unit h, analyze_of_unit h]
    obtain ⟨root, diagnostics⟩ := unit
    cases root with
    | none => rfl
    | some root => simp only [Analysis.ofUnit, Analysis.ofTree_traced, Host.trace_nodes_eq_visited]

theorem trace_analyze_untraced (host : Host) (offers : List Offer) (clock : Clock) (path : Text) :
    (analyze host offers false clock path).trace = [] := by
  cases h : (host.parseFile path []).result with
  | error e => simp [analyze, h]
  | ok unit =>
    rw [analyze_of_unit h]
    obtain ⟨root, diagnostics⟩ := unit
    cases root with
    | none => rfl
    | some root => exact Analysis.trace_ofTree_untraced ..

theorem visits_of_not_hasTree (h : ¬ host.HasTree path) : host.visits path = [] := by
  unfold Host.visits
  cases hp : (host.parseFile path []).result with
  | error e => rfl
  | ok unit =>
    obtain ⟨root, diagnostics⟩ := unit
    cases root with
    | none => rfl
    | some root =>
      refine absurd (fun unit hu => ?_) h
      obtain rfl := Except.ok.inj (hp.symm.trans hu)
      rfl

instance : Decidable (host.HasTree path) :=
  match h : (host.parseFile path []).result with
  | .error _ => .isTrue fun _ hu => by cases h.symm.trans hu
  | .ok unit =>
    decidable_of_iff unit.root.isSome
      ⟨fun hs _ hu => Except.ok.inj (h.symm.trans hu) ▸ hs, fun ht => ht unit h⟩

end BannedCalls
